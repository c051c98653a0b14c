-- SUMMARY: What can be written: integers of few digits, names made of them, and faults that say so.
import Mathlib.Data.Nat.Digits.Defs
import StorageSnapshot.Check
import StorageSnapshot.Proofs.Failure

/-!
# What can be written

An integer of too many digits has no text, and neither has a value that holds one. Whatever is said
of such a value ends in the fault that says so. Texts can always be written, and so can what a type
is called once it is a text.
-/

namespace StorageSnapshot

/-! ## Values -/

namespace Text

theorem isWritable_iff {n : Int} : isWritable n = true ↔ n.natAbs < 10 ^ maxDigits := by
  rw [isWritable, decide_eq_true_iff]
  exact Nat.length_toDigits_le_iff (by decide) (by decide)

/-- Integers that fill no more than a word can be written. -/
theorem isWritable_of_lt_word {n : Int} (h : n.natAbs < 2 ^ 256) : isWritable n = true :=
  isWritable_iff.2 (Nat.lt_of_lt_of_le h (by decide +kernel))

/-- The largest number of so many hexadecimal digits. -/
def largest (digits : Nat) : Nat := 16 ^ digits - 1

/-- Some thousand hexadecimal digits are too many decimal ones. -/
theorem isWritable_largest : isWritable (largest 3600) = false := by
  rw [Bool.eq_false_iff, ne_eq, isWritable_iff]
  decide +kernel

end Text

namespace Datum

theorem checkText_eq_ok {d : Datum} : d.checkText = .ok () ↔ d.isWritable = true := by
  unfold checkText
  split
  next h => simp [h]
  next h => simp [h]

theorem checkText_eq_error {d : Datum} :
    d.checkText = .error .unwritable ↔ d.isWritable = false := by
  unfold checkText
  split
  next h => simp [h]
  next h => simpa using h

theorem areWritable_iff {ds : List Datum} :
    areWritable ds = true ↔ ∀ d ∈ ds, d.isWritable = true := by
  induction ds with
  | nil => simp [areWritable]
  | cons d ds ih => simp [areWritable, ih]

theorem isWritable_of_mem_texts {texts : List String} {d : Datum} (h : d ∈ texts.map text) :
    d.isWritable = true := by
  obtain ⟨s, -, rfl⟩ := List.mem_map.1 h
  rfl

theorem isWritable_object_iff {ms : List (String × Datum)} :
    (object ms).isWritable = true ↔ ∀ m ∈ ms, m.2.isWritable = true := by
  change membersAreWritable ms = true ↔ _
  induction ms with
  | nil => simp [membersAreWritable]
  | cons m ms ih => simp [membersAreWritable, ih]

theorem mem_of_find? {ms : List (String × Datum)} {name : String} {d : Datum}
    (h : find? name ms = some d) : (name, d) ∈ ms := by
  induction ms with
  | nil => cases h
  | cons m ms ih =>
    obtain ⟨k, v⟩ := m
    unfold find? at h
    split at h
    next hk =>
      cases h
      exact hk ▸ List.mem_cons_self
    next => exact List.mem_cons_of_mem _ (ih h)

/-- The members of a value that can be written can be written. -/
theorem isWritable_of_find? {ms : List (String × Datum)} {name : String} {d : Datum}
    (h : (object ms).isWritable = true) (hd : find? name ms = some d) : d.isWritable = true :=
  isWritable_object_iff.1 h _ (mem_of_find? hd)

end Datum

/-! ## Names -/

/-- Whether the name of a declaration can be written, and that of its contract. -/
def Declaration.IsWritable (d : Declaration) : Prop :=
  d.name.isWritable = true ∧ ∀ outer, d.contract = some outer → outer.isWritable = true

theorem Declaration.IsWritable.checkQualifiedName {d : Declaration} (h : d.IsWritable) :
    Ty.checkQualifiedName d = .ok () := by
  unfold Ty.checkQualifiedName
  split
  next => rfl
  next outer houter =>
    rw [Datum.checkText_eq_ok.2 (h.2 outer houter), ok_bind, Datum.checkText_eq_ok.2 h.1]

theorem Declaration.IsWritable.checkText {d : Declaration} (h : d.IsWritable) :
    (Ty.qualifiedName d).checkText = .ok () := by
  unfold Ty.qualifiedName
  split
  next => exact Datum.checkText_eq_ok.2 h.1
  next => rfl

/-- A declared type whose name can be written is called something. -/
theorem Declaration.IsWritable.checkCalled {d : Declaration} (h : d.IsWritable) :
    (do Ty.checkQualifiedName d; (Ty.qualifiedName d).checkText) = .ok () := by
  rw [h.checkQualifiedName, ok_bind, h.checkText]

theorem Ty.checkBrackets_eq_ok {length : Option Int} :
    Ty.checkBrackets length = .ok () ↔ ∀ n, length = some n → Text.isWritable n = true := by
  cases length with
  | none => simp [checkBrackets]
  | some n =>
    rw [checkBrackets, Datum.checkText_eq_ok]
    exact ⟨fun h m hm => Option.some.inj hm ▸ h, fun h => h n rfl⟩

/-! ## Types -/

namespace Ty

variable {t : Ty} {typeString : Datum} {origin : Origin} {key value element : Ty}
  {length : Option Int}

theorem checkName_eq_checkCalled (h : t.called.checkText = .ok ()) :
    t.checkName = t.checkCalled := by
  rw [checkName, h]
  exact bind_pure_unit

theorem checkName_mapping :
    (mapping typeString origin key value).checkName = (do key.checkName; value.checkName) := by
  rw [checkName_eq_checkCalled rfl]
  simp only [checkName, checkCalled, bind_assoc]

/-- The elements of an array that is called something are called something. -/
theorem checkName_of_array (h : (array typeString origin element length).checkName = .ok ()) :
    element.checkName = .ok () := by
  rw [checkName_eq_checkCalled rfl, checkCalled] at h
  obtain ⟨⟨⟩, helement, h⟩ := bind_eq_ok.1 h
  obtain ⟨-, -, hjoined⟩ := bind_eq_ok.1 h
  rw [checkName, helement, ok_bind]
  cases hcalled : element.called with
  | text s => rfl
  | _ =>
    rw [hcalled] at hjoined
    cases hjoined

/-- What a mapping holds is called something if the mapping is. -/
theorem checkName_of_mapping (h : (mapping typeString origin key value).checkName = .ok ()) :
    value.checkName = .ok () := by
  rw [checkName_mapping] at h
  obtain ⟨_, -, hvalue⟩ := bind_eq_ok.1 h
  exact hvalue

end Ty

/-! ## Faults -/

/-- Whether a text, or the check of one, is there or fails with a fault of a kind. -/
def Shows (P : Fault → Prop) {α : Type} (x : Except DataError α) : Prop :=
  EndsIn P (fun _ => True) (Fault.lift x)

section Kinds

variable {α : Type} {P : Fault → Prop}

theorem shows_ok {x : Except DataError α} (h : ∃ a, x = .ok a) : Shows P x := by
  obtain ⟨a, rfl⟩ := h
  trivial

theorem shows_of_data (hP : ∀ e, P (.data e)) (x : Except DataError α) : Shows P x := by
  cases x with
  | ok a => trivial
  | error e => exact hP e

theorem shows_checkText {d : Datum} (h : d.isWritable = true) : Shows P d.checkText :=
  shows_ok ⟨(), Datum.checkText_eq_ok.2 h⟩

theorem shows_bind {β : Type} {x : Except DataError α} {f : α → Except DataError β}
    (hx : Shows P x) (hf : ∀ a, Shows P (f a)) : Shows P (x >>= f) := by
  cases x with
  | ok a => exact hf a
  | error e => exact hx

namespace Fault

theorem ofInput_of_check {e : InputError} (h : e.check = .ok ()) : ofInput e = .input e := by
  simp only [ofInput, raised, h]

theorem ofUnresolved_of_check {e : Unresolved} (h : e.check = .ok ()) :
    ofUnresolved e = .unresolved e := by
  simp only [ofUnresolved, raised, h]

/-- What follows the check of a value is done if the value can be written. -/
theorem checkText_bind_eq_ok {d : Datum} {x : Except Fault α} {a : α} :
    (do lift d.checkText; x) = .ok a ↔ d.isWritable = true ∧ x = .ok a := by
  unfold Datum.checkText
  split
  next h => exact (and_iff_right h).symm
  next h => exact ⟨nofun, fun hx => absurd hx.1 h⟩

/-- A fault that shows one value has a text if the value can be written. -/
theorem raised_checkText (d : Datum) (fault : Fault) :
    raised d.checkText fault = if d.isWritable then fault else .data .unwritable := by
  unfold Datum.checkText
  split <;> rfl

/-- A fault whose text is put together is that fault, or the one that says that it has no text. -/
theorem holds_raised {check : Except DataError Unit} {fault : Fault} (hfault : P fault)
    (hcheck : Shows P check) : P (raised check fault) := by
  cases check with
  | ok => exact hfault
  | error e => exact hcheck

end Fault

/-! ## Checks -/

/-- What a check of a value ends in, if the value can be shown where it is refused. -/
theorem ends_check {x : Except InputError α} {given : Datum} (hinput : ∀ e, P (.input e))
    (hcheck : ∀ e, x = .error e → e.check = given.checkText) (hgiven : Shows P given.checkText) :
    EndsIn P (x = .ok ·) (Fault.lift x) := by
  cases x with
  | ok a => rfl
  | error e =>
    refine Fault.holds_raised (hinput e) ?_
    rw [hcheck e rfl]
    exact hgiven

end Kinds

namespace Check

variable {given : Datum} {e : InputError}

/-- Only integers and texts are numbers. -/
theorem int_or_text_of_nonNegative {n : Nat} (h : nonNegative given = .ok n) :
    (∃ m, given = .int m) ∨ ∃ s, given = .text s := by
  unfold nonNegative at h
  split at h
  next hn =>
    cases given with
    | int m => exact .inl ⟨m, rfl⟩
    | text s => exact .inr ⟨s, rfl⟩
    | _ =>
      obtain ⟨-, -, hn⟩ := bind_eq_ok.1 hn
      cases hn
  next => cases h

/-- A positive number is not negative. -/
theorem nonNegative_of_positive {n : Nat} (h : positive given = .ok n) :
    nonNegative given = .ok n := by
  obtain ⟨m, hm, hpos⟩ := bind_eq_ok.1 h
  split at hpos
  next => cases hpos
  next =>
    cases hpos
    exact hm

/-! Every check that refuses a value shows that value, and no other. -/

theorem check_nonNegative (h : nonNegative given = .error e) : e.check = given.checkText := by
  unfold nonNegative at h
  split at h
  next => cases h
  next =>
    cases h
    rfl

theorem check_positive (h : positive given = .error e) : e.check = given.checkText := by
  unfold positive at h
  cases hn : nonNegative given with
  | error e' =>
    rw [hn] at h
    cases h
    exact check_nonNegative hn
  | ok n =>
    rw [hn, ok_bind] at h
    split at h
    next =>
      cases h
      rfl
    next => cases h

theorem check_slot (h : slot given = .error e) : e.check = given.checkText := by
  unfold slot at h
  cases hn : nonNegative given with
  | error e' =>
    rw [hn] at h
    cases h
    exact check_nonNegative hn
  | ok n =>
    rw [hn, ok_bind] at h
    split at h
    next => cases h
    next =>
      cases h
      rfl

theorem check_word (h : word given = .error e) : e.check = given.checkText := by
  unfold word at h
  split at h
  next s =>
    split at h
    next =>
      cases h
      rfl
    next =>
      split at h
      next => cases h
      next =>
        cases h
        rfl
  next =>
    cases h
    rfl

theorem check_truth (h : truth given = .error e) : e.check = given.checkText := by
  unfold truth at h
  split at h
  next => cases h
  next =>
    cases h
    rfl

theorem check_texts (h : texts given = .error e) : e.check = given.checkText := by
  unfold texts at h
  split at h
  next => cases h
  next =>
    split at h
    next => cases h
    next =>
      cases h
      rfl
  next =>
    cases h
    rfl

end Check

end StorageSnapshot

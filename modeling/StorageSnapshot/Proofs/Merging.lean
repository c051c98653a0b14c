-- SUMMARY: What merging a dump file into options can fail with, and what data it yields.
import StorageSnapshot.CommandLine
import StorageSnapshot.Proofs.Writable

/-!
# Merging

A dump file is taken in member by member. What it can fail with is what its values are refused for,
and the values that a warning is to show and that have no text. The data that is left are the
members of the data names, in their order.
-/

namespace StorageSnapshot

namespace Setting

/-- A list of texts is shown, and so is everything that is no list and can be written. -/
theorem listing_eq_ok {d : Datum} (hd : d.isWritable = true)
    (h : ∀ xs, d = .list xs → ∀ x ∈ xs, ∃ s, x = .text s) : ∃ s, listing d = .ok s := by
  have hcheck := Datum.checkText_eq_ok.2 hd
  cases d with
  | list xs =>
    have htexts : ∀ x ∈ xs, ∃ s, Datum.asText x = .ok s := by
      intro x hx
      obtain ⟨s, rfl⟩ := h xs rfl x hx
      exact ⟨s, rfl⟩
    obtain ⟨texts, hmap, -⟩ := mapM_eq_ok htexts
    exact ⟨_, by rw [listing, hmap]; rfl⟩
  | _ => exact ⟨_, bind_eq_ok.2 ⟨(), hcheck, rfl⟩⟩

theorem isWritable_texts (ss : List String) : (Datum.list (ss.map .text)).isWritable = true := by
  refine Datum.areWritable_iff.2 fun x hx => ?_
  obtain ⟨s, -, rfl⟩ := List.mem_map.1 hx
  rfl

theorem listing_texts (ss : List String) : ∃ s, listing (.list (ss.map .text)) = .ok s := by
  refine listing_eq_ok (isWritable_texts ss) fun xs hxs x hx => ?_
  cases hxs
  obtain ⟨s, -, rfl⟩ := List.mem_map.1 hx
  exact ⟨s, rfl⟩

/-- Whether a setting can be shown, alone and among others, or fails with a fault of a kind. -/
structure IsShown (P : Fault → Prop) (s : Setting) : Prop where
  alone : Shows P s.text
  among : Shows P s.checkText

variable {P : Fault → Prop}

theorem isShown_of_data (hP : ∀ e, P (.data e)) (s : Setting) : s.IsShown P :=
  ⟨shows_of_data hP _, shows_of_data hP _⟩

theorem isShown_path (p : String) : (path p).IsShown P := ⟨shows_ok ⟨p, rfl⟩, shows_ok ⟨(), rfl⟩⟩

theorem isShown_texts (ss : List String) : (value (.list (ss.map .text))).IsShown P :=
  ⟨shows_ok (listing_texts ss), shows_checkText (isWritable_texts ss)⟩

theorem isShown_value {d : Datum} (hd : d.isWritable = true) (h : ∀ xs, d ≠ .list xs) :
    (value d).IsShown P :=
  ⟨shows_ok (listing_eq_ok hd fun xs hxs => absurd hxs (h xs)), shows_checkText hd⟩

end Setting

namespace Options

variable {P : Fault → Prop} {o : Options}

/-- Whether an option's value in a dump file is checked before it is taken. -/
def isChecked : OptionName → Bool
  | .debugLogFile | .abortReport => false
  | _ => true

/-- What a checked value means can be shown if it can be written. -/
theorem isShown_checked {name : OptionName} {given value : Datum} (hname : isChecked name = true)
    (h : checked name given = .ok value) (hvalue : value.isWritable = true) :
    (Setting.value value).IsShown P := by
  have hplain : ∀ {α : Type} {f : α → Datum} {x : Except InputError α}, f <$> x = .ok value →
      (∀ a xs, f a ≠ .list xs) → (Setting.value value).IsShown P := by
    intro α f x hx hf
    obtain ⟨a, -, rfl⟩ := map_eq_ok.1 hx
    exact Setting.isShown_value hvalue (hf a)
  cases name with
  | «variable» | mappingKey | debugTopics =>
    obtain ⟨ss, -, rfl⟩ := map_eq_ok.1 h
    exact Setting.isShown_texts ss
  | debugLogFile | abortReport => cases hname
  | _ => exact hplain h fun a xs hxs => by cases hxs

/-- A value that is refused for an option is shown, and no other. -/
theorem check_checked {name : OptionName} {given : Datum} {e : InputError}
    (h : checked name given = .error e) : e.check = given.checkText := by
  cases name with
  | hashedKeys | json | quiet | debug | showDebugTopics =>
    exact Check.check_truth (map_eq_error.1 h)
  | «variable» | mappingKey | debugTopics => exact Check.check_texts (map_eq_error.1 h)
  | maxLength => exact Check.check_nonNegative (map_eq_error.1 h)
  | maxDepth => exact Check.check_positive (map_eq_error.1 h)
  | debugLogFile | abortReport => cases h

/-! ## Steps -/

/-- Whether everything among options can be shown, or fails with a fault of a kind. -/
structure AllShow (P : Fault → Prop) (o : Options) : Prop where
  settings : ∀ name, (o.get name).IsShown P
  mark : ∀ d, o.mark = some d → Shows P d.checkText

theorem allShow_of_data (hP : ∀ e, P (.data e)) (o : Options) : o.AllShow P :=
  ⟨fun _ => Setting.isShown_of_data hP _, fun _ _ => shows_of_data hP _⟩

theorem forall_get_set {Q : OptionName → Setting → Prop} {name : OptionName} {value : Setting}
    (h : ∀ n, Q n (o.get n)) (hvalue : Q name value) (n : OptionName) :
    Q n ((o.set name value).get n) := by
  by_cases hn : n = name
  · subst hn
    simpa [Options.set] using hvalue
  · simpa [Options.set, hn] using h n

theorem AllShow.set {name : OptionName} {value : Setting} (h : o.AllShow P)
    (hvalue : value.IsShown P) : (o.set name value).AllShow P where
  settings := forall_get_set (Q := fun _ v => v.IsShown P) h.settings hvalue
  mark := h.mark

/-- The options as a call or a table can be shown if each of them can. -/
theorem AllShow.listed (h : o.AllShow P) (shown : String × Setting → String) :
    Shows P (Reserved.listed o shown) := by
  have hentry : ∀ e ∈ o.entries, Shows P e.2.checkText := by
    intro e he
    rcases List.mem_append.1 he with he | he
    · rcases List.mem_cons.1 he with rfl | he
      · exact shows_ok ⟨(), rfl⟩
      · obtain ⟨name, -, rfl⟩ := List.mem_map.1 he
        exact (h.settings name).among
    · obtain ⟨d, hd, rfl⟩ := List.mem_map.1 he
      exact h.mark d (by simpa using hd)
  have hall : ∀ es : List (String × Setting), (∀ e ∈ es, Shows P e.2.checkText) →
      Shows P (es.forM fun e => e.2.checkText) := by
    intro es hes
    induction es with
    | nil => exact shows_ok ⟨(), rfl⟩
    | cons e es ih =>
      exact shows_bind (hes e List.mem_cons_self) fun _ =>
        ih fun e' he' => hes e' (List.mem_cons_of_mem _ he')
  exact shows_bind (hall _ hentry) fun _ => shows_ok ⟨_, rfl⟩

theorem AllShow.reserved (h : o.AllShow P) (meaning : Reserved) : Shows P (meaning.text o) := by
  cases meaning with
  | table => exact shows_bind (h.listed _) fun _ => shows_ok ⟨_, rfl⟩
  | method owner name =>
    have hcall : Shows P (Reserved.callText o) :=
      shows_bind (h.listed _) fun _ => shows_ok ⟨_, rfl⟩
    exact shows_bind hcall fun _ => shows_ok ⟨_, rfl⟩
  | mark =>
    have hmark : Shows P (o.mark.getD .null).checkText := by
      cases hmark : o.mark with
      | none => exact shows_ok ⟨(), rfl⟩
      | some d => exact h.mark d hmark
    exact shows_bind hmark fun _ => shows_ok ⟨_, rfl⟩
  | _ => exact shows_ok ⟨_, rfl⟩

theorem ends_keep {name : String} {isSame : Bool} {mine : Except DataError String}
    {given : Datum} (hmine : Shows P mine) (hgiven : Shows P (Setting.listing given)) :
    EndsIn P (· = o) (o.keep name isSame mine given).result := by
  cases isSame with
  | true => exact rfl
  | false =>
    have hresult : (o.keep name false mine given).result =
        Fault.lift mine >>= fun _ => Fault.lift (Setting.listing given) >>= fun _ => .ok o := by
      unfold keep
      simp only [Bool.not_false, if_true, Traced.result_bind]
      rfl
    rw [hresult]
    exact hmine.bind fun _ _ => hgiven.bind fun _ _ => rfl

/-- What is taken in for an option is what its value means. -/
theorem ends_absorb {name : OptionName} {given : Datum} (hinput : ∀ e, P (.input e))
    (ho : o.AllShow P)
    (hvalue : EndsIn P (fun value => (Setting.value value).IsShown P)
      (Fault.lift (checked name given))) :
    EndsIn P (AllShow P) (o.absorb name given).result := by
  unfold absorb
  rw [Traced.result_bind]
  cases hchecked : Fault.lift (checked name given) with
  | error e =>
    have he := hvalue.of_error hchecked
    cases e with
    | input e => exact hinput _
    | _ => exact he
  | ok value =>
    have hshown := hvalue.of_ok hchecked
    change EndsIn P (AllShow P)
      (if (o.get name).isUnset then _ else _ : Traced Fault Options).result
    split
    · exact ho.set hshown
    · exact (ends_keep (ho.settings name).alone hshown.alone).mono (fun _ h => h) fun _ h => h ▸ ho

theorem ends_absorbReserved {name : String} {meaning : Reserved} {given : Datum}
    (ho : o.AllShow P) (hgiven : (Setting.value given).IsShown P)
    (hobservers : meaning = .observers → P (.data (.notSettable name))) :
    EndsIn P (AllShow P) (o.absorbReserved name meaning given).result := by
  have hkeep : EndsIn P (AllShow P) (o.keep name ((meaning.value? o).any (·.same given))
      (meaning.text o) given).result :=
    (ends_keep (ho.reserved meaning) hgiven.alone).mono (fun _ h => h) fun _ h => h ▸ ho
  unfold absorbReserved
  cases meaning with
  | observers => exact hobservers rfl
  | mark =>
    dsimp only
    split
    · exact hkeep
    · refine ⟨ho.settings, fun d hd => ?_⟩
      cases hd
      exact hgiven.among
  | _ => exact hkeep

/-- What has to be known of a member, so that taking it in fails only with faults of a kind. -/
structure Admits (P : Fault → Prop) (name : String) (given : Datum) : Prop where
  option : ∀ n, OptionName.ofText? name = some n →
    EndsIn P (fun value => (Setting.value value).IsShown P) (Fault.lift (checked n given))
  reserved : (Reserved.ofText? name).isSome = true → (Setting.value given).IsShown P
  observers : Reserved.ofText? name = some .observers → P (.data (.notSettable name))

theorem admits_of_data {name : String} {given : Datum} (hinput : ∀ e, P (.input e))
    (hP : ∀ e, P (.data e)) : Admits P name given where
  option _ _ := (ends_check hinput (fun _ => check_checked) (shows_of_data hP _)).mono
    (fun _ h => h) fun _ _ => Setting.isShown_of_data hP _
  reserved _ := Setting.isShown_of_data hP _
  observers _ := hP _

theorem ends_absorbMember {name : String} {given : Datum} {step : Traced Fault Options}
    (hinput : ∀ e, P (.input e)) (ho : o.AllShow P) (h : Admits P name given)
    (hstep : o.absorbMember? name given = some step) : EndsIn P (AllShow P) step.result := by
  unfold absorbMember? at hstep
  split at hstep
  next n hn =>
    cases hstep
    exact ends_absorb hinput ho (h.option n hn)
  next =>
    obtain ⟨meaning, hmeaning, rfl⟩ := Option.map_eq_some_iff.1 hstep
    refine ends_absorbReserved ho (h.reserved (by rw [hmeaning]; rfl)) ?_
    rintro rfl
    exact h.observers hmeaning

/-- The members of a dump file that are data. -/
def dataOf (ms : List (String × Datum)) : List (String × Datum) :=
  ms.filter fun m => dataNames.contains m.1

theorem dataOf_cons_of_data {m : String × Datum} (h : dataNames.contains m.1 = true)
    (ms : List (String × Datum)) : dataOf (m :: ms) = m :: dataOf ms :=
  List.filter_cons_of_pos h

theorem dataOf_cons_of_option {m : String × Datum} (h : ¬dataNames.contains m.1 = true)
    (ms : List (String × Datum)) : dataOf (m :: ms) = dataOf ms :=
  List.filter_cons_of_neg h

/-- Taking in a dump file yields its data, or fails for one of its members. -/
theorem ends_absorbAll {ms : List (String × Datum)} (hinput : ∀ e, P (.input e))
    (ho : o.AllShow P) (h : ∀ m ∈ ms, Admits P m.1 m.2) :
    EndsIn P (· = dataOf ms) (o.absorbAll ms).2.result := by
  induction ms generalizing o with
  | nil => exact rfl
  | cons m ms ih =>
    obtain ⟨name, given⟩ := m
    have hrest : ∀ m ∈ ms, Admits P m.1 m.2 := fun m hm => h m (List.mem_cons_of_mem _ hm)
    unfold absorbAll
    by_cases hdata : dataNames.contains name = true
    · rw [if_pos hdata]
      have hresult : ((((name, given) :: ·) <$> (o.absorbAll ms).2 :
          Traced Fault (List (String × Datum)))).result =
            (o.absorbAll ms).2.result >>= fun data => .ok ((name, given) :: data) := by
        rw [map_eq_pure_bind, Traced.result_bind]
        rfl
      dsimp only
      rw [hresult]
      refine (ih ho hrest).bind fun data hms => ?_
      rw [EndsIn, hms, dataOf_cons_of_data hdata]
    · rw [if_neg hdata]
      rw [dataOf_cons_of_option hdata]
      cases hstep : o.absorbMember? name given with
      | none => exact hinput _
      | some step =>
        have hends := ends_absorbMember hinput ho (h _ List.mem_cons_self) hstep
        dsimp only
        cases hresult : step.result with
        | error e => exact hends.of_error hresult
        | ok o' => exact ih (hends.of_ok hresult) hrest

/-- That data do not suffice is said without any of them. -/
theorem check_checkData {data : List (String × Datum)} {e : InputError}
    (h : checkData data = .error e) : e.check = .ok () := by
  unfold checkData at h
  dsimp only at h
  split at h
  next =>
    cases h
    rfl
  next =>
    split at h
    next =>
      cases h
      rfl
    next => cases h
  next =>
    cases h
    rfl

/-- The data of a dump file has the members of the data names. -/
theorem find?_dataOf {name : String} (h : dataNames.contains name = true)
    (ms : List (String × Datum)) : Datum.find? name (dataOf ms) = Datum.find? name ms := by
  induction ms with
  | nil => rfl
  | cons m ms ih =>
    obtain ⟨k, v⟩ := m
    by_cases hk : k = name
    · subst hk
      rw [dataOf_cons_of_data h]
      simp [Datum.find?]
    · by_cases hdata : dataNames.contains k = true
      · rw [dataOf_cons_of_data hdata]
        simp only [Datum.find?, hk, if_false]
        exact ih
      · rw [dataOf_cons_of_option hdata]
        simp only [Datum.find?, hk, if_false]
        exact ih

end Options

end StorageSnapshot

-- SUMMARY: Which values are converted to integers and byte strings, and in which errors that ends.
import StorageSnapshot.Proofs.Failure
import StorageSnapshot.Proofs.Numerals

/-!
# Conversions

A conversion takes more than the values it is for: a truth value or a float for an integer, and an
integer for so many zeros. Here is, for each conversion, what is a value of the kind that is asked
for and what passes for one although it is none. All else is a mistake in the value that is
converted, apart from numbers beyond those of a machine.
-/

namespace StorageSnapshot

variable {d : Datum} {n : Int} {raw : Bytes} {size : Nat} {e : DataError}

/-- Whether an error blames the value that is converted: its kind, or what it says. -/
def DataError.IsMistake (e : DataError) : Prop := e.nature = .wrongKind ∨ e.nature = .wrongValue

namespace Datum

/-! ## Integers -/

/-- Whether a value is an integer or the text of one. -/
inductive IsInteger : Datum → Int → Prop
  | int (n : Int) : IsInteger (.int n) n
  | text {s : String} {m : Nat} (hs : Text.IsNumeral s m) : IsInteger (.text s) m

/-- Whether a value that is no integer passes for one: a truth value for zero or one, a finite float
for its integer part, and a byte string for the number that it spells. -/
inductive PassesAsInteger : Datum → Int → Prop
  | bool (b : Bool) : PassesAsInteger (.bool b) (if b then 1 else 0)
  | float {x : Double} (hx : x.isFinite = true) : PassesAsInteger (.float x) x.truncate
  | bytes {raw : Bytes} {n : Int} (hraw : integerOfBytes raw = .ok n) :
    PassesAsInteger (.bytes raw) n

/-- Whether a value is a float beyond all numbers, and the error that it causes as an integer. -/
inductive IsInfinite : Datum → DataError → Prop
  | float {x : Double} (hx : x.isInfinite = true) : IsInfinite (.float x) .infiniteFloat

theorem IsInteger.truncated (h : d.IsInteger n) : d.truncated = .ok n := by
  cases h with
  | int => rfl
  | text hs => exact Text.toInteger_of_isNumeral hs

theorem PassesAsInteger.truncated (h : d.PassesAsInteger n) : d.truncated = .ok n := by
  cases h with
  | bool => rfl
  | @float x hx =>
    have hexponent : x.exponentField ≠ 2047 := by simpa [Double.isFinite] using hx
    simp [Datum.truncated, Double.isNaN, Double.isInfinite, hexponent]
  | bytes hraw => exact hraw

theorem IsInfinite.truncated (h : d.IsInfinite e) : d.truncated = .error e := by
  cases h with
  | @float x hx =>
    have hfields : x.exponentField = 2047 ∧ x.fractionField = 0 := by
      simpa [Double.isInfinite] using hx
    simp [Datum.truncated, Double.isNaN, hfields, hx]

theorem ends_integerOfBytes (raw : Bytes) :
    EndsIn DataError.IsMistake (fun n => PassesAsInteger (.bytes raw) n) (integerOfBytes raw) := by
  cases h : integerOfBytes raw with
  | ok n => exact .bytes h
  | error e =>
    unfold integerOfBytes at h
    dsimp only at h
    split at h
    · split at h
      · cases h
        exact .inr rfl
      · cases h
    · cases h
      exact .inr rfl

/-- A value is converted to an integer if it is one or passes for one. Only floats can be too
large. -/
theorem ends_truncated (d : Datum) :
    EndsIn (fun e => e.IsMistake ∨ d.IsInfinite e)
      (fun n => d.IsInteger n ∨ d.PassesAsInteger n) d.truncated := by
  cases d with
  | int n => exact .inl (.int n)
  | bool b => exact .inr (.bool b)
  | null | list | object => exact .inl (.inl rfl)
  | bytes raw => exact (ends_integerOfBytes raw).mono (fun _ => .inl) fun _ => .inr
  | float x =>
    refine .ite (fun _ => .inl (.inr rfl)) fun hnan => ?_
    refine .ite (fun hx => .inr (.float hx)) fun hinfinite => .inr (.float ?_)
    simp only [Double.isNaN, Double.isInfinite, Bool.and_eq_true, beq_iff_eq, bne_iff_ne,
      not_and] at hnan hinfinite
    rw [Double.isFinite, bne_iff_ne]
    exact fun hexponent => hnan hexponent (hinfinite hexponent)
  | text s =>
    cases h : (Datum.text s).truncated with
    | ok n =>
      obtain ⟨m, rfl, hs⟩ := Text.toInteger_eq_ok_iff.1 h
      exact .inl (.text hs)
    | error e =>
      refine .inl (.inr ?_)
      simp only [truncated, toInteger] at h
      split at h
      · split at h
        · cases h
          rfl
        · cases h
      · cases h
        rfl

/-! ## Truth values -/

/-- Whether a value is a truth value or the text of one, in any letter case. -/
inductive IsTruth : Datum → Bool → Prop
  | bool (b : Bool) : IsTruth (.bool b) b
  | text {s : String} {b : Bool}
    (hs : s.toList.map Char.toLower = (if b then "true" else "false").toList) : IsTruth (.text s) b

/-- Whether a value passes for a truth value: everything but a text does, unless it is one. -/
inductive PassesAsTruth : Datum → Bool → Prop
  | mk {d : Datum} (hbool : ∀ b, d ≠ .bool b) (htext : ∀ s, d ≠ .text s) :
    PassesAsTruth d d.isTruthy

/-! ## Byte strings -/

/-- Whether a value is a byte string, a list of its bytes or a text that writes it. -/
inductive IsBytes : Datum → Bytes → Prop
  | bytes (raw : Bytes) : IsBytes (.bytes raw) raw
  | list (raw : Bytes) : IsBytes (.list (raw.map fun x => .int (x.toNat : Int))) raw
  | text {s : String} {raw : Bytes} (hs : Text.WritesBytes s raw) : IsBytes (.text s) raw

/-- Whether an item of a list stands for a byte. -/
inductive StandsForByte : Datum → UInt8 → Prop
  | int (x : UInt8) : StandsForByte (.int (x.toNat : Int)) x
  | bool (b : Bool) : StandsForByte (.bool b) (if b then 1 else 0)

/-- Whether a value that is no byte string passes for one: a number for so many zeros, and a list in
which there are truth values for one where these are zero or one. -/
inductive PassesAsBytes : Datum → Bytes → Prop
  | int (n : Nat) : PassesAsBytes (.int n) (Bytes.zeros n)
  | bool (b : Bool) : PassesAsBytes (.bool b) (Bytes.zeros (if b then 1 else 0))
  | list {items : List Datum} {raw : Bytes} (hbool : ∃ b, Datum.bool b ∈ items)
    (hitems : List.Forall₂ StandsForByte items raw) : PassesAsBytes (.list items) raw

/-- Whether a value is a number of bytes that there is no room for, and the error that it causes. -/
inductive AsksTooMuch : Datum → DataError → Prop
  | count {n : Int} (hn : n > maxCount - 33 ∨ n < -maxCount - 1) :
    AsksTooMuch (.int n) .countTooLarge
  | memory {n : Int} (hmany : memoryEnd ≤ n) (hn : n ≤ maxCount - 33) :
    AsksTooMuch (.int n) .outOfMemory

theorem toByte_eq_ok_iff {x : UInt8} : d.toByte = .ok x ↔ d.StandsForByte x := by
  constructor
  · intro h
    cases d with
    | int n =>
      simp only [toByte] at h
      split at h
      case isFalse => cases h
      case isTrue hn =>
        cases h
        have hround : ((UInt8.ofNat n.toNat).toNat : Int) = n := by
          rw [UInt8.toNat_ofNat']
          omega
        have hbyte := StandsForByte.int (UInt8.ofNat n.toNat)
        rwa [hround] at hbyte
    | bool b =>
      cases h
      exact .bool b
    | _ => cases h
  · rintro (x | b)
    · have hx := x.toNat_lt
      rw [toByte, if_pos (by omega), Int.toNat_natCast, UInt8.ofNat_toNat]
    · rfl

theorem ends_toByte (d : Datum) : EndsIn DataError.IsMistake (fun _ => True) d.toByte := by
  cases d with
  | int n => exact .ite (fun _ => trivial) fun _ => .inr rfl
  | bool => trivial
  | _ => exact .inl rfl

/-- The items of a list that stands for bytes are bytes, unless there are truth values among
them. -/
theorem isBytes_or_passesAsBytes {items : List Datum}
    (h : List.Forall₂ StandsForByte items raw) :
    (Datum.list items).IsBytes raw ∨ (Datum.list items).PassesAsBytes raw := by
  by_cases hbool : ∃ b, Datum.bool b ∈ items
  · exact .inr (.list hbool h)
  · suffices hitems : items = raw.map fun x => .int (x.toNat : Int) from .inl (hitems ▸ .list raw)
    induction h with
    | nil => rfl
    | @cons item x items raw hitem _ ih =>
      cases hitem with
      | int x => rw [ih fun ⟨b, hb⟩ => hbool ⟨b, List.mem_cons_of_mem _ hb⟩, List.map_cons]
      | bool b => exact absurd ⟨b, List.mem_cons_self⟩ hbool

theorem sizedBytes_of_hexOrBytes (hint : ∀ n, d ≠ .int n) (hbool : ∀ b, d ≠ .bool b)
    (h : d.hexOrBytes = .ok raw) : d.sizedBytes raw.length = .ok (some raw) := by
  cases d with
  | int n => exact absurd rfl (hint n)
  | bool b => exact absurd rfl (hbool b)
  | _ =>
    simp only [sizedBytes, h, ok_bind, if_pos]
    rfl

theorem byteCount_eq_ok_iff {k : Nat} : byteCount n = .ok k ↔ n = k ∧ n < memoryEnd := by
  unfold byteCount maxCount memoryEnd
  constructor
  · intro h
    split at h
    · cases h
    split at h
    · cases h
    split at h
    · cases h
    cases h
    omega
  · rintro ⟨rfl, hn⟩
    rw [if_neg (by omega), if_neg (by omega), if_neg (by omega), Int.toNat_natCast]

theorem AsksTooMuch.byteCount (h : (Datum.int n).AsksTooMuch e) : byteCount n = .error e := by
  unfold Datum.byteCount
  cases h with
  | count hn => rw [if_pos hn]
  | memory hmany hn =>
    unfold maxCount memoryEnd at *
    rw [if_neg (by omega), if_neg (by omega), if_pos hmany]

theorem ends_byteCount (n : Int) :
    EndsIn (fun e => e.IsMistake ∨ (Datum.int n).AsksTooMuch e) (fun k : Nat => n = k)
      (byteCount n) := by
  cases h : byteCount n with
  | ok k => exact (byteCount_eq_ok_iff.1 h).1
  | error e =>
    unfold byteCount at h
    split at h
    next hn =>
      cases h
      exact .inr (.count hn)
    next hn =>
      split at h
      · cases h
        exact .inl (.inr rfl)
      split at h
      next hmany =>
        cases h
        exact .inr (.memory hmany (by omega))
      next => cases h

theorem IsBytes.sizedBytes (h : d.IsBytes raw) : d.sizedBytes raw.length = .ok (some raw) := by
  refine sizedBytes_of_hexOrBytes (by rintro _ rfl; cases h) (by rintro _ rfl; cases h) ?_
  cases h with
  | bytes => rfl
  | text hs => exact Bytes.ofHex_eq_ok_iff.2 hs
  | list =>
    refine mapM_eq_ok_iff.2 (List.forall₂_map_left_iff.2 (List.forall₂_same.2 ?_))
    intro x _
    exact toByte_eq_ok_iff.2 (.int x)

theorem PassesAsBytes.sizedBytes (h : d.PassesAsBytes raw) (hlength : raw.length ≤ wordSize) :
    d.sizedBytes raw.length = .ok (some raw) := by
  have hzeros : ∀ {k : Nat}, k ≤ wordSize → byteCount k = .ok k := by
    intro k hk
    refine byteCount_eq_ok_iff.2 ⟨rfl, ?_⟩
    unfold wordSize at hk
    unfold memoryEnd
    omega
  cases h with
  | int k =>
    rw [Bytes.zeros, List.length_replicate] at hlength ⊢
    simp only [Datum.sizedBytes, hzeros hlength, ok_bind, if_pos]
    rfl
  | bool b => cases b <;> rfl
  | list hbool hitems =>
    refine sizedBytes_of_hexOrBytes (by rintro _ ⟨⟩) (by rintro _ ⟨⟩) ?_
    exact mapM_eq_ok_iff.2 (hitems.imp fun _ _ => toByte_eq_ok_iff.2)

theorem AsksTooMuch.sizedBytes (h : d.AsksTooMuch e) (size : Nat) :
    d.sizedBytes size = .error e := by
  obtain ⟨n, rfl⟩ : ∃ n, d = .int n := by cases h <;> exact ⟨_, rfl⟩
  simp only [Datum.sizedBytes, h.byteCount]
  rfl

theorem ends_ofHexPairs (position : Nat) (cs : List Char) :
    EndsIn DataError.IsMistake (fun _ => True) (Bytes.ofHexPairs position cs) := by
  fun_induction Bytes.ofHexPairs position cs with
  | case1 | case2 => trivial
  | case3 | case6 | case7 => exact .inr rfl
  | case4 _ _ _ _ _ ih => exact ih
  | case5 _ _ _ _ _ _ _ _ _ ih => exact ih.bind fun _ _ => trivial

theorem ends_hexOrBytes (hint : ∀ n, d ≠ .int n) (hbool : ∀ b, d ≠ .bool b) :
    EndsIn DataError.IsMistake (fun raw => raw = [] ∨ d.IsBytes raw ∨ d.PassesAsBytes raw)
      d.hexOrBytes := by
  cases d with
  | int n => exact absurd rfl (hint n)
  | bool b => exact absurd rfl (hbool b)
  | null | float => exact .inl rfl
  | bytes raw => exact .inr (.inl (.bytes raw))
  | text s =>
    cases h : (Datum.text s).hexOrBytes with
    | ok raw => exact .inr (.inl (.text (Bytes.ofHex_eq_ok_iff.1 h)))
    | error e =>
      have hends : EndsIn DataError.IsMistake (fun _ => True) (Bytes.ofHex s) := by
        unfold Bytes.ofHex
        dsimp only
        split
        · exact .inr rfl
        · exact ends_ofHexPairs 0 _
      exact hends.of_error h
  | list items =>
    cases h : (Datum.list items).hexOrBytes with
    | ok raw =>
      have hitems := (mapM_eq_ok_iff.1 h).imp fun _ _ => toByte_eq_ok_iff.1
      exact .inr (isBytes_or_passesAsBytes hitems)
    | error e => exact (EndsIn.mapM fun item _ => ends_toByte item).of_error h
  | object ms =>
    cases ms with
    | nil => exact .inl rfl
    | cons => exact .inl rfl

/-- Zeros are taken for a number if it asks for so many. -/
theorem length_of_zeros {k : Nat} (h : d.PassesAsBytes (Bytes.zeros k))
    (hraw : raw ∈ if k = size then some (Bytes.zeros size) else none) :
    raw.length = size ∧ (d.IsBytes raw ∨ d.PassesAsBytes raw) := by
  split at hraw
  case isTrue hk =>
    cases hraw
    subst hk
    exact ⟨List.length_replicate, .inr h⟩
  case isFalse => cases hraw

/-- A value is converted to bytes if it is a byte string or passes for one, of the size that is
asked for. Only numbers of bytes can be too large. -/
theorem ends_sizedBytes (d : Datum) (hsize : 0 < size) :
    EndsIn (fun e => e.IsMistake ∨ d.AsksTooMuch e)
      (fun found => ∀ raw ∈ found, raw.length = size ∧ (d.IsBytes raw ∨ d.PassesAsBytes raw))
      (d.sizedBytes size) := by
  have hothers (hint : ∀ n, d ≠ .int n) (hbool : ∀ b, d ≠ .bool b) :
      EndsIn (fun e => e.IsMistake ∨ d.AsksTooMuch e)
        (fun found => ∀ raw ∈ found, raw.length = size ∧ (d.IsBytes raw ∨ d.PassesAsBytes raw))
        (do
          let raw ← d.hexOrBytes
          return if raw.length = size then some raw else none) := by
    refine ((ends_hexOrBytes hint hbool).mono (fun _ => .inl) fun _ => id).bind ?_
    rintro given hgiven raw hraw
    split at hraw
    case isTrue hlength =>
      cases hraw
      refine ⟨hlength, hgiven.resolve_left ?_⟩
      rintro rfl
      exact hsize.ne hlength
    case isFalse => cases hraw
  cases d with
  | int n =>
    refine (ends_byteCount n).bind ?_
    rintro k rfl raw hraw
    exact length_of_zeros (.int k) hraw
  | bool b =>
    have hsized : (Datum.bool b).sizedBytes size =
        .ok (if (if b then 1 else 0) = size then some (Bytes.zeros size) else none) := by
      cases b <;> rfl
    rw [hsized]
    exact fun raw hraw => length_of_zeros (.bool b) hraw
  | _ => exact hothers (by rintro _ ⟨⟩) (by rintro _ ⟨⟩)

end Datum

end StorageSnapshot

-- SUMMARY: Checks of the values that users give in dumps and options.
import StorageSnapshot.Fault

/-!
# Checks of given values

Each check takes a value as it was given, and answers with what it means or with the reason why it
is refused.
-/

namespace StorageSnapshot.Check

/-! ## Numbers -/

def nonNegative (given : Datum) : Except InputError Nat :=
  match given.toInteger with
  | .ok (.ofNat n) => .ok n
  | _ => .error (.negativeInteger given)

def positive (given : Datum) : Except InputError Nat := do
  let n ← nonNegative given
  if n = 0 then throw (.notPositive given) else return n

def slot (given : Datum) : Except InputError Slot := do
  let n ← nonNegative given
  if n < Slot.count then return BitVec.ofNat 256 n else throw (.slotTooLarge given)

/-! ## Words -/

/-- The bytes of a storage word, which may leave out zeros in front. -/
def word (given : Datum) : Except InputError Bytes :=
  match given with
  | .text s =>
    match Bytes.ofHex s with
    | .error _ => .error (.wordNotHexadecimal s)
    | .ok b => if b.length ≤ wordSize then .ok b else .error (.wordTooLong s)
  | _ => .error (.wordNotText given)

theorem length_of_word {given : Datum} {b : Bytes} (h : word given = .ok b) :
    b.length ≤ wordSize := by
  cases given with
  | text s =>
    simp only [word] at h
    split at h
    · cases h
    · split at h
      · cases h; assumption
      · cases h
  | _ => simp [word] at h

/-! ## Options -/

def truth (given : Datum) : Except InputError Bool :=
  match given.truth? with
  | some b => .ok b
  | none => .error (.notTruth given)

/-- The texts of a list of texts. -/
def allTexts? : List Datum → Option (List String)
  | [] => some []
  | .text s :: items => (allTexts? items).map (s :: ·)
  | _ :: _ => none

/-- A list of texts, for which a single one may stand alone. -/
def texts (given : Datum) : Except InputError (List String) :=
  match given with
  | .text s => .ok [s]
  | .list items =>
    match allTexts? items with
    | some ss => .ok ss
    | none => .error (.notTexts given)
  | _ => .error (.notTexts given)

end StorageSnapshot.Check

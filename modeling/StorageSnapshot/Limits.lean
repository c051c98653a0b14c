-- SUMMARY: The limits of decoding: how long containers may be, and how deep values may nest.
import StorageSnapshot.Fault

/-!
# Limits

A length that is not believable most likely comes from a word that is no length. Containers longer
than a limit, and values nested deeper than another, are given up. A limit is any number: what it
admits are the counts up to it.
-/

namespace StorageSnapshot

/-! ## Bounds -/

/-- A bound on counts. -/
structure Bound where
  /-- The largest count that it admits. -/
  most : Nat
  /-- The number that it was given as. -/
  given : Datum

namespace Bound

def ofNat (n : Nat) : Bound := ⟨n, .int n⟩

/-- The largest count up to a number that is not negative. No count reaches what is not finite. -/
def countBelow : Datum → Nat
  | .int n => n.toNat
  | .bool b => if b then 1 else 0
  | .float x => if x.isFinite then x.truncate.toNat else Slot.count
  | _ => 0

def ofNumber (given : Datum) : Bound := ⟨countBelow given, given⟩

def exceededBy (b : Bound) (n : Int) : Bool := n > b.most

def text (b : Bound) : String := b.given.display

theorem exceededBy_iff (b : Bound) (n : Int) : b.exceededBy n = true ↔ (b.most : Int) < n := by
  simp [exceededBy]

/-- How a number compares with zero. What is no number in spite of its kind counts as greater. -/
def orderOfNumber : Datum → Except DataError Ordering
  | .int n => .ok (compare n 0)
  | .bool b => .ok (if b then .gt else .eq)
  | .float x =>
    if x.isNaN then .ok .gt
    else if x.isFinite && x.significand == 0 then .ok .eq
    else .ok (if x.isNegative then .lt else .gt)
  | d => .error (.notANumber d)

end Bound

/-! ## Limits -/

structure Limits where
  /-- The bound on the elements, or bytes, of a container. -/
  length : Bound := .ofNat 10000
  /-- The bound on the composite values around a value. -/
  depth : Bound := .ofNat 64

namespace Limits

/-- The most elements, or bytes, of a container. -/
def maxLength (l : Limits) : Nat := l.length.most

/-- The most composite values around a value. -/
def maxDepth (l : Limits) : Nat := l.depth.most

/-- The limits with these numbers. The length is checked first. -/
def make (length depth : Datum) : Except Fault Limits := do
  if (← Fault.lift (Bound.orderOfNumber length)) = .lt then
    throw (.ofInput (.negativeLength length))
  if (← Fault.lift (Bound.orderOfNumber depth)) = .gt then
    return ⟨.ofNumber length, .ofNumber depth⟩
  else throw (.ofInput (.noNesting depth))

/-- The numbers that settings give, over those in `length` and `depth`. -/
def readSettings : (length depth : Datum) → List (String × Datum) →
    Except DataError (Datum × Datum)
  | length, depth, [] => .ok (length, depth)
  | length, depth, (name, d) :: rest =>
    if name = "max_decode_length" then readSettings d depth rest
    else if name = "max_nesting_depth" then readSettings length d rest
    else .error (.noSuchSetting name)

/-- The limits with some of their numbers changed by name. -/
def override (l : Limits) (settings : List (String × Datum)) : Except Fault Limits := do
  let (length, depth) ← Fault.lift (readSettings l.length.given l.depth.given settings)
  make length depth

/-- The text of the limits. There is none if a number has more digits than can be written. -/
def text (l : Limits) : Except DataError String := do
  let length ← l.length.given.written
  let depth ← l.depth.given.written
  return "DecoderConfig(max_decode_length=" ++ length ++ ", max_nesting_depth=" ++ depth ++ ")"

end Limits

end StorageSnapshot

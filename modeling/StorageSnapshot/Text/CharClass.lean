-- SUMMARY: Classes of characters given by the code points at which membership flips.

/-!
# Character classes

A class of characters is written as the increasing list of the code points at which membership
flips: a character belongs to it when an odd number of flips is at or below its code point.
-/

namespace StorageSnapshot.Text

/-- Whether an odd number of the increasing `flips` is at most `n`. -/
def oddBelow : (flips : List Nat) → (n : Nat) → Bool
  | [], _ => false
  | f :: fs, n => if n < f then false else not (oddBelow fs n)

end StorageSnapshot.Text

-- SUMMARY: Byte strings: big-endian numbers, padding, and their hexadecimal text.

/-!
# Byte strings

A byte string is a list of bytes, most significant first wherever it stands for a number.
-/

namespace StorageSnapshot

abbrev Bytes := List UInt8

namespace Bytes

/-! ## Numbers -/

/-- The number that `b` spells in base 256, most significant byte first. -/
def toNat (b : Bytes) : Nat :=
  b.foldl (fun n x => 256 * n + x.toNat) 0

/-- The number of byte strings of this size. -/
def count (size : Nat) : Nat := Nat.pow 256 size

/-- The `size` low-order bytes of `n`, most significant first. -/
def ofNat : (size : Nat) → (n : Nat) → Bytes
  | 0, _ => []
  | size + 1, n => UInt8.ofNat (n / count size) :: ofNat size n

@[simp] theorem length_ofNat (size n : Nat) : (ofNat size n).length = size := by
  induction size with
  | zero => rfl
  | succ size ih => simp [ofNat, ih]

/-! ## Padding -/

def zeros (size : Nat) : Bytes := List.replicate size 0

/-- Zeros in front, up to `size` bytes. A longer string is left as it is. -/
def padLeft (size : Nat) (b : Bytes) : Bytes := zeros (size - b.length) ++ b

/-- Zeros behind, up to `size` bytes. A longer string is left as it is. -/
def padRight (size : Nat) (b : Bytes) : Bytes := b ++ zeros (size - b.length)

theorem length_padLeft {size : Nat} {b : Bytes} (h : b.length ≤ size) :
    (padLeft size b).length = size := by
  simp [padLeft, zeros]; omega

theorem length_padRight {size : Nat} {b : Bytes} (h : b.length ≤ size) :
    (padRight size b).length = size := by
  simp [padRight, zeros]; omega

/-! ## Hexadecimal text -/

/-- The lower-case digit of a number below 16. -/
def hexDigit (n : Nat) : Char :=
  if n < 10 then Char.ofNat (48 + n) else Char.ofNat (87 + n)

/-- Two lower-case digits per byte, without a marker in front. -/
def hexChars (b : Bytes) : List Char :=
  b.flatMap fun x => [hexDigit (x.toNat / 16), hexDigit (x.toNat % 16)]

def hex (b : Bytes) : String := String.ofList (hexChars b)

end Bytes

/-- What a hexadecimal digit of either case stands for. -/
def hexValue? (c : Char) : Option Nat :=
  if '0' ≤ c ∧ c ≤ '9' then some (c.toNat - 48)
  else if 'a' ≤ c ∧ c ≤ 'f' then some (c.toNat - 87)
  else if 'A' ≤ c ∧ c ≤ 'F' then some (c.toNat - 55)
  else none

end StorageSnapshot

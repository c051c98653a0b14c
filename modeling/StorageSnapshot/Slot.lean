-- SUMMARY: Slots: the addresses of storage words, and the slots that Keccak derives from them.
import StorageSnapshot.Keccak
import StorageSnapshot.Text.Numeral

/-!
# Slots

Storage has `2 ^ 256` slots of one word each, and the slot behind the last one is slot zero. Data of
unknown size does not lie behind its variable: it starts at a slot that is a digest.
-/

namespace StorageSnapshot

/-- The number of bytes of a storage word. -/
def wordSize : Nat := 32

/-- The number of bytes of an address. -/
def addressSize : Nat := 20

abbrev Slot := BitVec 256

namespace Slot

/-- The number of slots. -/
def count : Nat := Bytes.count wordSize

/-- The slot with the number `n`, if there is one. -/
def ofInt? (n : Int) : Option Slot :=
  if 0 ≤ n ∧ n < count then some (BitVec.ofInt 256 n) else none

/-- The word that spells the slot's number. -/
def toBytes (s : Slot) : Bytes := Bytes.ofNat wordSize s.toNat

/-- The slot whose number a digest spells. -/
def ofDigest (digest : Bytes) : Slot := BitVec.ofNat 256 digest.toNat

def text (s : Slot) : String := Text.hexNumber s.toNat

/-- Where the contents of a dynamic array or of a long string start whose header is at `s`. -/
def contents (s : Slot) : Slot := ofDigest (Keccak.digest s.toBytes)

/-- Where the mapping at `s` keeps the value of an encoded key. -/
def entry (s : Slot) (key : Bytes) : Slot := ofDigest (Keccak.digest (key ++ s.toBytes))

end Slot

end StorageSnapshot

-- SUMMARY: Decoding the values that share a word: numbers, truth values, addresses, enums.
import StorageSnapshot.Resolver
import StorageSnapshot.Store
import StorageSnapshot.Value.Basic

/-!
# Packed values

A packed value is read from the free bytes of a word, at their end, and leaves the cursor in front
of it. It has to fit into them.
-/

namespace StorageSnapshot

/-- A decoded value and the place behind it. -/
abbrev Decoded (α : Type) := α × Cursor

namespace Decode

/-! ## Bytes -/

/-- The `size` bytes at a cursor, which must be free. -/
def packedBytes (store : Store) (type : Ty) (size : Nat) (c : Cursor) :
    Except Fault (Decoded Bytes) := do
  if c.free < size then throw (.layout (.outOfWord type size c))
  let raw ← store.readBefore c size
  return (raw, ← Fault.place (c.advance size))

/-! ## Integers -/

/-- The integer that the bytes of an integer type stand for, in two's complement if it is signed. -/
def integerOfBytes (t : IntType) (raw : Bytes) : Int :=
  let n := raw.toNat
  if t.signed ∧ n.testBit (t.bits - 1) then -((t.count : Int) - (n % t.count : Nat)) else n

def integer (store : Store) (t : IntType) (c : Cursor) : Except Fault (Decoded Int) := do
  let (raw, next) ← packedBytes store (.int t) t.size c
  let n := integerOfBytes t raw
  if t.fits n then return (n, next) else throw (.layout (.outOfRange (.int t) n c))

/-! ## Values -/

def bool (store : Store) (c : Cursor) : Except Fault (Decoded Value) := do
  let (n, next) ← integer store .uint8 c
  return (.bool (n != 0), next)

def address (store : Store) (type : Ty) (c : Cursor) : Except Fault (Decoded Value) := do
  let (raw, next) ← packedBytes store type addressSize c
  match Address.ofBytes raw with
  | .ok a => return (.address a, next)
  | .error e => throw (.broken e)

def enum (store : Store) (members : List Datum) (c : Cursor) : Except Fault (Decoded Value) := do
  let (n, next) ← integer store (Ty.ordinals members) c
  return (.enum n (Ty.memberAt? members n.toNat), next)

def elementary (store : Store) (e : Elementary) (c : Cursor) : Except Fault (Decoded Value) :=
  match e.shape with
  | .int t => do
    let (n, next) ← integer store t c
    return (.int n, next)
  | .bool => bool store c
  | .fixedBytes size => do
    let (raw, next) ← packedBytes store (.elementary e) size c
    return (.fixedBytes raw, next)
  | .address => address store (.elementary e) c
  | .bare => throw (.unsupported (.asValue (.elementary e)))

end Decode

end StorageSnapshot

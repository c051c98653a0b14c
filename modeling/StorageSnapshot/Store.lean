-- SUMMARY: Snapshots of storage: words by slot or by digest of the slot, and their bytes.
import StorageSnapshot.Check

/-!
# Stores

A store is a snapshot of the words that were ever written; every other word is zero. The words are
kept either under their slots or under the digests of their slots. Zeros in front of a word may be
left out. Reads see whole words and run on from one slot to the next.
-/

namespace StorageSnapshot

structure Store where
  /-- The words by key. A key is a slot, or the number that the digest of a slot spells. -/
  words : List (Int × Bytes) := []
  hashed : Bool := false

namespace Store

/-! ## Words by key -/

/-- Gives the word under `key` a value. -/
def putWord (key : Int) (word : Bytes) : List (Int × Bytes) → List (Int × Bytes)
  | [] => [(key, word)]
  | (k, w) :: ws => if k = key then (k, word) :: ws else (k, w) :: putWord key word ws

/-- The store of these words, where a later word of a key takes the place of an earlier. -/
def ofWords (ws : List (Int × Bytes)) (hashed : Bool) : Store where
  words := ws.foldl (fun acc w => putWord w.1 w.2 acc) []
  hashed := hashed

def size (s : Store) : Nat := s.words.length

/-- The key of the word at `slot`. Only slots of storage have a digest. -/
def key (s : Store) (slot : Int) : Except DataError Int := do
  if s.hashed then
    let b ← Bytes.ofInt wordSize slot
    return (Keccak.digest b).toNat
  else return slot

/-- The word at `slot` as it was given, if it was ever written. -/
def get? (s : Store) (slot : Int) : Except DataError (Option Bytes) := do
  return s.words.lookup (← s.key slot)

/-! ## Reads -/

/-- The word at `slot`, with the zeros in front. -/
def word (s : Store) (slot : Int) : Except Fault Bytes := do
  match ← Fault.lift (s.get? slot) with
  | none => return Bytes.zeros wordSize
  | some b =>
    if b.length > wordSize then throw (.layout (.longWord slot b.length))
    else return Bytes.padLeft wordSize b

/-- The slot behind a slot. -/
def nextSlot (slot : Int) : Int := (slot + 1) % Slot.count

/-- `size` bytes from byte `offset` of the word at `slot` on; `fuel` bounds the number of words. -/
def readWithin (s : Store) : (fuel : Nat) → (slot : Int) → (offset size : Nat) → Except Fault Bytes
  | 0, _, _, _ => .ok []
  | fuel + 1, slot, offset, size =>
    if size = 0 then .ok []
    else do
      let w ← s.word slot
      let chunk := (w.drop offset).take size
      let rest ← s.readWithin fuel (nextSlot slot) 0 (size - chunk.length)
      return chunk ++ rest

/-- `size` bytes from byte `offset` of the word at `slot` on, running on into the next slots. -/
def read (s : Store) (slot : Int) (offset size : Int) : Except Fault Bytes :=
  if 0 ≤ offset ∧ offset < wordSize then s.readWithin (size.toNat + 1) slot offset.toNat size.toNat
  else .error (.ofBroken (.place (.noSuchOffset offset)))

/-- The bytes of the word of a cursor that end where its free bytes end. -/
def readBefore (s : Store) (c : Cursor) (size : Nat) : Except Fault Bytes :=
  s.read c.slot.toNat (c.free - size) size

/-! ## Dumps -/

/-- The slot and the word of an entry of a dump. -/
def entryOfDump (entry : String × Datum) : Except InputError (Int × Bytes) := do
  let slot ← Check.slot (.text entry.1)
  let word ← Check.word entry.2
  return (slot.toNat, word)

def ofDump (entries : List (String × Datum)) (hashed : Bool) : Except InputError Store := do
  return ofWords (← entries.mapM entryOfDump) hashed

end Store

end StorageSnapshot

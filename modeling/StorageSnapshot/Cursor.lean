-- SUMMARY: Cursors: how far storage has been consumed, in slots and in bytes of the current word.
import StorageSnapshot.Slot

/-!
# Cursors

Values are packed into a word from its low-order end. A cursor holds a slot and the number of bytes
of its word that are still free; the next value ends where the free bytes end. A word with no byte
consumed is fresh, and a cursor that has consumed a whole word stands at the next fresh one.
-/

namespace StorageSnapshot

/-- Why there is no such place in storage. -/
inductive CursorError where
  | noSuchSlot (slot : Int)
  | noSuchOffset (free : Int)
  | tooManyBytes (size : Int) (free : Nat)

def CursorError.message : CursorError → String
  | .noSuchSlot slot => "slot " ++ Text.decimal slot ++ " is outside of storage"
  | .noSuchOffset free => "offset " ++ Text.decimal free ++ " is outside of a word"
  | .tooManyBytes size free =>
    "can't consume " ++ Text.decimal size ++ " bytes out of " ++ Text.decimal free

structure Cursor where
  slot : Slot
  free : Nat := 32
  free_pos : 0 < free := by decide
  free_le : free ≤ 32 := by decide
  deriving DecidableEq

namespace Cursor

/-! ## Places -/

/-- The start of the word at `slot`. -/
def fresh (slot : Slot) : Cursor where
  slot := slot

def isFresh (c : Cursor) : Bool := c.free == wordSize

/-- The start of the next word. -/
def nextWord (c : Cursor) : Cursor := fresh (c.slot + 1)

/-- The place with `free` bytes left in the word at `slot`, if there is one. -/
def ofFree (slot : Slot) (free : Int) : Except CursorError Cursor :=
  if h : 0 < free ∧ free ≤ 32 then
    .ok ⟨slot, free.toNat, by omega, by omega⟩
  else .error (.noSuchOffset free)

/-- The place with `free` bytes left in the word at the slot of number `slot`, if there is one. -/
def make (slot free : Int) : Except CursorError Cursor :=
  match Slot.ofInt? slot with
  | some s => ofFree s free
  | none => .error (.noSuchSlot slot)

/-- The place of a value whose low-order byte has `offset` bytes below it in its word. -/
def ofOffset (slot offset : Int) : Except CursorError Cursor := make slot (wordSize - offset)

/-! ## Moves -/

/-- Consumes `size` bytes of the word. -/
def advance (c : Cursor) (size : Int) : Except CursorError Cursor :=
  if size > c.free then .error (.tooManyBytes size c.free)
  else if size = c.free then .ok c.nextWord
  else ofFree c.slot (c.free - size)

/-- The first fresh word at or behind the cursor. -/
def roundUp (c : Cursor) : Cursor := if c.isFresh then c else c.nextWord

def text (c : Cursor) : String := c.slot.text ++ ":" ++ Text.decimal c.free

/-! ## Small laws -/

@[simp] theorem isFresh_fresh (s : Slot) : (fresh s).isFresh = true := rfl

@[simp] theorem isFresh_nextWord (c : Cursor) : c.nextWord.isFresh = true := rfl

theorem isFresh_roundUp (c : Cursor) : c.roundUp.isFresh = true := by
  unfold roundUp
  split
  · assumption
  · rfl

theorem eq_fresh_of_isFresh {c : Cursor} (h : c.isFresh = true) : c = fresh c.slot := by
  cases c
  simp only [isFresh, wordSize, beq_iff_eq] at h
  subst h
  rfl

end Cursor

end StorageSnapshot

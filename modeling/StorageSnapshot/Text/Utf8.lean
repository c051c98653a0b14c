-- SUMMARY: Text from UTF-8 bytes, with replacement characters, and UTF-8 bytes of text.
import StorageSnapshot.Text.CodePoint

/-!
# UTF-8

Bytes are read one at a time. The start of a character says how many bytes follow and, for the first
of them, in which range. Where a byte is out of range the bytes of the unfinished character become
one replacement character, and the byte is read as the start of another one. In the other direction
only a lone code unit has no bytes.
-/

namespace StorageSnapshot.Text

/-! ## Reading -/

/-- A code point of which some bytes were read. -/
structure Unfinished where
  /-- The bits so far. -/
  bits : Nat
  /-- The number of bytes still to come, less one. -/
  more : Nat
  /-- The range of the next byte. -/
  low : Nat := 0x80
  high : Nat := 0xbf

/-- The state between two bytes. -/
abbrev Utf8State := Option Unfinished

/-- Reads a byte that stands where a character starts. -/
def startChar (b : Nat) : List Char × Utf8State :=
  if b < 0x80 then ([Char.ofNat b], none)
  else if b < 0xc2 then (['\ufffd'], none)
  else if b < 0xe0 then ([], some { bits := b - 0xc0, more := 0 })
  else if b = 0xe0 then ([], some { bits := 0, more := 1, low := 0xa0 })
  else if b = 0xed then ([], some { bits := 0xd, more := 1, high := 0x9f })
  else if b < 0xf0 then ([], some { bits := b - 0xe0, more := 1 })
  else if b = 0xf0 then ([], some { bits := 0, more := 2, low := 0x90 })
  else if b < 0xf4 then ([], some { bits := b - 0xf0, more := 2 })
  else if b = 0xf4 then ([], some { bits := 4, more := 2, high := 0x8f })
  else (['\ufffd'], none)

/-- Reads one byte: the spelling of what is complete with it, and the state behind it. -/
def nextByte (state : Utf8State) (b : Nat) : List Char × Utf8State :=
  match state with
  | none => startChar b
  | some u =>
    if u.low ≤ b ∧ b ≤ u.high then
      let bits := u.bits * 64 + (b - 0x80)
      match u.more with
      | 0 => (spell bits, none)
      | more + 1 => ([], some { bits, more })
    else
      let (cs, next) := startChar b
      ('\ufffd' :: cs, next)

/-- The spelling of the bytes behind a state. -/
def decodeUtf8From (state : Utf8State) : List UInt8 → List Char
  | [] => if state.isSome then ['\ufffd'] else []
  | b :: bs =>
    let (cs, next) := nextByte state b.toNat
    cs ++ decodeUtf8From next bs

def decodeUtf8 (bytes : List UInt8) : String := String.ofList (decodeUtf8From none bytes)

/-! ## Writing -/

/-- Lone code units in a row: the first one, and the places of the first and the last one. -/
structure LoneUnits where
  unit : Nat
  first : Nat
  last : Nat

/-- The first lone units among code points, the first of which has the place `place`. -/
def loneUnits? (place : Nat) : List Nat → Option LoneUnits
  | [] => none
  | n :: ns =>
    if isLoneUnit n then some ⟨n, place, place + (ns.takeWhile isLoneUnit).length⟩
    else loneUnits? (place + 1) ns

/-- The UTF-8 bytes of a text, if every code point of it has some. -/
def encodeUtf8 (s : String) : Except LoneUnits (List UInt8) :=
  match loneUnits? 0 (codePoints s.toList) with
  | some units => .error units
  | none => .ok (plain s).toUTF8.toList

end StorageSnapshot.Text

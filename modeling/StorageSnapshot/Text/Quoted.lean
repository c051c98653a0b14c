-- SUMMARY: Quoted text: strings and byte strings between quotes, with escapes.
import StorageSnapshot.Bytes
import StorageSnapshot.Text.CodePoint
import StorageSnapshot.Text.Printable

/-!
# Quoted text

Messages show a string between single quotes, or between double quotes if it holds a single quote
and no double quote. The quote itself, the backslash, and every character that is not printable is
escaped.
-/

namespace StorageSnapshot.Text

/-! ## Parts -/

/-- The quote to put around a text, given whether it holds a single and a double quote. -/
def quoteFor (single double : Bool) : Char :=
  if single && not double then '"' else '\''

/-- The `width` low-order hexadecimal digits of `n`. -/
def hexDigits (width n : Nat) : List Char :=
  (List.range width).reverse.map fun i => Bytes.hexDigit (n / Nat.pow 16 i % 16)

/-- The escapes of the characters that have a letter of their own. -/
def letterEscape? (n : Nat) : Option (List Char) :=
  if n = 9 then some ['\\', 't']
  else if n = 10 then some ['\\', 'n']
  else if n = 13 then some ['\\', 'r']
  else if n = 92 then some ['\\', '\\']
  else none

/-! ## Strings -/

/-- A code point inside text between the quotes `q`. -/
def quotedPoint (q : Char) (n : Nat) : List Char :=
  match letterEscape? n with
  | some cs => cs
  | none =>
    if n = q.toNat then ['\\', q]
    else if isPrintable n then [Char.ofNat n]
    else if n < 0x100 then '\\' :: 'x' :: hexDigits 2 n
    else if n < 0x10000 then '\\' :: 'u' :: hexDigits 4 n
    else '\\' :: 'U' :: hexDigits 8 n

def quoted (s : String) : String :=
  let cs := s.toList
  let q := quoteFor (cs.contains '\'') (cs.contains '"')
  String.ofList (q :: (codePoints cs).flatMap (quotedPoint q) ++ [q])

/-! ## Byte strings -/

/-- A byte inside a byte string between the quotes `q`: only ASCII stands for itself. -/
def quotedByte (q : Char) (x : UInt8) : List Char :=
  let n := x.toNat
  match letterEscape? n with
  | some cs => cs
  | none =>
    if n = q.toNat then ['\\', q]
    else if 32 ≤ n ∧ n < 127 then [Char.ofNat n]
    else '\\' :: 'x' :: hexDigits 2 n

def quotedBytes (b : Bytes) : String :=
  let q := quoteFor (b.contains 39) (b.contains 34)
  String.ofList ('b' :: q :: b.flatMap (quotedByte q) ++ [q])

end StorageSnapshot.Text

-- SUMMARY: Values as JSON text, on one line or indented.
import StorageSnapshot.Datum.Basic
import StorageSnapshot.Double.Text
import StorageSnapshot.Text.Numeral
import StorageSnapshot.Text.Quoted

/-!
# JSON text

The text is plain ASCII: every other character is written as the escapes of its UTF-16 units.
`line` writes a value on one line, `indented` gives every item and member a line of its own.
-/

namespace StorageSnapshot.Json

/-! ## Strings and numbers -/

def escapedUnit (n : Nat) : List Char := '\\' :: 'u' :: Text.hexDigits 4 n

def escapedPoint (n : Nat) : List Char :=
  if n = 34 then ['\\', '"']
  else if n = 92 then ['\\', '\\']
  else if n = 8 then ['\\', 'b']
  else if n = 9 then ['\\', 't']
  else if n = 10 then ['\\', 'n']
  else if n = 12 then ['\\', 'f']
  else if n = 13 then ['\\', 'r']
  else if 32 ≤ n ∧ n < 127 then [Char.ofNat n]
  else if n < 0x10000 then escapedUnit n
  else escapedUnit (0xd800 + (n - 0x10000) / 0x400) ++ escapedUnit (0xdc00 + (n - 0x10000) % 0x400)

def string (s : String) : String :=
  String.ofList ('"' :: (Text.codePoints s.toList).flatMap escapedPoint ++ ['"'])

def float (x : Double) : String :=
  if x.isNaN then "NaN"
  else if x.isInfinite then (if x.isNegative then "-Infinity" else "Infinity")
  else x.text

/-- The text of a value that has no parts. -/
def scalar : Datum → String
  | .bool b => if b then "true" else "false"
  | .int n => Text.decimal n
  | .float x => float x
  | .text s => string s
  | .bytes b => string (Bytes.hex b)
  | _ => "null"

/-! ## Values -/

mutual

/-- A value on one line. -/
def line : Datum → String
  | .list xs => "[" ++ ", ".intercalate (lineItems xs) ++ "]"
  | .object ms => "\x7b" ++ ", ".intercalate (lineMembers ms) ++ "\x7d"
  | d => scalar d

def lineItems : List Datum → List String
  | [] => []
  | x :: xs => line x :: lineItems xs

def lineMembers : List (String × Datum) → List String
  | [] => []
  | (k, v) :: ms => (string k ++ ": " ++ line v) :: lineMembers ms

end

/-- A line end and `depth` steps of four blanks. -/
def newline (depth : Nat) : String := String.ofList ('\n' :: List.replicate (4 * depth) ' ')

/-- Parts between brackets, each on a line of its own; the brackets alone if there are none. -/
def block (left right : String) (depth : Nat) (parts : List String) : String :=
  if parts.isEmpty then left ++ right
  else
    left ++ newline (depth + 1) ++ ("," ++ newline (depth + 1)).intercalate parts ++
      newline depth ++ right

mutual

/-- A value that starts at indentation `depth`. -/
def indentedAt (depth : Nat) : Datum → String
  | .list xs => block "[" "]" depth (indentedItems (depth + 1) xs)
  | .object ms => block "\x7b" "\x7d" depth (indentedMembers (depth + 1) ms)
  | d => scalar d

def indentedItems (depth : Nat) : List Datum → List String
  | [] => []
  | x :: xs => indentedAt depth x :: indentedItems depth xs

def indentedMembers (depth : Nat) : List (String × Datum) → List String
  | [] => []
  | (k, v) :: ms => (string k ++ ": " ++ indentedAt depth v) :: indentedMembers depth ms

end

def indented (d : Datum) : String := indentedAt 0 d

end StorageSnapshot.Json

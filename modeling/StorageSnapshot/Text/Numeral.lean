-- SUMMARY: Integers as text: decimal digits of every script, and hexadecimal numbers behind 0x.
import StorageSnapshot.Bytes
import StorageSnapshot.Text.Blank

/-!
# Numerals

Integers are read from decimal numerals, in the digits of any script, and from hexadecimal ones
behind the marker `0x`. They are written in ASCII digits.
-/

namespace StorageSnapshot.Text

/-! ## Digits -/

/-- The digit zero of every script that has decimal digits; each is followed by its nine others. -/
def zeroDigits : List Nat :=
  [0x30, 0x660, 0x6f0, 0x7c0, 0x966, 0x9e6, 0xa66, 0xae6, 0xb66, 0xbe6, 0xc66, 0xce6, 0xd66,
    0xde6, 0xe50, 0xed0, 0xf20, 0x1040, 0x1090, 0x17e0, 0x1810, 0x1946, 0x19d0, 0x1a80, 0x1a90,
    0x1b50, 0x1bb0, 0x1c40, 0x1c50, 0xa620, 0xa8d0, 0xa900, 0xa9d0, 0xa9f0, 0xaa50, 0xabf0,
    0xff10, 0x104a0, 0x10d30, 0x11066, 0x110f0, 0x11136, 0x111d0, 0x112f0, 0x11450, 0x114d0,
    0x11650, 0x116c0, 0x11730, 0x118e0, 0x11950, 0x11c50, 0x11d50, 0x11da0, 0x16a60, 0x16ac0,
    0x16b50, 0x1d7ce, 0x1d7d8, 0x1d7e2, 0x1d7ec, 0x1d7f6, 0x1e140, 0x1e2f0, 0x1e950, 0x1fbf0]

/-- What a decimal digit of any script stands for. -/
def decimalValue? (c : Char) : Option Nat :=
  if c.isDigit then some (c.toNat - 48)
  else (zeroDigits.find? fun z => z ≤ c.toNat && c.toNat < z + 10).map fun z => c.toNat - z

/-- The number that a non-empty list of digits spells in `base`, if all of them are digits. -/
def number? (base : Nat) (value? : Char → Option Nat) (cs : List Char) : Option Nat :=
  if cs.isEmpty then none
  else cs.foldl (fun n c => do return base * (← n) + (← value? c)) (some 0)

/-! ## Reading -/

/-- The digits of a hexadecimal number: what follows the marker, which must be there. -/
def hexDigits? : List Char → Option (List Char)
  | '0' :: 'x' :: cs | '0' :: 'X' :: cs => some cs
  | _ => none

/-- A hexadecimal number is the marker and at least one digit; a line feed may follow. -/
def isHexNumber (s : String) : Bool :=
  match hexDigits? s.toList with
  | none => false
  | some cs =>
    let digits := if cs.getLast? = some '\n' then cs.dropLast else cs
    not digits.isEmpty && digits.all fun c => (hexValue? c).isSome

/-- The number that `s`, without the blanks around it, writes in hexadecimal or in decimal. -/
def natural? (s : String) : Option Nat :=
  let cs := trim s.toList
  match hexDigits? cs with
  | some digits => number? 16 hexValue? digits
  | none => number? 10 decimalValue? cs

/-- The number of digits of the decimal numeral that `s` is. Hexadecimal digits do not count. -/
def decimalLength (s : String) : Nat :=
  let cs := trim s.toList
  match hexDigits? cs with
  | some _ => 0
  | none => cs.length

/-! ## Writing -/

def decimal (n : Int) : String :=
  match n with
  | .ofNat n => String.ofList (Nat.toDigits 10 n)
  | .negSucc n => String.ofList ('-' :: Nat.toDigits 10 (n + 1))

/-- The most digits that a decimal numeral of an integer may have. -/
def maxDigits : Nat := 4300

/-- Why a decimal numeral of so many digits is not read. -/
def tooManyDigits (digits : Nat) : String :=
  "Exceeds the limit (" ++ decimal maxDigits ++ " digits) for integer string conversion: " ++
    "value has " ++ decimal digits ++
    " digits; use sys.set_int_max_str_digits() to increase the limit"

/-- Whether an integer can be written: its decimal numeral has no more digits than it may. -/
def isWritable (n : Int) : Bool := (Nat.toDigits 10 n.natAbs).length ≤ maxDigits

/-- Why an integer of too many digits is not written. -/
def tooLongToWrite : String :=
  "Exceeds the limit (" ++ decimal maxDigits ++ " digits) for integer string conversion; " ++
    "use sys.set_int_max_str_digits() to increase the limit"

/-- The hexadecimal number of `n` in lower case behind `0x`, the sign in front of the marker. -/
def hexNumber (n : Int) : String :=
  match n with
  | .ofNat n => String.ofList ('0' :: 'x' :: Nat.toDigits 16 n)
  | .negSucc n => String.ofList ('-' :: '0' :: 'x' :: Nat.toDigits 16 (n + 1))

end StorageSnapshot.Text

-- SUMMARY: Turning untyped values into numbers, byte strings and tables, and why that can fail.
import StorageSnapshot.Datum.Display
import StorageSnapshot.Text.Utf8

/-!
# Conversions of untyped values

Each conversion says for every kind of value what it becomes, or why it becomes nothing. An error
keeps the value it is about; `DataError.nature` sorts errors into a few classes, and
`DataError.message` is what to say.
-/

namespace StorageSnapshot

/-! ## Errors -/

inductive DataError where
  | notAnInteger (d : Datum)
  | notANumber (d : Datum)
  | notBytes (d : Datum)
  | notAByte (d : Datum)
  | notText (d : Datum)
  | notJoinable (d : Datum)
  | notShowable (d : Datum)
  | notEncodable (units : Text.LoneUnits)
  | notIndexed (d : Datum)
  | notIterable (d : Datum)
  | notATableKey (d : Datum)
  | notATable (d : Datum)
  | notSettable (name : String)
  | noSuchSetting (name : String)
  | noSuchItem
  | wrongCount (given : Nat)
  | notANumeral (s : String)
  | notADecimal (shown : String)
  | tooManyDigits (digits : Nat)
  /-- An integer that is to be written has too many digits. -/
  | unwritable
  | nestedTooDeep
  | notHexadecimal (position : Nat)
  | byteOutOfRange
  | negativeCount
  | countTooLarge
  | notANumberFloat
  | infiniteFloat
  | negativeInteger
  | integerTooLarge
  | outOfMemory

/-- The classes of data errors. -/
inductive DataError.Nature where
  | wrongKind
  | wrongValue
  | tooLarge
  | noMembers
  | outOfRange
  | tooDeep
  | outOfMemory
  deriving DecidableEq

namespace DataError

def nature : DataError → Nature
  | .notAnInteger _ | .notANumber _ | .notBytes _ | .notAByte _ | .notText _ | .notJoinable _
  | .notShowable _ | .notIndexed _ | .notIterable _ | .notATableKey _ | .noSuchSetting _
  | .wrongCount _ => .wrongKind
  | .notEncodable _ | .notANumeral _ | .notADecimal _ | .tooManyDigits _ | .unwritable
  | .notHexadecimal _ | .byteOutOfRange | .negativeCount | .notANumberFloat => .wrongValue
  | .countTooLarge | .infiniteFloat | .negativeInteger | .integerTooLarge => .tooLarge
  | .notATable _ | .notSettable _ => .noMembers
  | .noSuchItem => .outOfRange
  | .nestedTooDeep => .tooDeep
  | .outOfMemory => .outOfMemory

/-- Which code points of a text have no bytes. -/
def unitsText (units : Text.LoneUnits) : String :=
  (if units.first = units.last then
    "character " ++ Text.quoted (String.ofList (Text.spell units.unit)) ++
      " in position " ++ Text.decimal units.first
  else
    "characters in position " ++ Text.decimal units.first ++ "-" ++ Text.decimal units.last)

def message : DataError → String
  | .notAnInteger d => d.quoted ++ " is not an integer"
  | .notANumber d =>
    "int() argument must be a string, a bytes-like object or a real number, not '" ++
      d.kindName ++ "'"
  | .notBytes d => "cannot convert '" ++ d.kindName ++ "' object to bytes"
  | .notAByte d => "'" ++ d.kindName ++ "' object cannot be interpreted as an integer"
  | .notText d => "expected a string, not '" ++ d.kindName ++ "'"
  | .notJoinable (.list _) => "can only concatenate list (not \"str\") to list"
  | .notJoinable (.bytes _) => "can't concat str to bytes"
  | .notJoinable d => "unsupported operand type(s) for +: '" ++ d.kindName ++ "' and 'str'"
  | .notShowable d => "__repr__ returned non-string (type " ++ d.kindName ++ ")"
  | .notEncodable units =>
    "'utf-8' codec can't encode " ++ unitsText units ++ ": surrogates not allowed"
  | .notIndexed (.text _) => "string indices must be integers, not 'str'"
  | .notIndexed (.list _) => "list indices must be integers or slices, not str"
  | .notIndexed (.bytes _) => "byte indices must be integers or slices, not str"
  | .notIndexed d => "'" ++ d.kindName ++ "' object is not subscriptable"
  | .notIterable d => "'" ++ d.kindName ++ "' object is not iterable"
  | .notATableKey d => "unhashable type: '" ++ d.kindName ++ "'"
  | .notATable d => "'" ++ d.kindName ++ "' object has no members"
  | .notSettable name => Text.quoted name ++ " cannot be set"
  | .noSuchSetting name => "there is no setting called " ++ Text.quoted name
  | .noSuchItem => "index out of range"
  | .wrongCount given => Text.decimal given ++ " values are too few or too many"
  | .notANumeral s => s ++ " is neither a decimal nor a hexadecimal number"
  | .notADecimal shown => "invalid literal for int() with base 10: " ++ shown
  | .tooManyDigits digits => Text.tooManyDigits digits
  | .unwritable => Text.tooLongToWrite
  | .nestedTooDeep => "maximum recursion depth exceeded"
  | .notHexadecimal position =>
    "non-hexadecimal number found in fromhex() arg at position " ++ Text.decimal position
  | .byteOutOfRange => "bytes must be in range(0, 256)"
  | .negativeCount => "negative count"
  | .countTooLarge => "cannot fit 'int' into an index-sized integer"
  | .notANumberFloat => "cannot convert float NaN to integer"
  | .infiniteFloat => "cannot convert float infinity to integer"
  | .negativeInteger => "can't convert negative int to unsigned"
  | .integerTooLarge => "int too big to convert"
  | .outOfMemory => "out of memory"

end DataError

/-! ## Byte strings -/

namespace Bytes

/-- The `size` bytes that spell `n`, if it has no more. -/
def ofInt (size : Nat) (n : Int) : Except DataError Bytes :=
  if n < 0 then .error .negativeInteger
  else if n ≥ count size then .error .integerTooLarge
  else .ok (ofNat size n.toNat)

/-- The bytes of pairs of digits, between which blanks may stand; `position` counts characters. -/
def ofHexPairs (position : Nat) : List Char → Except DataError Bytes
  | [] => .ok []
  | [c] =>
    if Text.isAsciiBlank c then .ok []
    else .error (.notHexadecimal (if (hexValue? c).isSome then position + 1 else position))
  | c :: d :: cs =>
    if Text.isAsciiBlank c then ofHexPairs (position + 1) (d :: cs)
    else
      match hexValue? c, hexValue? d with
      | some m, some n => do return UInt8.ofNat (16 * m + n) :: (← ofHexPairs (position + 2) cs)
      | some _, none => .error (.notHexadecimal (position + 1))
      | none, _ => .error (.notHexadecimal position)

/-- The hexadecimal digits of a text: without blanks around it and the marker in front of it. -/
def digitsOfText (s : String) : List Char :=
  let cs := Text.trim s.toList
  let digits := (Text.hexDigits? cs).getD cs
  if Text.pointCount digits % 2 = 1 then '0' :: digits else digits

/-- The bytes that a text writes in hexadecimal. An odd number of digits gets a zero in front. -/
def ofHex (s : String) : Except DataError Bytes :=
  let digits := digitsOfText s
  match digits.findIdx? fun c => c.toNat ≥ 128 with
  | some position => .error (.notHexadecimal position)
  | none => ofHexPairs 0 digits

end Bytes

namespace Datum

/-! ## Text -/

/-- What is said of a value needs its text, which it has if it can be written. -/
def checkText (d : Datum) : Except DataError Unit :=
  if d.isWritable then .ok () else .error .unwritable

/-- The text of a value, a string between quotes. -/
def written (d : Datum) : Except DataError String := do
  d.checkText
  return d.quoted

/-! ## Numbers -/

/-- The integer that a value is or, as a text, writes. A truth value is no integer here. -/
def toInteger : Datum → Except DataError Int
  | .int n => .ok n
  | .text s =>
    let digits := Text.decimalLength s
    match Text.natural? s with
    | some n => if digits > Text.maxDigits then .error (.tooManyDigits digits) else .ok n
    | none => .error (.notANumeral (Text.trimmed s))
  | d => do
    d.checkText
    throw (.notAnInteger d)

/-- The digits of a decimal numeral in which single underscores may stand between digits. -/
def underscored? : List Char → Option (List Char)
  | [] => none
  | [c] => if c.isDigit then some [c] else none
  | c :: '_' :: cs => if c.isDigit then (underscored? cs).map (c :: ·) else none
  | c :: d :: cs => if c.isDigit then (underscored? (d :: cs)).map (c :: ·) else none

/-- The integer that a byte string spells in ASCII, with an optional sign and blanks around it. -/
def integerOfBytes (b : Bytes) : Except DataError Int :=
  let cs := b.map fun x => Char.ofNat x.toNat
  let trimmed := ((cs.dropWhile Text.isAsciiBlank).reverse.dropWhile Text.isAsciiBlank).reverse
  let (negative, digits) := match trimmed with
    | '-' :: ds => (true, ds)
    | '+' :: ds => (false, ds)
    | ds => (false, ds)
  match (underscored? digits).map fun ds => (ds.length, Text.number? 10 Text.decimalValue? ds) with
  | some (digits, some n) =>
    if digits > Text.maxDigits then .error (.tooManyDigits digits)
    else .ok (if negative then -(n : Int) else n)
  | _ => .error (.notADecimal (String.ofList ((Text.quotedBytes b).toList.take 200)))

/-- The integer that a value stands for; a float loses the digits behind its point. -/
def truncated : Datum → Except DataError Int
  | .int n => .ok n
  | .bool b => .ok (if b then 1 else 0)
  | .float x =>
    if x.isNaN then .error .notANumberFloat
    else if x.isInfinite then .error .infiniteFloat
    else .ok x.truncate
  | .text s => (Datum.text s).toInteger
  | .bytes b => integerOfBytes b
  | d => .error (.notANumber d)

/-! ## Byte strings -/

/-- The byte that an item of a list stands for. -/
def toByte : Datum → Except DataError UInt8
  | .int n => if 0 ≤ n ∧ n < 256 then .ok (UInt8.ofNat n.toNat) else .error .byteOutOfRange
  | .bool b => .ok (if b then 1 else 0)
  | d => .error (.notAByte d)

/-- The largest count that fits into the word of a machine. -/
def maxCount : Int := 0x7fffffffffffffff

/-- The number of bytes that no memory holds. -/
def memoryEnd : Int := 0x10000000000

/-- As many bytes as an integer says, for which there must be room behind a header. -/
def byteCount (n : Int) : Except DataError Nat :=
  if n > maxCount - 33 ∨ n < -maxCount - 1 then .error .countTooLarge
  else if n < 0 then .error .negativeCount
  else if n ≥ memoryEnd then .error .outOfMemory
  else .ok n.toNat

/-- As many zeros as an integer says. -/
def zeroBytes (n : Int) : Except DataError Bytes := Bytes.zeros <$> byteCount n

/-- The bytes of a value other than a text: listed numbers, or as many zeros as an integer says. -/
def toBytes : Datum → Except DataError Bytes
  | .bytes b => .ok b
  | .int n => zeroBytes n
  | .bool b => zeroBytes (if b then 1 else 0)
  | .list items => items.mapM toByte
  | .object [] => .ok []
  | .object ((name, _) :: _) => .error (.notAByte (.text name))
  | d => .error (.notBytes d)

/-- The bytes of a value, where a text writes them in hexadecimal. -/
def hexOrBytes : Datum → Except DataError Bytes
  | .text s => Bytes.ofHex s
  | d => d.toBytes

/-- The bytes of a value as in `hexOrBytes`, if there are `size` of them. -/
def sizedBytes (size : Nat) (d : Datum) : Except DataError (Option Bytes) :=
  let zeros (n : Int) : Except DataError (Option Bytes) := do
    return if (← byteCount n) = size then some (Bytes.zeros size) else none
  match d with
  | .int n => zeros n
  | .bool b => zeros (if b then 1 else 0)
  | d => do
    let raw ← d.hexOrBytes
    return if raw.length = size then some raw else none

/-- The bytes of a value, where a text stands for its UTF-8 form. -/
def textOrBytes : Datum → Except DataError Bytes
  | .text s => (Text.encodeUtf8 s).mapError .notEncodable
  | d => d.toBytes

/-- The number of bytes that a value asks for. -/
def toSize : Datum → Except DataError Nat
  | .int n => byteCount n
  | .bool b => byteCount (if b then 1 else 0)
  | d => .error (.notAByte d)

/-- The bytes that spell the integer that a value is, as many as `size` asks for. -/
def spelled (d size : Datum) : Except DataError Bytes :=
  match d with
  | .int n => do Bytes.ofInt (← size.toSize) n
  | .bool b => do Bytes.ofInt (← size.toSize) (if b then 1 else 0)
  | d => .error (.notATable d)

/-- The bytes that a value writes in hexadecimal. Only a text can. -/
def hexadecimal : Datum → Except DataError Bytes
  | .text s => Bytes.ofHex s
  | .bytes b => .error (.notText (.bytes b))
  | d => .error (.notATable d)

/-! ## Tables -/

/-- The members of an object. -/
def table : Datum → Except DataError (List (String × Datum))
  | .object ms => .ok ms
  | d => .error (.notATable d)

/-- The items that a value runs through: those of a list, the names of an object, the code points
of a text, the bytes of a byte string. -/
def items : Datum → Except DataError (List Datum)
  | .list xs => .ok xs
  | .object ms => .ok (ms.map fun m => .text m.1)
  | .text s => .ok ((Text.codePoints s.toList).map fun n => .text (String.ofList (Text.spell n)))
  | .bytes b => .ok (b.map fun x => .int x.toNat)
  | d => .error (.notIterable d)

def asText : Datum → Except DataError String
  | .text s => .ok s
  | d => .error (.notText d)

/-- Whether a truth value, or a text that says so in any letter case, is true. -/
def truth? : Datum → Option Bool
  | .bool b => some b
  | .text s =>
    let lower := s.toList.map Char.toLower
    if lower = "true".toList then some true
    else if lower = "false".toList then some false
    else none
  | _ => none

end Datum

end StorageSnapshot

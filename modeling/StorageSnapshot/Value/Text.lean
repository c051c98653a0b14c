-- SUMMARY: Decoded values as text and as untyped values; addresses with their checksum.
import StorageSnapshot.Json.Printer
import StorageSnapshot.Value.Basic

/-!
# Values as text

`Value.text` is for people. `Value.plain` keeps numbers, truth values and bytes as they are, and
`Value.json` has only what JSON can hold.
-/

namespace StorageSnapshot

namespace Address

/-- A digit of the address in upper case where the digit of the digest is at least eight. -/
def checksumDigit (digit digestDigit : Char) : Char :=
  if 8 ≤ (hexValue? digestDigit).getD 0 then digit.toUpper else digit

/-- The hexadecimal text of an address, with a checksum in the case of its letters. -/
def text (a : Address) : String :=
  let digits := Bytes.hexChars a.bytes
  let digest := Keccak.digest (digits.map fun c => c.toNat.toUInt8)
  String.ofList ('0' :: 'x' :: List.zipWith checksumDigit digits (Bytes.hexChars digest))

end Address

namespace Value

def bytesText (b : Bytes) : String := "0x" ++ b.hex

/-! ## Text -/

mutual

def text : Value → String
  | .int n => Text.decimal n
  | .bool b => if b then "true" else "false"
  | .fixedBytes b | .bytes b => bytesText b
  | .address a => a.text
  | .enum ordinal none => Text.decimal ordinal ++ " (out of range)"
  | .enum ordinal (some member) => member.display ++ " (" ++ Text.decimal ordinal ++ ")"
  | .string s => Text.quoted s
  | .array elements => "[" ++ ", ".intercalate (elementTexts elements) ++ "]"
  | .struct fields => "\x7b" ++ ", ".intercalate (fieldTexts fields) ++ "\x7d"

def elementTexts : List Value → List String
  | [] => []
  | v :: vs => text v :: elementTexts vs

def fieldTexts : List (Datum × Value) → List String
  | [] => []
  | (name, v) :: fs => (name.display ++ ": " ++ text v) :: fieldTexts fs

end

mutual

/-- How many arrays and structs are inside of each other. -/
def height : Value → Nat
  | .array elements => heightOfElements elements + 1
  | .struct fields => heightOfFields fields + 1
  | _ => 0

def heightOfElements : List Value → Nat
  | [] => 0
  | v :: vs => max (height v) (heightOfElements vs)

def heightOfFields : List (Datum × Value) → Nat
  | [] => 0
  | (_, v) :: fs => max (height v) (heightOfFields fs)

end

mutual

/-- Whether every integer in a value can be written, those in names of fields and members too. -/
def isWritable : Value → Bool
  | .int n | .enum n none => Text.isWritable n
  | .enum n (some member) => member.isWritable && Text.isWritable n
  | .array elements => elementsAreWritable elements
  | .struct fields => fieldsAreWritable fields
  | _ => true

def elementsAreWritable : List Value → Bool
  | [] => true
  | v :: vs => isWritable v && elementsAreWritable vs

def fieldsAreWritable : List (Datum × Value) → Bool
  | [] => true
  | (name, v) :: fs => name.isWritable && isWritable v && fieldsAreWritable fs

end

/-- What is shown of a value takes the texts of all integers in it. -/
def checkText (v : Value) : Except DataError Unit :=
  if v.isWritable then .ok () else .error .unwritable

/-- The greatest height of a value that can be shown. -/
def mostShown : Nat := 330

/-- The text of a value that is not too high to be shown. -/
def shown (v : Value) : Except DataError String :=
  if v.height ≤ mostShown then do
    v.checkText
    return v.text
  else .error .nestedTooDeep

/-! ## Untyped values -/

/-- Gives the field of this name a value. A new one goes to the end. -/
def putField (name value : Datum) : List (Datum × Datum) → List (Datum × Datum)
  | [] => [(name, value)]
  | (k, v) :: fs => if k.same name then (k, value) :: fs else (k, v) :: putField name value fs

/-- The name of a field as the name of a member of an object. -/
def memberName : Datum → String
  | .bool b => if b then "true" else "false"
  | .null => "null"
  | .float x => Json.float x
  | d => d.display

/-- The object of these fields, where a later field of a name takes the place of an earlier. -/
def ofFields (fields : List (Datum × Datum)) : Datum :=
  .object ((fields.foldl (fun acc f => putField f.1 f.2 acc) []).map fun f =>
    (memberName f.1, f.2))

mutual

/-- The value without its type: of the fields of one name the last one counts. -/
def plain : Value → Datum
  | .int n => .int n
  | .bool b => .bool b
  | .fixedBytes b | .bytes b => .bytes b
  | .address a => .text a.text
  | .enum ordinal _ => .int ordinal
  | .string s => .text s
  | .array elements => .list (plainElements elements)
  | .struct fields => ofFields (plainFields fields)

def plainElements : List Value → List Datum
  | [] => []
  | v :: vs => plain v :: plainElements vs

def plainFields : List (Datum × Value) → List (Datum × Datum)
  | [] => []
  | (name, v) :: fs => (name, plain v) :: plainFields fs

end

mutual

/-- The value for a JSON report: of the fields of one name the last one counts. -/
def json : Value → Datum
  | .int n => .int n
  | .bool b => .bool b
  | .fixedBytes b | .bytes b => .text (bytesText b)
  | .address a => .text a.text
  | .enum ordinal none => .int ordinal
  | .enum _ (some member) => member
  | .string s => .text s
  | .array elements => .list (jsonElements elements)
  | .struct fields => ofFields (jsonFields fields)

def jsonElements : List Value → List Datum
  | [] => []
  | v :: vs => json v :: jsonElements vs

def jsonFields : List (Datum × Value) → List (Datum × Datum)
  | [] => []
  | (name, v) :: fs => (name, json v) :: jsonFields fs

end

/-! ## Names -/

/-- Whether a value can be the name of a member of an object. -/
def isMemberName : Datum → Bool
  | .list _ | .object _ | .bytes _ => false
  | _ => true

mutual

/-- The first name of a field, inner ones first, that can't be the name of a member of an object. -/
def badName? : Value → Option Datum
  | .array elements => badNameIn? elements
  | .struct fields => badNameOf? fields
  | _ => none

def badNameIn? : List Value → Option Datum
  | [] => none
  | v :: vs => badName? v <|> badNameIn? vs

def badNameOf? : List (Datum × Value) → Option Datum
  | [] => none
  | (name, v) :: fs =>
    badName? v <|> (if isMemberName name then none else some name) <|> badNameOf? fs

end

/-- The value for a JSON report, if every field has a name that can stand in it. -/
def describe (v : Value) : Except DataError Datum :=
  match badName? v with
  | none => do
    v.checkText
    return v.json
  | some name => .error (.notATableKey name)

end Value

end StorageSnapshot

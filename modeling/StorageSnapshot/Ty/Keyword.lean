-- SUMMARY: Types from keywords, and what is wrong with words that are none.
import StorageSnapshot.Fault

/-!
# Types from keywords

Every elementary type has a keyword. A word that is no keyword names no type, and neither does a
value that is no word; a keyword of another kind than the one asked for breaks a rule of the caller.
-/

namespace StorageSnapshot.Ty

/-- The word that a value is. Of other values, those that no table can hold are refused as such. -/
def wordOf (name : Datum) : Except Fault String :=
  match name with
  | .text s => .ok s
  | d =>
    if d.isKey then .error (.ofUnresolved (.badKeyword d)) else .error (.data (.notATableKey d))

/-- The word that a value is which is asked for how it begins. Only texts can be. -/
def beginningOf (name : Datum) : Except Fault String :=
  match name with
  | .text s => .ok s
  | .list _ | .object _ => .error (.data (.notATableKey name))
  | .bytes _ => .error (.data (.notText name))
  | d => .error (.data (.notATable d))

def ofWord (word : String) (typeString : Datum) : Except Fault Elementary :=
  match Elementary.ofName? word typeString with
  | some e => .ok e
  | none => .error (.unresolved (.badKeyword word))

/-- The type of a keyword. The compiler's name for it is the keyword where none is given. -/
def ofKeyword (name typeString : Datum) : Except Fault Ty := do
  let word ← beginningOf name
  return .elementary (← ofWord word (if typeString.isTruthy then typeString else name))

/-- The type of the keyword of an integer type. -/
def ofIntKeyword (name typeString : Datum) : Except Fault Ty := do
  let e ← ofWord (← wordOf name) typeString
  match e.shape with
  | .int _ => return .elementary e
  | _ => throw (.broken (.notAnIntegerType e.name))

/-- A keyword read as that of byte strings of fixed size. -/
def ofFixedKeyword (name typeString : Datum) : Except Fault Ty := do
  let word ← wordOf name
  let e ← ofWord word typeString
  match Elementary.fixedBytes? word typeString with
  | some fixed => return .elementary fixed
  | none => throw (.data (.notANumeral e.name))

/-- The type of a keyword of which nothing but its name is known. -/
def ofBareKeyword (name : Datum) : Except Fault Ty := do
  let e ← ofWord (← wordOf name) name
  return .elementary { e with shape := .bare }

/-- The integers of this many bits. -/
def ofBits (bits : Datum) (signed : Bool) : Except Fault Ty := do
  Fault.lift bits.checkText
  let name := (if signed then "int" else "uint") ++ bits.display
  ofIntKeyword name name

end StorageSnapshot.Ty

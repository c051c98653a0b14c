-- SUMMARY: Declared types, with the parts of structs and aliases that are only known as AST nodes.
import StorageSnapshot.Datum.Convert
import StorageSnapshot.Ty.Elementary

/-!
# Declared types

A type is what a state variable is declared with. The members of a struct, and the type behind an
alias, are either attached as types or kept as AST nodes that are resolved when they are needed: a
struct may refer to itself, so its type as a whole need not be finite. The names of declarations are
kept as the compiler gave them, and need not be texts.
-/

namespace StorageSnapshot

/-! ## Types -/

/-- Where a declaration stands: the contract around it, if there is one, and its AST id. -/
structure Origin where
  contract : Option Datum
  reference : Datum

structure Declaration extends Origin where
  name : Datum
  canonicalName : Datum

mutual

inductive Ty where
  | elementary (e : Elementary)
  | bytes
  | string
  | mapping (typeString : Datum) (origin : Origin) (key value : Ty)
  /-- An array without a length is dynamic. -/
  | array (typeString : Datum) (origin : Origin) (element : Ty) (length : Option Int)
  | enum (d : Declaration) (typeString : Datum) (members : List Datum)
  | struct (d : Declaration) (members : List Member)
  | aliasOf (d : Declaration) (underlying : Ty)
  /-- An alias whose underlying type is only known as an AST node. -/
  | aliasNode (d : Declaration) (node : Datum)
  | contract (name : Datum) (reference : Datum)

/-- A member of a struct. -/
inductive Member where
  | attached (name : Datum) (type : Ty)
  /-- A member whose type is only known as an AST node. -/
  | node (name : Datum) (typeName : Datum)

end

def Member.name : Member → Datum
  | .attached name _ | .node name _ => name

namespace Ty

def int (t : IntType) : Ty := .elementary ⟨t.name, t.name, .int t⟩

/-- Whether the declared slot holds a header or the start of the data, at a fresh word. -/
def isPointer : Ty → Bool
  | .bytes | .string | .mapping .. | .array .. | .struct .. => true
  | .elementary _ | .enum .. | .aliasOf .. | .aliasNode .. | .contract .. => false

/-! ## Names -/

/-- The name of a declaration behind the name of its contract. -/
def qualifiedName (d : Declaration) : Datum :=
  match d.contract with
  | none => d.name
  | some outer => .text (outer.display ++ "." ++ d.name.display)

/-- The brackets behind the type of an array's elements. -/
def brackets : Option Int → String
  | none => "[]"
  | some length => "[" ++ Text.decimal length ++ "]"

/-- What the type is called where it is used: the name of a declaration, or the text of a type. -/
def called : Ty → Datum
  | .elementary e => .text e.name
  | .bytes => .text "bytes"
  | .string => .text "string"
  | .mapping _ _ key value =>
    .text ("mapping(" ++ key.called.display ++ " => " ++ value.called.display ++ ")")
  | .array _ _ element length => .text (element.called.display ++ brackets length)
  | .struct d _ => .text d.canonicalName.display
  | .enum d _ _ | .aliasOf d _ | .aliasNode d _ => qualifiedName d
  | .contract name _ => name

/-- The type as it is written in source text. -/
def source (t : Ty) : String := t.called.display

def checkBrackets : Option Int → Except DataError Unit
  | none => .ok ()
  | some length => (Datum.int length).checkText

/-- A name behind that of a contract is put together with it, which takes the texts of both. -/
def checkQualifiedName (d : Declaration) : Except DataError Unit :=
  match d.contract with
  | none => .ok ()
  | some outer => do
    outer.checkText
    d.name.checkText

/-- What a type is called is put together from the texts of its parts. Brackets stand behind texts
only: what the elements of an array are called must be one. -/
def checkCalled : Ty → Except DataError Unit
  | .mapping _ _ key value => do
    key.checkCalled
    key.called.checkText
    value.checkCalled
    value.called.checkText
  | .array _ _ element length => do
    element.checkCalled
    checkBrackets length
    match element.called with
    | .text _ => .ok ()
    | d => .error (.notJoinable d)
  | .struct d _ => d.canonicalName.checkText
  | .enum d _ _ | .aliasOf d _ | .aliasNode d _ => checkQualifiedName d
  | .elementary _ | .bytes | .string | .contract .. => .ok ()

/-- What is said of a type needs the text of what it is called. -/
def checkName (t : Ty) : Except DataError Unit := do
  t.checkCalled
  t.called.checkText

/-- The type as it is written in source text, if all of it can be written. -/
def writtenSource (t : Ty) : Except DataError String := do
  t.checkName
  return t.source

/-- The text that stands for the type on its own. -/
def shownSource (t : Ty) : Except DataError String := do
  t.checkCalled
  match t.called with
  | .text s => return s
  | d => throw (.notShowable d)

def name : Ty → Datum
  | .elementary e => .text e.name
  | .bytes => .text "bytes"
  | .string => .text "string"
  | .mapping _ _ key value =>
    .text ("mapping(" ++ key.name.display ++ " => " ++ value.name.display ++ ")")
  | .array typeString .. => typeString
  | .enum d .. | .struct d _ | .aliasOf d _ | .aliasNode d _ => d.name
  | .contract name _ => name

/-- The compiler's own name of the type. -/
def typeString : Ty → Datum
  | .elementary e => e.typeString
  | .bytes => .text "bytes"
  | .string => .text "string"
  | .mapping typeString .. | .array typeString .. | .enum _ typeString _ => typeString
  | .struct d _ => .text ("struct " ++ d.canonicalName.display)
  | .aliasOf d _ | .aliasNode d _ => d.canonicalName
  | .contract name _ => .text ("contract " ++ name.display)

/-- Where the type was declared, for the types that keep it. -/
def origin? : Ty → Option Origin
  | .mapping _ origin .. | .array _ origin .. => some origin
  | .enum d .. | .struct d _ | .aliasOf d _ | .aliasNode d _ => some d.toOrigin
  | .contract _ reference => some ⟨none, reference⟩
  | .elementary _ | .bytes | .string => none

/-! ## Parts -/

/-- The key types of a mapping and of the mappings that are its values, outermost first. -/
def keyTypes : Ty → List Ty
  | .mapping _ _ key value => key :: value.keyTypes
  | _ => []

/-- What the innermost of nested mappings holds. -/
def valueType : Ty → Ty
  | .mapping _ _ _ value => value.valueType
  | t => t

/-- The member that an ordinal stands for, if it stands for one that has a name. -/
def memberAt? (members : List Datum) (ordinal : Nat) : Option Datum :=
  match members[ordinal]? with
  | some .null | none => none
  | some name => some name

/-- The number of bytes that hold every number below `count`, at least one. -/
def bytesBelow (count : Nat) : Nat := max 1 (Nat.log2 (count - 1) / 8 + 1)

/-- The integers that hold the ordinals of an enum. -/
def ordinals (members : List Datum) : IntType where
  signed := false
  size := min 32 (bytesBelow members.length)
  size_pos := by simp only [bytesBelow]; omega
  size_le := by omega

end Ty

end StorageSnapshot

-- SUMMARY: Type expressions: the types that they stand for, and the AST nodes that write them.
import StorageSnapshot.Proofs.Marks
import StorageSnapshot.Proofs.Resolution
import StorageSnapshot.Proofs.Spelling

/-!
# Type expressions

A type expression is a type as it stands in source text: a keyword, a mapping, an array, or the name
of a definition, inside of each other to any depth. The compiler writes it as a node. Only a few
members of a node say which expression it writes; the others, and the order of all of them, do not
matter. What a node notes besides, as where it stands, is kept with the expression.
-/

namespace StorageSnapshot

open Ast (Members)

/-! ## Keywords -/

/-- The keywords of elementary types. -/
inductive Keyword where
  /-- An integer type with its number of bits. -/
  | sized (t : IntType)
  | uint
  | int
  | bool
  | address
  /-- A byte string with its number of bytes. -/
  | fixedBytes (size : Nat) (size_pos : 0 < size) (size_le : size ≤ 32)
  | byte

namespace Keyword

def text : Keyword → String
  | .sized t => (if t.signed then "int" else "uint") ++ Text.decimal (8 * t.size : Nat)
  | .uint => "uint"
  | .int => "int"
  | .bool => "bool"
  | .address => "address"
  | .fixedBytes size .. => "bytes" ++ Text.decimal size
  | .byte => "byte"

/-- What the keyword names. Three keywords stand for others. -/
def shape : Keyword → Shape
  | .sized t => .int t
  | .uint => .int .uint256
  | .int => .int { IntType.uint256 with signed := true }
  | .bool => .bool
  | .address => .address
  | .fixedBytes size .. => .fixedBytes size
  | .byte => .fixedBytes 1

end Keyword

/-! ## Definitions -/

/-- The compiler's own name of a type, or another one where that is missing or empty. -/
def typeStringFrom (given : Option String) (other : String) : Datum :=
  .text ((given.filter (· ≠ "")).getD other)

/-- What a definition is called, and where it stands. -/
structure Heading where
  name : String
  canonicalName : String
  /-- The contract around the definition, if there is one. -/
  contract : Option String
  reference : Int

/-- The definition of a type. What it is made of are nodes, which are not resolved with it. -/
inductive Definition where
  | enum (heading : Heading) (typeString : Option String) (members : List String)
  | struct (heading : Heading) (members : List (String × Datum))
  | valueType (heading : Heading) (underlying : Datum)
  | contract (name : String) (reference : Int)

namespace Heading

def declaration (h : Heading) : Declaration :=
  ⟨⟨h.contract.map .text, .int h.reference⟩, .text h.name, .text h.canonicalName⟩

/-- The name of the definition behind the name of its contract. -/
def qualifiedName (h : Heading) : String :=
  match h.contract with
  | none => h.name
  | some outer => outer ++ "." ++ h.name

end Heading

namespace Definition

def type : Definition → Ty
  | .enum h typeString members =>
    .enum h.declaration (typeStringFrom typeString ("enum " ++ h.canonicalName))
      (members.map .text)
  | .struct h members => .struct h.declaration (members.map fun m => .node (.text m.1) m.2)
  | .valueType h underlying => .aliasNode h.declaration underlying
  | .contract name reference => .contract (.text name) (.int reference)

/-- How the definition is referred to in source text. -/
def source : Definition → String
  | .enum h .. | .valueType h _ => h.qualifiedName
  | .struct h _ => h.canonicalName
  | .contract name _ => name

end Definition

/-! ## Expressions -/

/-- What a node notes besides the expression: the compiler's own name of the type, the contract
around the node, and an id. Each of them may be missing. -/
structure Notes where
  typeString : Option String
  contract : Option String
  reference : Option Int

/-- Where the node of a mapping or an array stands. -/
def Notes.origin (notes : Notes) : Origin :=
  ⟨notes.contract.map .text, .int (notes.reference.getD 0)⟩

inductive TypeExpr where
  | elementary (typeString : Option String) (keyword : Keyword)
  | bytes
  | string
  | mapping (notes : Notes) (key value : TypeExpr)
  /-- An array without a length is dynamic. -/
  | array (notes : Notes) (element : TypeExpr) (length : Option Nat)
  | named (definition : Definition)

namespace TypeExpr

/-- The expression in source text, with keywords in full and lengths in decimal. -/
def source : TypeExpr → String
  | .elementary _ keyword => keyword.shape.name
  | .bytes => "bytes"
  | .string => "string"
  | .mapping _ key value => "mapping(" ++ key.source ++ " => " ++ value.source ++ ")"
  | .array _ element none => element.source ++ "[]"
  | .array _ element (some n) => element.source ++ "[" ++ Text.decimal n ++ "]"
  | .named definition => definition.source

/-- The type that the expression stands for. -/
def type : TypeExpr → Ty
  | .elementary typeString keyword =>
    .elementary ⟨keyword.shape.name, typeStringFrom typeString keyword.text, keyword.shape⟩
  | .bytes => .bytes
  | .string => .string
  | .mapping notes key value =>
    .mapping (typeStringFrom notes.typeString (mapping notes key value).source) notes.origin
      key.type value.type
  | .array notes element length =>
    .array (typeStringFrom notes.typeString (array notes element length).source) notes.origin
      element.type (length.map Int.ofNat)
  | .named definition => definition.type

/-- How many mappings and arrays are inside of each other in the expression. -/
def depth : TypeExpr → Nat
  | .mapping _ key value => max key.depth value.depth + 1
  | .array _ element _ => element.depth + 1
  | .elementary .. | .bytes | .string | .named _ => 0

end TypeExpr

/-! ## Nodes -/

namespace Ast

/-- Whether a text stands in a member. If there is none, the member is missing or null. -/
def HoldsText (ms : Members) (name : String) (s : Option String) : Prop :=
  (Datum.find? name ms).getD .null = s.elim .null .text

/-- Whether the compiler's own name of a type stands on a node. -/
def HoldsTypeString (ms : Members) (typeString : Option String) : Prop :=
  (Datum.find? "typeDescriptions" ms = none ∧ typeString = none) ∨
    ∃ descriptions, Datum.find? "typeDescriptions" ms = some (.object descriptions) ∧
      HoldsText descriptions "typeString" typeString

structure HoldsNotes (ms : Members) (notes : Notes) : Prop where
  typeString : HoldsTypeString ms notes.typeString
  contract : HoldsText ms contractMark notes.contract
  reference : Datum.find? "id" ms = notes.reference.map .int

structure HoldsHeading (ms : Members) (h : Heading) : Prop where
  name : Datum.find? "name" ms = some (.text h.name)
  canonicalName : Datum.find? "canonicalName" ms = some (.text h.canonicalName)
  contract : HoldsText ms contractMark h.contract
  reference : Datum.find? "id" ms = some (.int h.reference)

/-- Whether the node of a declared value, as a member of an enum, has a name. -/
def IsNamed (node : Datum) (name : String) : Prop :=
  ∃ ms, node = .object ms ∧ Datum.find? "name" ms = some (.text name)

/-- Whether the node of a struct's member has a name and a type. -/
def IsTyped (node : Datum) (member : String × Datum) : Prop :=
  ∃ ms, node = .object ms ∧ Datum.find? "name" ms = some (.text member.1) ∧
    Datum.find? "typeName" ms = some member.2 ∧ IsObject member.2

/-- Whether a node makes a definition. -/
inductive Defines (ms : Members) : Definition → Prop
  | enum {h : Heading} {typeString : Option String} {items : List Datum} {members : List String}
    (hkind : Datum.find? "nodeType" ms = some (.text "EnumDefinition"))
    (hheading : HoldsHeading ms h) (htypeString : HoldsTypeString ms typeString)
    (hitems : Datum.find? "members" ms = some (.list items))
    (hmembers : List.Forall₂ IsNamed items members) : Defines ms (.enum h typeString members)
  | struct {h : Heading} {items : List Datum} {members : List (String × Datum)}
    (hkind : Datum.find? "nodeType" ms = some (.text "StructDefinition"))
    (hheading : HoldsHeading ms h) (hitems : Datum.find? "members" ms = some (.list items))
    (hmembers : List.Forall₂ IsTyped items members) : Defines ms (.struct h members)
  | valueType {h : Heading} {underlying : Datum}
    (hkind : Datum.find? "nodeType" ms = some (.text "UserDefinedValueTypeDefinition"))
    (hheading : HoldsHeading ms h)
    (hunderlying : Datum.find? "underlyingType" ms = some underlying)
    (hobject : IsObject underlying) : Defines ms (.valueType h underlying)
  | contract {name : String} {reference : Int}
    (hkind : Datum.find? "nodeType" ms = some (.text "ContractDefinition"))
    (hname : Datum.find? "name" ms = some (.text name))
    (hreference : Datum.find? "id" ms = some (.int reference)) :
    Defines ms (.contract name reference)

/-- Whether a node is the literal of a number, in decimal or in hexadecimal digits, without a unit
behind it. -/
structure IsLiteral (ms : Members) (n : Nat) : Prop where
  kind : Datum.find? "nodeType" ms = some (.text "Literal")
  numeral : ∃ s, Datum.find? "value" ms = some (.text s) ∧ Text.IsNumeral s n
  unit : HoldsText ms "subdenomination" none

/-- Whether the node of an array has a length: none, a literal, or the name of a constant that is
a literal. -/
inductive HoldsLength (lookup : Lookup) (ms : Members) : Option Nat → Prop
  | dynamic (hlength : (Datum.find? "length" ms).getD .null = .null) : HoldsLength lookup ms none
  | literal {literal : Members} {n : Nat}
    (hlength : Datum.find? "length" ms = some (.object literal)) (hliteral : IsLiteral literal n) :
    HoldsLength lookup ms (some n)
  | constant {name constant literal : Members} {reference : Datum} {n : Nat}
    (hlength : Datum.find? "length" ms = some (.object name))
    (hkind : Datum.find? "nodeType" name = some (.text "Identifier"))
    (hreference : Datum.find? "referencedDeclaration" name = some reference)
    (hlookup : lookup reference = .ok (.object constant))
    (hconstant : Datum.find? "constant" constant = some (.bool true))
    (hvalue : Datum.find? "value" constant = some (.object literal))
    (hliteral : IsLiteral literal n) : HoldsLength lookup ms (some n)

/-- Whether a node writes an expression. Names are those of nodes that the lookup finds. -/
inductive Writes (lookup : Lookup) : Datum → TypeExpr → Prop
  | elementary {ms : Members} {typeString : Option String} {keyword : Keyword}
    (hkind : Datum.find? "nodeType" ms = some (.text "ElementaryTypeName"))
    (hname : Datum.find? "name" ms = some (.text keyword.text))
    (htypeString : HoldsTypeString ms typeString) :
    Writes lookup (.object ms) (.elementary typeString keyword)
  | bytes {ms : Members} (hkind : Datum.find? "nodeType" ms = some (.text "ElementaryTypeName"))
    (hname : Datum.find? "name" ms = some (.text "bytes")) : Writes lookup (.object ms) .bytes
  | string {ms : Members} (hkind : Datum.find? "nodeType" ms = some (.text "ElementaryTypeName"))
    (hname : Datum.find? "name" ms = some (.text "string")) : Writes lookup (.object ms) .string
  | mapping {ms : Members} {notes : Notes} {keyNode valueNode : Datum} {key value : TypeExpr}
    (hkind : Datum.find? "nodeType" ms = some (.text "Mapping"))
    (hkeyType : Datum.find? "keyType" ms = some keyNode) (hkey : Writes lookup keyNode key)
    (hvalueType : Datum.find? "valueType" ms = some valueNode)
    (hvalue : Writes lookup valueNode value) (hnotes : HoldsNotes ms notes) :
    Writes lookup (.object ms) (.mapping notes key value)
  | array {ms : Members} {notes : Notes} {elementNode : Datum} {element : TypeExpr}
    {length : Option Nat} (hkind : Datum.find? "nodeType" ms = some (.text "ArrayTypeName"))
    (hbaseType : Datum.find? "baseType" ms = some elementNode)
    (helement : Writes lookup elementNode element) (hlength : HoldsLength lookup ms length)
    (hnotes : HoldsNotes ms notes) : Writes lookup (.object ms) (.array notes element length)
  | named {ms found : Members} {reference : Datum} {definition : Definition}
    (hkind : Datum.find? "nodeType" ms = some (.text "UserDefinedTypeName"))
    (hreference : Datum.find? "referencedDeclaration" ms = some reference)
    (hlookup : lookup reference = .ok (.object found)) (hdefines : Defines found definition) :
    Writes lookup (.object ms) (.named definition)

end Ast

/-- Whether the lengths in an expression can be written, as those of all arrays can that fit in
storage. -/
def TypeExpr.IsWritable : TypeExpr → Prop
  | .mapping _ key value => key.IsWritable ∧ value.IsWritable
  | .array _ element length =>
    element.IsWritable ∧ ∀ n : Nat, length = some n → Text.isWritable n = true
  | .elementary .. | .bytes | .string | .named _ => True

/-- Whether the definitions that an expression names can be found. -/
def TypeExpr.IsIndexed (lookup : Ast.Lookup) : TypeExpr → Prop
  | .mapping _ key value => key.IsIndexed lookup ∧ value.IsIndexed lookup
  | .array _ element _ => element.IsIndexed lookup
  | .named definition =>
    ∃ reference found, lookup reference = .ok (.object found) ∧ Ast.Defines found definition
  | .elementary .. | .bytes | .string => True

end StorageSnapshot

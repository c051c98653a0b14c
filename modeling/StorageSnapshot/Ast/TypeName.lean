-- SUMMARY: Types from AST nodes: from the definitions of types, and from type names.
import StorageSnapshot.Ast.Node

/-!
# Types from AST nodes

A definition gives the type it defines, with its members left as nodes. A type name gives the type
it names: keywords are known, mappings and arrays are built from the type names inside them, and
references are looked up and must lead to a definition.
-/

namespace StorageSnapshot.Ast

/-- How the node of a reference is found. -/
abbrev Lookup := Datum → Except Fault Datum

/-! ## Definitions -/

def memberOfNode (node : Datum) : Except Fault Member := do
  let name ← require node "name"
  match ← require node "typeName" with
  | .null => throw (.ofBroken (.memberWithoutType name))
  | typeName => return .node name typeName

def itemsOf (node : Datum) (name : String) : Except Fault (List Datum) := do
  Fault.lift (← require node name).items

def enumOfNode (node : Datum) : Except Fault Ty := do
  let canonicalName ← require node "canonicalName"
  let name ← require node "name"
  let typeString ← typeStringOr node do
    canonicalName.checkText
    return "enum " ++ canonicalName.display
  let members ← (← itemsOf node "members").mapM fun m => require m "name"
  let contract ← contract? node
  let reference ← require node "id"
  return .enum ⟨⟨contract, reference⟩, name, canonicalName⟩ typeString members

def structOfNode (node : Datum) : Except Fault Ty := do
  let canonicalName ← require node "canonicalName"
  let name ← require node "name"
  Fault.lift canonicalName.checkText
  let members ← (← itemsOf node "members").mapM memberOfNode
  let contract ← contract? node
  let reference ← require node "id"
  return .struct ⟨⟨contract, reference⟩, name, canonicalName⟩ members

def aliasOfNode (node : Datum) : Except Fault Ty := do
  let name ← require node "name"
  let canonicalName ← require node "canonicalName"
  let contract ← contract? node
  let reference ← require node "id"
  match ← require node "underlyingType" with
  | .null => throw (.ofBroken (.aliasWithoutType canonicalName))
  | underlying => return .aliasNode ⟨⟨contract, reference⟩, name, canonicalName⟩ underlying

def contractOfNode (node : Datum) : Except Fault Ty := do
  let name ← require node "name"
  let reference ← require node "id"
  Fault.lift name.checkText
  return .contract name reference

/-- The type that a node defines. -/
def typeOfDefinition (node : Datum) : Except Fault Ty := do
  let nodeType ← field node "nodeType"
  match typeKind? node with
  | some .enum => enumOfNode node
  | some .struct => structOfNode node
  | some .valueType => aliasOfNode node
  | some .contract => contractOfNode node
  | _ => throw (.ofUnresolved (.notADefinition node nodeType))

/-! ## Keywords and lengths -/

def elementaryOfNode (node : Datum) : Except Fault Ty := do
  let name ← require node "name"
  if not name.isKey then throw (.data (.notATableKey name))
  match name with
  | .text s =>
    match Elementary.ofName? s s with
    | some e => return .elementary ⟨e.name, ← typeStringOr node (.ok s), e.shape⟩
    | none =>
      if s = "bytes" then return .bytes
      else if s = "string" then return .string
      else throw (.unresolved (.unknownElementary name))
  | _ => throw (.ofUnresolved (.unknownElementary name))

/--
The node of the literal that writes a length: the length itself, or the value of the constant that
it names. Null if the constant has no value that is known.
-/
def lengthLiteral (lookup : Lookup) (length : Datum) : Except Fault Datum := do
  let nodeType ← field length "nodeType"
  if nodeType.display = "Identifier" ∧ has length "referencedDeclaration" then
    let declaration ← lookup (← field length "referencedDeclaration")
    if (← field declaration "constant").isTruthy then field declaration "value"
    else return .null
  else return length

/-- The length of an array type name. A dynamic array has none. -/
def lengthOfNode (lookup : Lookup) (node : Datum) : Except Fault (Option Int) := do
  match ← field node "length" with
  | .null => return none
  | length =>
    let literal ← lengthLiteral lookup length
    if not (has literal "value") then
      throw (.ofUnresolved (.openLength (← typeString node)))
    match (← field literal "value").toInteger with
    | .ok n => return some n
    | .error e => throw (.ofUnresolved (.badLength (← typeString node) e))

/-! ## Type names -/

theorem sizeOf_lt_of_find? {name : String} {v : Datum} {ms : List (String × Datum)}
    (h : Datum.find? name ms = some v) : sizeOf v < sizeOf ms := by
  induction ms with
  | nil => simp [Datum.find?] at h
  | cons m ms ih =>
    obtain ⟨k, w⟩ := m
    by_cases hk : k = name
    · simp [Datum.find?, hk] at h; subst h; simp +arith
    · simp only [Datum.find?, hk, if_false] at h; have := ih h; simp; omega

/-- The node of a member, which is smaller than the node. -/
def child (node : Datum) (name : String) :
    Except Fault { d : Datum // sizeOf d < sizeOf node } :=
  match node with
  | .object ms =>
    match h : Datum.find? name ms with
    | some v => .ok ⟨v, by have := sizeOf_lt_of_find? h; simp; omega⟩
    | none => .error (.missing name)
  | d => .error (.data (.notIndexed d))

/-- A node that lacks a member it needs does not define its type. -/
def resolving {α : Type} : Except Fault α → Except Fault α
  | .error (.missing name) => .error (.ofUnresolved (.nodeWithout name))
  | r => r

/-- Where a mapping or an array type name stands. -/
def originOfNode (node : Datum) : Except Fault Origin := do
  let contract ← contract? node
  let reference ← if has node "id" then field node "id" else pure (.int 0)
  return ⟨contract, reference⟩

/-- The type that a type name stands for. -/
def typeOfName (lookup : Lookup) (node : Datum) : Except Fault Ty :=
  resolving do
    let nodeType ← require node "nodeType"
    if nodeType.display = "ElementaryTypeName" then elementaryOfNode node
    else if nodeType.display = "UserDefinedTypeName" then
      typeOfDefinition (← lookup (← require node "referencedDeclaration"))
    else if nodeType.display = "Mapping" then do
      let keyNode ← child node "keyType"
      let key ← typeOfName lookup keyNode.val
      let valueNode ← child node "valueType"
      let value ← typeOfName lookup valueNode.val
      let origin ← originOfNode node
      let typeString ← typeStringOr node (Ty.mapping .null origin key value).writtenSource
      Fault.lift key.name.checkText
      Fault.lift value.name.checkText
      return .mapping typeString origin key value
    else if nodeType.display = "ArrayTypeName" then do
      let elementNode ← child node "baseType"
      let element ← typeOfName lookup elementNode.val
      let length ← lengthOfNode lookup node
      let origin ← originOfNode node
      let typeString ← typeStringOr node (Ty.array .null origin element length).writtenSource
      return .array typeString origin element length
    else throw (.ofUnresolved (.notATypeName nodeType))
termination_by sizeOf node
decreasing_by
  · exact keyNode.property
  · exact valueNode.property
  · exact elementNode.property

/-- How many type names of arrays and mappings are inside of each other in a type name. -/
def nesting (node : Datum) : Nat :=
  if hasNodeType node "ArrayTypeName" then
    match child node "baseType" with
    | .ok element => nesting element.val + 1
    | .error _ => 0
  else if hasNodeType node "Mapping" then
    match child node "keyType", child node "valueType" with
    | .ok key, .ok value => max (nesting key.val) (nesting value.val) + 1
    | .ok key, .error _ => nesting key.val + 1
    | .error _, _ => 0
  else 0
termination_by sizeOf node
decreasing_by
  · exact element.property
  · exact key.property
  · exact value.property
  · exact key.property

/-- The most type names that a run can follow into each other. -/
def mostNested : Nat := 490

end StorageSnapshot.Ast

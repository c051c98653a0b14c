-- SUMMARY: Descriptions of types as untyped values, for machine-readable reports.
import StorageSnapshot.Ast.Node

/-!
# Descriptions of types

A description says what kind of type this is and what it is made of. The parts of a type that are
known as AST nodes are described by the compiler's name for them.
-/

namespace StorageSnapshot

/-- Where the compiler put a variable. -/
structure Placement where
  numberOfBytes : Datum
  /-- Null if it is not known. -/
  slot : Datum := .null
  /-- Null if it is not known. -/
  offset : Datum := .null

namespace Placement

/-- The place that a list of one to three values says. -/
def ofValues : List Datum → Except DataError Placement
  | [size] => .ok ⟨size, .null, .null⟩
  | [size, slot] => .ok ⟨size, slot, .null⟩
  | [size, slot, offset] => .ok ⟨size, slot, offset⟩
  | values => .error (.wrongCount values.length)

/-- A member that is left out if its value is null. -/
def known (name : String) : Datum → List (String × Datum)
  | .null => []
  | d => [(name, d)]

def describe (p : Placement) : Datum :=
  .object ([("type", .text "StorageAnnotation"), ("numberOfBytes", p.numberOfBytes)] ++
    known "slot" p.slot ++ known "offset" p.offset)

end Placement

namespace Ty

/-- A description with the members `first` in front. -/
def described (first : List (String × Datum)) (kind : String) (parts : List (String × Datum)) :
    Datum :=
  .object (first ++ ("type", .text kind) :: parts)

def describeContract (d : Declaration) : Datum :=
  d.contract.getD .null

def describeAlias (first : List (String × Datum)) (d : Declaration) (underlying : Datum) :
    Datum :=
  described first "UserDefinedValueType" [("valueTypeName", d.name),
    ("containingContract", describeContract d), ("valueTypeAliasedName", underlying),
    ("astId", d.reference)]

/-- The compiler's name for the type of a node; a node that is empty in any way has none. -/
def describeNode (node : Datum) : Except Fault Datum :=
  if node.isTruthy then Ast.typeString node else .ok .null

mutual

/-- The members of a description, behind those in `first`. -/
def describeFrom (first : List (String × Datum)) : Ty → Except Fault Datum
  | .elementary e =>
    .ok (described (first ++ [("primitiveName", .text e.name)]) "Primitive" [])
  | .bytes => .ok (described first "PackedBytes" [])
  | .string => .ok (described first "StringType" [])
  | .mapping _ _ key value => do
    return described first "Mapping" [("mappingKeyType", ← describeFrom [] key),
      ("mappingValueType", ← describeFrom [] value)]
  | .array _ _ element (some length) => do
    let base ← describeFrom [] element
    Fault.lift (Datum.int length).checkText
    return described first "StaticArray" [("staticArrayBaseType", base),
      ("staticArraySize", .text (Text.decimal length))]
  | .array _ _ element none => do
    return described first "Array" [("dynamicArrayBaseType", ← describeFrom [] element)]
  | .enum d _ members =>
    .ok (described first "UserDefinedEnum" [("enumName", d.name),
      ("enumMembers", .list (members.map fun m => .object [("name", m)])),
      ("containingContract", describeContract d), ("astId", d.reference)])
  | .struct d members => do
    return described first "UserDefinedStruct" [("structName", d.name),
      ("structMembers", .list (← describeMembers members)),
      ("containingContract", describeContract d), ("astId", d.reference)]
  | .aliasOf d underlying => do
    return describeAlias first d (← describeFrom [] underlying)
  | .aliasNode d node => do return describeAlias first d (← describeNode node)
  | .contract name _ =>
    .ok (described first "Contract" [("contractName", name)])

def describeMembers : List Member → Except Fault (List Datum)
  | [] => .ok []
  | m :: ms => do return (← describeMember m) :: (← describeMembers ms)

def describeMember : Member → Except Fault Datum
  | .attached name type => do
    return .object [("name", name), ("type", ← describeFrom [] type)]
  | .node name typeName => do
    return .object [("name", name), ("type", ← describeNode typeName)]

end

/-- The description of a type, with the places that the compiler gave it if they are known. -/
def describe (t : Ty) (placements : Option (List Placement)) : Except Fault Datum :=
  match placements with
  | none => t.describeFrom []
  | some ps => t.describeFrom [("annotations", .list (ps.map Placement.describe))]

end Ty

end StorageSnapshot

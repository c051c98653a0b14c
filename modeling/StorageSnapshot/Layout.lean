-- SUMMARY: Storage layouts: the state variables of a contract as the compiler lists them.
import StorageSnapshot.Ast.Index
import StorageSnapshot.Check
import StorageSnapshot.Ty.Describe

/-!
# Storage layouts

A layout lists the state variables of a contract with their slots and offsets, and says how large
their types are. The declared type of a variable is found through the AST.
-/

namespace StorageSnapshot

/-- An entry of a layout. What only names things is kept as it was given. -/
structure StateVariable where
  label : Datum
  astId : Datum
  contract : Datum
  slot : Slot
  /-- The number of bytes below the variable in its word. -/
  offset : Nat
  typeKey : Datum
  numberOfBytes : Option Nat
  offset_lt : offset < 32

/-- A type together with the place that the compiler gave to the variable it is declared with. -/
structure DeclaredType where
  type : Ty
  placements : Option (List Placement) := none

namespace StateVariable

theorem offset_le (v : StateVariable) : 32 - v.offset ≤ 32 := by omega

/-- Where the variable starts. -/
def place (v : StateVariable) : Cursor where
  slot := v.slot
  free := 32 - v.offset
  free_pos := by have := v.offset_lt; omega
  free_le := v.offset_le

/-! ## Reading a layout -/

/-- The description of the type with this key, empty if there is none. -/
def describedType (types key : Datum) : Except Fault Datum := do
  let table ← if types.isTruthy then Fault.lift types.table else pure []
  match key with
  | .text k => return (Datum.find? k table).getD (.object [])
  | _ => if key.isKey then return .object [] else throw (.data (.notATableKey key))

/-- Whether a value has a part of this name: an object a member, a text or a list an item. -/
def mentions (d : Datum) (name : String) : Except Fault Bool :=
  match d with
  | .object ms => .ok (Datum.find? name ms).isSome
  | .list xs => .ok (xs.any fun x => Datum.same x (.text name))
  | .text s => .ok (s.splitOn name).tail.isEmpty.not
  | d => .error (.data (.notIterable d))

def ofMembers (types entry : Datum) : Except Fault StateVariable := do
  let typeKey ← Ast.require entry "type"
  let described ← describedType types typeKey
  let numberOfBytes ←
    if ← mentions described "numberOfBytes" then
      pure (some (← Fault.lift (Check.nonNegative (← Ast.require described "numberOfBytes"))))
    else pure none
  let offset ← Fault.lift (Check.nonNegative (← Ast.require entry "offset"))
  if h : offset < 32 then
    let label ← Ast.require entry "label"
    let astId ← Ast.field entry "astId"
    let contract ← if Ast.has entry "contract" then Ast.field entry "contract" else pure (.text "")
    let slot ← Fault.lift (Check.slot (← Ast.require entry "slot"))
    return ⟨label, astId, contract, slot, offset, typeKey, numberOfBytes, h⟩
  else throw (.ofInput (.entryOffset offset (← Ast.require entry "label")))

/-- The variable of an entry of a layout. An entry must have all the members that are needed. -/
def ofEntry (types entry : Datum) : Except Fault StateVariable :=
  match ofMembers types entry with
  | .error (.missing name) => .error (.ofInput (.entryWithout entry name))
  | r => r

/-- The variables of a layout, in its order. -/
def ofLayout (layout : Datum) : Except Fault (List StateVariable) := do
  if not (← mentions layout "storage") then throw (.input .layoutWithoutStorage)
  let types ← Ast.field layout "types"
  let entries ← Fault.lift (← Ast.require layout "storage").items
  entries.mapM (ofEntry types)

/-! ## Declared types -/

/-- Warns of a size that is not the one that the compiler reports. -/
def checkSize (v : StateVariable) (resolver : Resolver) (type : Ty) (reported : Nat) :
    Traced Fault Unit := do
  let size ← resolver.sizeOf type
  if size ≠ reported then
    Fault.lift v.label.checkText
    Fault.lift (Datum.int reported).checkText
    Fault.lift type.checkName
    Traced.warning Topic.ast (v.label.display ++ ": solc reports " ++ Text.decimal reported ++
      " bytes for " ++ type.source ++ ", expected " ++ Text.decimal size)

/-- The declared type of a variable, with the place that the compiler gave it. -/
def declaredType (v : StateVariable) (index : Ast.Index) : Traced Fault DeclaredType := do
  match v.astId with
  | .null => Traced.fail (.ofUnresolved (.variableWithoutId v.label))
  | id =>
    let node ← index.node id
    if not (Ast.hasNodeType node Ast.DeclarationKind.variable.nodeType) ||
        not (Ast.has node "typeName") then
      Traced.fail (.ofUnresolved (.notAVariable id v.label))
    else
      let type ← index.resolver.boundedTypeOfName (← Ast.require node "typeName")
      match v.numberOfBytes with
      | none => return { type }
      | some size =>
        if not type.isPointer then v.checkSize index.resolver type size
        return { type, placements := some [⟨.int size, .int v.slot.toNat, .int v.offset⟩] }

end StateVariable

end StorageSnapshot

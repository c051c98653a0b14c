-- SUMMARY: AST nodes: reading their members, and the marks of the nodes that declare types.
import StorageSnapshot.Fault

/-!
# AST nodes

A node is an object of the compiler's syntax tree. Reading a member can fail in two ways: the value
is no object, or the object has no such member.
-/

namespace StorageSnapshot.Ast

/-! ## Members -/

/-- The value of a member, null if there is none. -/
def field (node : Datum) (name : String) : Except Fault Datum :=
  match node with
  | .object ms => .ok ((Datum.find? name ms).getD .null)
  | d => .error (.data (.notATable d))

/-- The value of a member that must be there. -/
def require (node : Datum) (name : String) : Except Fault Datum :=
  match node with
  | .object ms =>
    match Datum.find? name ms with
    | some v => .ok v
    | none => .error (.missing name)
  | d => .error (.data (.notIndexed d))

def has (node : Datum) (name : String) : Bool :=
  match node with
  | .object ms => (Datum.find? name ms).isSome
  | _ => false

/-- The member that holds the name of the contract around a node. -/
def contractMark : String := "storage_decoder_contract_name"

/-- The name of the contract around a node, if the node carries one. -/
def contract? (node : Datum) : Except Fault (Option Datum) := do
  match ← field node contractMark with
  | .null => return none
  | name => return some name

/-- The compiler's name for the type of a node, null if there is none. -/
def typeString (node : Datum) : Except Fault Datum :=
  match node with
  | .object ms => field ((Datum.find? "typeDescriptions" ms).getD (.object [])) "typeString"
  | d => .error (.data (.notATable d))

/-- The compiler's name for the type of a node, or `default` if it has none. -/
def typeStringOr (node : Datum) (default : Except DataError String) : Except Fault Datum := do
  let given ← typeString node
  if given.isTruthy then return given else return .text (← Fault.lift default)

/-! ## Declarations -/

/-- The declarations that a type name may refer to, and those of variables. -/
inductive DeclarationKind where
  | enum
  | struct
  | valueType
  | contract
  | variable
  deriving DecidableEq

namespace DeclarationKind

/-- What the compiler calls a node of this kind. -/
def nodeType : DeclarationKind → String
  | .enum => "EnumDefinition"
  | .struct => "StructDefinition"
  | .valueType => "UserDefinedValueTypeDefinition"
  | .contract => "ContractDefinition"
  | .variable => "VariableDeclaration"

/-- The kinds that define types. -/
def types : List DeclarationKind := [.enum, .struct, .valueType, .contract]

end DeclarationKind

def hasNodeType (node : Datum) (nodeType : String) : Bool :=
  match node with
  | .object ms =>
    match Datum.find? "nodeType" ms with
    | some (.text t) => t == nodeType
    | _ => false
  | _ => false

/-- The kind of type that a node defines, if it defines one. -/
def typeKind? (node : Datum) : Option DeclarationKind :=
  DeclarationKind.types.find? fun kind => hasNodeType node kind.nodeType

end StorageSnapshot.Ast

-- SUMMARY: Resolving the parts of types that are known as AST nodes, and the sizes of value types.
import StorageSnapshot.Ast.TypeName
import StorageSnapshot.Trace

/-!
# Resolvers

A resolver turns AST nodes into types when they are needed. What it depends on is only how it finds
the node of a reference. Failures leave a record. With a resolver at hand the size of every value
type is known, and so is whether a value fits into what is left of a word.
-/

namespace StorageSnapshot

structure Resolver where
  lookup : Ast.Lookup

namespace Resolver

/-! ## Finding nodes -/

/-- The node in a table for a reference; `absent` says what is wrong when there is none. -/
def inTable (nodes : List (Int × Datum)) (absent : Datum → Unresolved) (reference : Datum) :
    Except Fault Datum :=
  if not reference.isKey then .error (.data (.notATableKey reference))
  else
    match reference.integer?.bind fun n => nodes.lookup n with
    | some node => .ok node
    | none => .error (.ofUnresolved (absent reference))

/-- A resolver without an AST: it knows types that need no look-up. -/
def plain : Resolver where
  lookup reference := .error (.ofUnresolved (.noAst reference))

/-- A resolver that finds nodes in a table, in which a later node of an id replaces an earlier. -/
def ofNodes (nodes : List (Int × Datum)) : Resolver where
  lookup := inTable nodes.reverse .noSuchNode

/-! ## Types -/

/-- The record of a node that was to define a type and does not. -/
def recordsOfNode : Unresolved → List Record
  | .notADefinition node _ =>
    [⟨Topic.ast, .debug, "unexpected AST Type Definition Node " ++ node.display⟩]
  | _ => []

/-- The records of a type name that could not be resolved. -/
def recordsOfFailure (typeString : Datum) (e : Unresolved) : List Record :=
  recordsOfNode e ++ [⟨Topic.resolution, .debug,
    "failed to resolve " ++ typeString.display ++ ": " ++ e.message⟩]

/-- The compiler's name for the type of a node, which is to be written. -/
def shownTypeString (node : Datum) : Except Fault Datum := do
  let typeString ← Ast.typeString node
  Fault.lift typeString.checkText
  return typeString

/-- The type that a type name stands for. -/
def typeOfName (r : Resolver) (node : Datum) : Traced Fault Ty :=
  match Ast.typeOfName r.lookup node with
  | .error (.unresolved e) =>
    match shownTypeString node with
    | .ok typeString => ⟨recordsOfFailure typeString e, .error (.unresolved e)⟩
    | .error fault => ⟨recordsOfNode e, .error fault⟩
  | result => .ofExcept result

/-- The type of a type name in which no more than `Ast.mostNested` type names are nested. -/
def boundedTypeOfName (r : Resolver) (node : Datum) : Traced Fault Ty :=
  if Ast.nesting node ≤ Ast.mostNested then r.typeOfName node else .fail (.data .nestedTooDeep)

def memberType (r : Resolver) : Member → Traced Fault Ty
  | .attached _ type => pure type
  | .node _ typeName => r.typeOfName typeName

/-- The elementary type behind an alias that is declared by a node. -/
def elementaryOfAlias (r : Resolver) (d : Declaration) (node : Datum) :
    Traced Fault Elementary := do
  match ← r.typeOfName node with
  | .elementary e => return e
  | type =>
    Traced.fail (.ofUnresolved (.notElementary type d))

/-! ## Sizes -/

def sizeOfShape? : Shape → Option Nat
  | .int t => some t.size
  | .bool => some 1
  | .fixedBytes size => some size
  | .address => some addressSize
  | .bare => none

def sizeOfElementary (e : Elementary) : Traced Fault Nat :=
  match sizeOfShape? e.shape with
  | some size => pure size
  | none => .fail (.layout (.noStaticSize (.elementary e)))

/-- The number of bytes that a value of a value type takes. -/
def sizeOf (r : Resolver) : Ty → Traced Fault Nat
  | .elementary e => sizeOfElementary e
  | .contract .. => pure addressSize
  | .enum _ _ members => pure (Ty.ordinals members).size
  | .aliasOf _ underlying => r.sizeOf underlying
  | .aliasNode d node => do sizeOfElementary (← r.elementaryOfAlias d node)
  | t => do
    Fault.lift t.checkName
    Traced.fail (.layout (.noStaticSize t))

/-- Whether a value of this type can start at the cursor. -/
def fits (r : Resolver) (t : Ty) (c : Cursor) : Traced Fault Bool :=
  if t.isPointer then pure c.isFresh
  else do
    let size ← r.sizeOf t
    if size > wordSize then do
      Fault.lift t.checkName
      Traced.fail (.layout (.largerThanWord t))
    else return decide (size ≤ c.free)

/-- Where a value of this type starts that comes behind the cursor. -/
def place (r : Resolver) (t : Ty) (c : Cursor) : Traced Fault Cursor := do
  if ← r.fits t c then return c else return c.nextWord

end Resolver

end StorageSnapshot

-- SUMMARY: The index of a compilation: AST nodes by id, marked with the contract around them.
import StorageSnapshot.Resolver

/-!
# AST indexes

The nodes of a syntax tree are the objects with an id that are reached from the root by steps from
such an object to its members, and to the items of lists among them. Every object that is a step
away from a node carries a mark: the name of the nearest contract around it. Nodes are visited level
by level, so of two nodes with one id the deeper one counts.
-/

namespace StorageSnapshot.Ast

/-! ## Members to follow -/

def isNode (members : List (String × Datum)) : Bool := (Datum.find? "id" members).isSome

/-- The one member that is not followed: inline assembly keeps references there, and no nodes. -/
def isOutside (members : List (String × Datum)) (name : String) : Bool :=
  name == "externalReferences" && hasNodeType (.object members) "InlineAssembly"

def isContract (members : List (String × Datum)) : Bool :=
  hasNodeType (.object members) DeclarationKind.contract.nodeType

/-! ## Marks -/

/-- The mark of what is inside an object that has the mark `mark` itself. -/
def markInside (mark : Option Datum) (members : List (String × Datum)) : Option Datum :=
  if isContract members then Datum.find? "name" members
  else mark <|> Datum.find? contractMark members

def putMark (mark : Option Datum) (members : List (String × Datum)) : List (String × Datum) :=
  match mark with
  | none => members
  | some m => Datum.put contractMark m members

mutual

/-- Marks the objects in a list inside a list. What they hold is not followed. -/
def markNested (mark : Option Datum) : Datum → Datum
  | .object ms => .object (putMark mark ms)
  | .list xs => .list (markNestedItems mark xs)
  | d => d

def markNestedItems (mark : Option Datum) : List Datum → List Datum
  | [] => []
  | x :: xs => markNested mark x :: markNestedItems mark xs

end

mutual

/-- A value with the marks on it and on everything that is followed from it. -/
def marked (mark : Option Datum) : Datum → Datum
  | .object ms =>
    .object (putMark mark (if isNode ms then markedMembers (isOutside ms) (markInside mark ms) ms
      else ms))
  | d => d

def markedMembers (outside : String → Bool) (mark : Option Datum) :
    List (String × Datum) → List (String × Datum)
  | [] => []
  | (k, .list xs) :: ms =>
    (k, if outside k then .list xs else .list (markedItems mark xs)) ::
      markedMembers outside mark ms
  | (k, v) :: ms =>
    (k, if outside k then v else marked mark v) :: markedMembers outside mark ms

def markedItems (mark : Option Datum) : List Datum → List Datum
  | [] => []
  | .list ys :: xs => .list (markNestedItems mark ys) :: markedItems mark xs
  | x :: xs => marked mark x :: markedItems mark xs

end

/-! ## Nodes -/

mutual

/-- The nodes reached from a value, each with the number of steps to it. -/
def nodesFrom (steps : Nat) : Datum → List (Nat × List (String × Datum))
  | .object ms =>
    if isNode ms then (steps, ms) :: nodesInMembers (isOutside ms) (steps + 1) ms else []
  | _ => []

def nodesInMembers (outside : String → Bool) (steps : Nat) :
    List (String × Datum) → List (Nat × List (String × Datum))
  | [] => []
  | (k, .list xs) :: ms =>
    (if outside k then [] else nodesInItems steps xs) ++ nodesInMembers outside steps ms
  | (k, v) :: ms =>
    (if outside k then [] else nodesFrom steps v) ++ nodesInMembers outside steps ms

def nodesInItems (steps : Nat) : List Datum → List (Nat × List (String × Datum))
  | [] => []
  | x :: xs => nodesFrom steps x ++ nodesInItems steps xs

end

/-- The nodes of a tree, level by level. -/
def nodesByLevel (root : Datum) : List (List (String × Datum)) :=
  ((nodesFrom 0 root).mergeSort fun a b => a.1 ≤ b.1).map (·.2)

mutual

/-- Whether a value is an object or holds one in a list. -/
def holdsObject : Datum → Bool
  | .object _ => true
  | .list xs => anyHoldsObject xs
  | _ => false

def anyHoldsObject : List Datum → Bool
  | [] => false
  | x :: xs => holdsObject x || anyHoldsObject xs

end

/-- The number that the id of a node stands for: an integer, or a list of one. -/
def idNumber (id : Datum) : Except InputError Int :=
  match id with
  | .int n | .list [.int n] => .ok n
  | .bool b | .list [.bool b] => .ok (if b then 1 else 0)
  | _ => .error (.nodeId id)

/-- The id of a node. A contract with anything to mark must have a name. -/
def nodeId (members : List (String × Datum)) : Except Fault Int := do
  let id ← Fault.lift (idNumber ((Datum.find? "id" members).getD .null))
  if isContract members && (Datum.find? "name" members).isNone &&
      members.any (fun m => holdsObject m.2) then
    throw (.broken .contractWithoutName)
  return id

/-! ## Indexes -/

/-- The nodes of a compilation by id. -/
structure Index where
  nodes : List (Int × Datum) := []

namespace Index

def putNode (id : Int) (node : Datum) : List (Int × Datum) → List (Int × Datum)
  | [] => [(id, node)]
  | (i, n) :: ns => if i = id then (i, node) :: ns else (i, n) :: putNode id node ns

/-- Adds the nodes of a syntax tree. -/
def add (index : Index) (ast : Datum) : Except Fault Index :=
  (nodesByLevel (marked none ast)).foldlM
    (fun ix members => do
      let id ← nodeId members
      return { ix with nodes := putNode id (.object members) ix.nodes })
    index

/-- The index of the sources in a compiler's output, each of which holds a syntax tree. -/
def ofSources (sources : Datum) : Traced Fault Index := do
  let files ← Fault.lift sources.table
  files.foldlM
    (fun ix (file, source) => do
      match source with
      | .object ms =>
        match Datum.find? "ast" ms with
        | some ast =>
          Traced.debug Topic.ast ("Adding ast of " ++ file)
          ix.add ast
        | none => Traced.fail (.input (.sourceWithoutAst file))
      | _ => Traced.fail (.input (.sourceWithoutAst file)))
    {}

/-- The node of a reference. -/
def node (index : Index) (reference : Datum) : Except Fault Datum :=
  Resolver.inTable index.nodes .notIndexed reference

def resolver (index : Index) : Resolver where
  lookup := index.node

end Index

end StorageSnapshot.Ast

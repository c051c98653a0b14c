-- SUMMARY: The index of a syntax tree: the reached nodes by number, marked with their contracts.
import StorageSnapshot.Proofs.Marks

/-!
# Indexed nodes

An index holds the nodes that are reached in a tree. Each is what it was in the tree, with nothing
added but marks, and its own mark is the name of the nearest contract around it. A tree that is
marked already is left as it is, and so is its index.
-/

namespace StorageSnapshot.Ast

variable {mark : Option Datum} {ms : Members}

/-! ## Contracts around a node -/

/-- The name of the nearest contract around an object. -/
def contractAround (above : List Members) : Option Datum :=
  (above.find? isContract).bind (Datum.find? "name")

/-- What a syntax tree is like before it is marked: every node has a number of its own, and
contracts have names. -/
structure IsFresh (ast : Datum) : Prop where
  unmarked : unmarked ast = ast
  numbered : ∀ path above ms, Reached ast path above ms → isNode ms = true → ∃ n, HasId ms n
  distinct : DistinctIds ast
  named : ∀ path above ms, Reached ast path above ms → isNode ms = true → isContract ms = true →
    ∃ t, Datum.find? "name" ms = some (.text t)

variable {ast : Datum} {path : List Step} {above : List Members}

theorem contractAround_cons (ms : Members) (above : List Members) :
    contractAround (ms :: above) =
      if isContract ms then Datum.find? "name" ms else contractAround above := by
  unfold contractAround
  rw [List.find?_cons]
  cases isContract ms <;> rfl

namespace IsFresh

theorem find?_mark (h : IsFresh ast) (hms : Reached ast path above ms) :
    Datum.find? contractMark ms = none :=
  (of_unmarkedMembers_eq_self (hms.unmarkedMembers h.unmarked)).1

/-- Objects inside of a node are marked with the name of the nearest contract around them. -/
theorem markInside_eq (h : IsFresh ast) (hms : Reached ast path above ms) :
    markInside (contractAround above) ms = contractAround (ms :: above) := by
  rw [markInside, contractAround_cons, h.find?_mark hms]
  cases contractAround above <;> rfl

theorem isName_contractAround (h : IsFresh ast) (hms : Reached ast path above ms) :
    IsName (contractAround above) := by
  induction hms with
  | root =>
    intro m hm
    cases hm
  | step hms hs ih =>
    rw [contractAround_cons]
    split
    next hcontract =>
      obtain ⟨t, ht⟩ := h.named _ _ _ hms (follow?_eq_some.1 hs).1 hcontract
      intro m hm
      exact ⟨t, Option.some.inj (hm.symm.trans ht)⟩
    next => exact ih

/-- Every place of a tree is a place of the marked tree. -/
theorem reached_marked (h : IsFresh ast) (hms : Reached ast path above ms) :
    ∃ above', Reached (marked none ast) path above' (markedObject (contractAround above) ms) := by
  induction hms with
  | root hroot =>
    subst hroot
    exact ⟨[], .root (marked_object none _)⟩
  | step hms hs ih =>
    obtain ⟨above', hreached⟩ := ih
    refine ⟨_, hreached.step ?_⟩
    rw [follow?_markedObject (h.isName_contractAround hms) (h.find?_mark hms), hs,
      h.markInside_eq hms]
    rfl

/-- Every place of the marked tree is a place of the tree, whose object is marked there. -/
theorem of_reached_marked (h : IsFresh ast) {above' : List Members} {ms' : Members}
    (hms' : Reached (marked none ast) path above' ms') :
    ∃ above ms, Reached ast path above ms ∧ ms' = markedObject (contractAround above) ms := by
  induction hms' with
  | root hroot =>
    cases ast with
    | object ms =>
      rw [marked_object, Datum.object.injEq] at hroot
      exact ⟨[], ms, .root rfl, hroot.symm⟩
    | _ => cases hroot
  | step _ hs ih =>
    obtain ⟨above, ms, hms, rfl⟩ := ih
    rw [follow?_markedObject (h.isName_contractAround hms) (h.find?_mark hms),
      h.markInside_eq hms, Option.map_eq_some_iff] at hs
    obtain ⟨inner, hs, rfl⟩ := hs
    exact ⟨ms :: above, inner, hms.step hs, rfl⟩

theorem distinctIds_marked (h : IsFresh ast) : DistinctIds (marked none ast) := by
  intro path _ _ path' _ _ n hmarked hmarked' hn hn'
  obtain ⟨_, _, hms, rfl⟩ := h.of_reached_marked hmarked
  obtain ⟨_, _, hms', rfl⟩ := h.of_reached_marked hmarked'
  exact h.distinct _ _ _ _ _ _ n hms hms' (hasId_markedObject.1 hn) (hasId_markedObject.1 hn')

end IsFresh

/-! ## Marking again -/

theorem putMark_putMark (mark : Option Datum) (ms : Members) :
    putMark mark (putMark mark ms) = putMark mark ms := by
  cases mark with
  | none => rfl
  | some m => exact Datum.put_of_find?_eq_some (Datum.find?_put_self _ _ _)

mutual

theorem markNested_markNested (mark : Option Datum) :
    ∀ d, markNested mark (markNested mark d) = markNested mark d
  | .object ms => by rw [markNested, markNested, putMark_putMark]
  | .list xs => by rw [markNested, markNested, markNestedItems_markNestedItems mark xs]
  | .null | .bool _ | .int _ | .float _ | .text _ | .bytes _ => rfl

theorem markNestedItems_markNestedItems (mark : Option Datum) :
    ∀ xs, markNestedItems mark (markNestedItems mark xs) = markNestedItems mark xs
  | [] => rfl
  | x :: xs => by
    rw [markNestedItems, markNestedItems, markNested_markNested mark x,
      markNestedItems_markNestedItems mark xs]

end

/-- Marking a member again changes nothing if that is so of the objects that steps lead to. -/
theorem markedValue_markedValue {v : Datum}
    (h : ∀ j inner, objectIn? v j = some inner →
      markedObject mark (markedObject mark inner) = markedObject mark inner) :
    markedValue mark (markedValue mark v) = markedValue mark v := by
  cases v with
  | object ms =>
    simp only [markedValue, marked_object]
    rw [h none ms rfl]
  | list xs =>
    simp only [markedValue, markedItems_eq, List.map_map, Datum.list.injEq]
    refine List.map_congr_left fun x hx => ?_
    cases x with
    | list ys => simp only [Function.comp_apply, markedItem, markNestedItems_markNestedItems]
    | object ms =>
      obtain ⟨j, hj⟩ := List.mem_iff_getElem?.1 hx
      simp only [Function.comp_apply, markedItem, marked_object]
      rw [h (some j) ms (by simp [objectIn?, hj])]
    | _ => rfl
  | _ => rfl

namespace IsFresh

/-- A marked object hands on the same mark as before. -/
theorem markInside_markedObject (h : IsFresh ast) (hms : Reached ast path above ms)
    (hnode : isNode ms = true) :
    markInside (contractAround above) (markedObject (contractAround above) ms) =
      markInside (contractAround above) ms := by
  rw [markInside, markInside, isContract_markedObject]
  split
  next hcontract =>
    obtain ⟨t, ht⟩ := h.named _ _ _ hms hnode hcontract
    rw [ht]
    exact (find?_markedObject_eq_text (by decide)).2 ht
  next =>
    cases hmark : contractAround above with
    | some m => rfl
    | none =>
      rw [markedObject, putMark, if_pos hnode, find?_mark_markedInside (h.find?_mark hms),
        h.find?_mark hms]

theorem markedInside_markedObject (h : IsFresh ast) (hms : Reached ast path above ms)
    (hnode : isNode ms = true)
    (hinner : ∀ s inner, follow? ms s = some inner →
      markedObject (contractAround (ms :: above))
          (markedObject (contractAround (ms :: above)) inner) =
        markedObject (contractAround (ms :: above)) inner) :
    markedInside (contractAround above) (markedObject (contractAround above) ms) =
      markedObject (contractAround above) ms := by
  have hmark := h.isName_contractAround hms
  have hinside := h.markInside_eq hms
  rw [markedInside, h.markInside_markedObject hms hnode, isOutside_markedObject, hinside,
    markedObject, if_pos hnode, putMark_eq (find?_mark_markedInside (h.find?_mark hms) _),
    List.map_append, markedInside, hinside, List.map_map]
  congr 1
  · refine List.map_congr_left fun m hm => ?_
    obtain ⟨name, v⟩ := m
    obtain ⟨i, hget⟩ := List.mem_iff_getElem?.1 hm
    simp only [Function.comp_apply, Prod.mk.injEq, true_and]
    cases hout : isOutside ms name with
    | true => rfl
    | false =>
      simp only [Bool.false_eq_true, if_false]
      refine markedValue_markedValue fun j inner hin => hinner (i, j) inner ?_
      exact follow?_eq_some.2 ⟨hnode, name, v, hget, hout, hin⟩
  · cases hm : contractAround above with
    | none => rfl
    | some m =>
      obtain ⟨t, rfl⟩ := hmark m hm
      simp [markedValue, marked]

theorem markedObject_markedObject (h : IsFresh ast) (hms : Reached ast path above ms) :
    markedObject (contractAround above) (markedObject (contractAround above) ms) =
      markedObject (contractAround above) ms := by
  induction ms using follow?_induction generalizing path above with
  | h ms ih =>
    have hdefinition : ∀ ms', markedObject (contractAround above) ms' =
        putMark (contractAround above)
          (if isNode ms' then markedInside (contractAround above) ms' else ms') := fun _ => rfl
    rw [hdefinition (markedObject _ ms), isNode_markedObject]
    cases hnode : isNode ms with
    | false =>
      rw [hdefinition ms, hnode]
      exact putMark_putMark _ _
    | true =>
      rw [if_pos rfl,
        h.markedInside_markedObject hms hnode fun s inner hs => ih s inner hs (hms.step hs),
        hdefinition ms]
      exact putMark_putMark _ _

/-- A marked tree is left as it is. -/
theorem marked_marked (h : IsFresh ast) : marked none (marked none ast) = marked none ast := by
  cases ast with
  | object ms =>
    rw [marked_object, marked_object]
    exact congrArg Datum.object (h.markedObject_markedObject (.root rfl))
  | _ => rfl

end IsFresh

/-! ## The index -/

namespace Index

theorem lookup_putNode_self (id : Int) (node : Datum) (nodes : List (Int × Datum)) :
    (putNode id node nodes).lookup id = some node := by
  induction nodes with
  | nil => simp [putNode]
  | cons n nodes ih =>
    by_cases hid : n.1 = id
    · simp [putNode, hid]
    · have hne : (id == n.1) = false := beq_false_of_ne (Ne.symm hid)
      simp only [putNode, hid, if_false, List.lookup_cons, hne]
      exact ih

theorem lookup_putNode_of_ne {id other : Int} (h : id ≠ other) (node : Datum)
    (nodes : List (Int × Datum)) : (putNode id node nodes).lookup other = nodes.lookup other := by
  induction nodes with
  | nil => simp [putNode, List.lookup_cons, beq_false_of_ne (Ne.symm h)]
  | cons n nodes ih =>
    obtain ⟨i, d⟩ := n
    by_cases hid : i = id
    · subst hid
      simp [putNode, List.lookup_cons, beq_false_of_ne (Ne.symm h)]
    · simp only [putNode, hid, if_false, List.lookup_cons, ih]

/-- A node that an index has already stays when it is put there again. -/
theorem putNode_of_lookup {id : Int} {node : Datum} {nodes : List (Int × Datum)}
    (h : nodes.lookup id = some node) : putNode id node nodes = nodes := by
  induction nodes with
  | nil => cases h
  | cons n nodes ih =>
    obtain ⟨i, d⟩ := n
    by_cases hid : i = id
    · subst hid
      simp only [List.lookup_cons, beq_self_eq_true, Option.some.injEq] at h
      simp [putNode, h]
    · simp only [List.lookup_cons, beq_false_of_ne (Ne.symm hid)] at h
      simp only [putNode, hid, if_false, ih h]

/-- Adds one node. -/
def addNode (index : Index) (ms : Members) : Except Fault Index := do
  let id ← nodeId ms
  return { index with nodes := putNode id (.object ms) index.nodes }

theorem add_eq_foldlM (index : Index) (ast : Datum) :
    index.add ast = (nodesByLevel (marked none ast)).foldlM addNode index := rfl

theorem addNode_eq_ok {index : Index} {n : Int} (h : nodeId ms = .ok n) :
    index.addNode ms = .ok { index with nodes := putNode n (.object ms) index.nodes } := by
  rw [addNode, h]
  rfl

/-- Nodes of different numbers are all in the index that they are added to. -/
theorem foldlM_addNode {nodes : List Members}
    (hids : ∀ ms ∈ nodes, ∃ n, HasId ms n ∧ nodeId ms = .ok n)
    (hapart : nodes.Pairwise fun ms ms' => ∀ n, HasId ms n → ¬HasId ms' n) (index : Index) :
    ∃ index', nodes.foldlM addNode index = .ok index' ∧
      (∀ ms ∈ nodes, ∀ n, HasId ms n → index'.nodes.lookup n = some (.object ms)) ∧
      ∀ n, (∀ ms ∈ nodes, ¬HasId ms n) → index'.nodes.lookup n = index.nodes.lookup n := by
  induction nodes generalizing index with
  | nil => exact ⟨index, rfl, by simp, fun _ _ => rfl⟩
  | cons ms nodes ih =>
    obtain ⟨hfirst, hrest⟩ := List.pairwise_cons.1 hapart
    obtain ⟨id, hid, hnode⟩ := hids ms List.mem_cons_self
    obtain ⟨index', hindex', hin, hout⟩ :=
      ih (fun ms' h => hids ms' (List.mem_cons_of_mem _ h)) hrest
        { index with nodes := putNode id (.object ms) index.nodes }
    refine ⟨index', ?_, ?_, ?_⟩
    · rw [List.foldlM_cons, addNode_eq_ok hnode, ok_bind, hindex']
    · intro ms' hmem n hn
      rcases List.mem_cons.1 hmem with rfl | hmem
      · cases hid.unique hn
        rw [hout _ fun ms' hms' hn' => hfirst ms' hms' _ hn hn']
        exact lookup_putNode_self _ _ _
      · exact hin ms' hmem n hn
    · intro n hnone
      rw [hout n fun ms' hms' => hnone ms' (List.mem_cons_of_mem _ hms')]
      refine lookup_putNode_of_ne ?_ _ _
      rintro rfl
      exact hnone ms List.mem_cons_self hid

/-- Nodes that an index has already change nothing when they are added again. -/
theorem foldlM_addNode_of_lookup {index : Index} {nodes : List Members}
    (h : ∀ ms ∈ nodes, ∃ n, nodeId ms = .ok n ∧ index.nodes.lookup n = some (.object ms)) :
    nodes.foldlM addNode index = .ok index := by
  induction nodes with
  | nil => rfl
  | cons ms nodes ih =>
    obtain ⟨n, hn, hlookup⟩ := h ms List.mem_cons_self
    rw [List.foldlM_cons, addNode_eq_ok hn, putNode_of_lookup hlookup, ok_bind]
    exact ih fun ms' h' => h ms' (List.mem_cons_of_mem _ h')

theorem node_int (index : Index) (n : Int) : index.node (.int n) =
    match index.nodes.lookup n with
    | some node => .ok node
    | none => .error (.ofUnresolved (.notIndexed (.int n))) := rfl

theorem node_eq_ok {index : Index} {n : Int} {node : Datum} :
    index.node (.int n) = .ok node ↔ index.nodes.lookup n = some node := by
  rw [node_int]
  cases index.nodes.lookup n <;> simp

end Index

/-- A node has the number that its id says, if it is no contract without a name. -/
theorem nodeId_eq_ok {n : Int} (hid : HasId ms n)
    (hname : isContract ms = true → (Datum.find? "name" ms).isSome = true) :
    nodeId ms = .ok n := by
  obtain ⟨id, hfind, hnumber⟩ := hid
  have hnamed : (isContract ms && (Datum.find? "name" ms).isNone) = false := by
    cases hcontract : isContract ms with
    | false => rfl
    | true => simp [Option.isNone_eq_false_iff, hname hcontract]
  rw [nodeId, hfind, hnamed]
  simp only [Option.getD_some, hnumber, Bool.false_and]
  rfl

theorem IsFresh.nodeId_markedObject {n : Int} (h : IsFresh ast) (hms : Reached ast path above ms)
    (hn : HasId ms n) : nodeId (markedObject (contractAround above) ms) = .ok n := by
  refine nodeId_eq_ok (hasId_markedObject.2 hn) fun hcontract => ?_
  rw [isContract_markedObject] at hcontract
  obtain ⟨t, ht⟩ := h.named _ _ _ hms hn.isNode hcontract
  rw [(find?_markedObject_eq_text (by decide)).2 ht]
  rfl

theorem find?_mark_putMark (h : Datum.find? contractMark ms = none) :
    Datum.find? contractMark (putMark mark ms) = mark := by
  cases mark with
  | none => exact h
  | some m => exact Datum.find?_put_self _ m ms

namespace IsFresh

/-- The mark of an object is the name of the nearest contract around it. -/
theorem find?_mark_markedObject (h : IsFresh ast) (hms : Reached ast path above ms) :
    Datum.find? contractMark (markedObject (contractAround above) ms) = contractAround above := by
  have hmark := h.find?_mark hms
  rw [markedObject]
  split
  next => exact find?_mark_putMark (find?_mark_markedInside hmark _)
  next => exact find?_mark_putMark hmark

theorem unmarked_markedObject (h : IsFresh ast) (hms : Reached ast path above ms) :
    Ast.unmarked (.object (markedObject mark ms)) = .object ms := by
  rw [← marked_object, unmarked_marked, Ast.unmarked, hms.unmarkedMembers h.unmarked]

/-- A node of the marked tree is the marked node of a place of the tree. -/
theorem mem_nodesByLevel_marked (h : IsFresh ast) {ms' : Members} :
    ms' ∈ nodesByLevel (marked none ast) ↔ ∃ path above ms, Reached ast path above ms ∧
      isNode ms = true ∧ ms' = markedObject (contractAround above) ms := by
  rw [mem_nodesByLevel]
  constructor
  · rintro ⟨hnode, path, above', hreached⟩
    obtain ⟨above, ms, hms, rfl⟩ := h.of_reached_marked hreached
    exact ⟨path, above, ms, hms, by rwa [isNode_markedObject] at hnode, rfl⟩
  · rintro ⟨path, above, ms, hms, hnode, rfl⟩
    obtain ⟨above', hreached⟩ := h.reached_marked hms
    exact ⟨by rwa [isNode_markedObject], path, above', hreached⟩

/-- The marked tree is added whole, and changes nothing outside of its own ids. -/
theorem add_eq_ok (h : IsFresh ast) (index : Index) :
    ∃ index', index.add ast = .ok index' ∧
      (∀ path above ms n, Reached ast path above ms → HasId ms n →
        index'.nodes.lookup n = some (.object (markedObject (contractAround above) ms))) ∧
      ∀ n, (∀ path above ms, Reached ast path above ms → ¬HasId ms n) →
        index'.nodes.lookup n = index.nodes.lookup n := by
  have hids : ∀ ms' ∈ nodesByLevel (marked none ast), ∃ n, HasId ms' n ∧ nodeId ms' = .ok n := by
    intro ms' hmem
    obtain ⟨path, above, ms, hms, hnode, rfl⟩ := h.mem_nodesByLevel_marked.1 hmem
    obtain ⟨n, hn⟩ := h.numbered _ _ _ hms hnode
    exact ⟨n, hasId_markedObject.2 hn, h.nodeId_markedObject hms hn⟩
  obtain ⟨index', hadd, hin, hout⟩ :=
    Index.foldlM_addNode hids (pairwise_nodesByLevel h.distinctIds_marked) index
  refine ⟨index', hadd, ?_, ?_⟩
  · intro path above ms n hms hn
    exact hin _ (h.mem_nodesByLevel_marked.2 ⟨path, above, ms, hms, hn.isNode, rfl⟩) n
      (hasId_markedObject.2 hn)
  · intro n hnone
    refine hout n fun ms' hmem hn => ?_
    obtain ⟨path, above, ms, hms, -, rfl⟩ := h.mem_nodesByLevel_marked.1 hmem
    exact hnone path above ms hms (hasId_markedObject.1 hn)

/-- A marked tree adds nothing to an index that it was added to. -/
theorem add_marked (h : IsFresh ast) {index : Index}
    (hindex : ∀ path above ms n, Reached ast path above ms → HasId ms n →
      index.nodes.lookup n = some (.object (markedObject (contractAround above) ms))) :
    index.add (marked none ast) = .ok index := by
  rw [Index.add_eq_foldlM, h.marked_marked]
  refine Index.foldlM_addNode_of_lookup fun ms' hmem => ?_
  obtain ⟨path, above, ms, hms, hnode, rfl⟩ := h.mem_nodesByLevel_marked.1 hmem
  obtain ⟨n, hn⟩ := h.numbered _ _ _ hms hnode
  exact ⟨n, h.nodeId_markedObject hms hn, hindex path above ms n hms hn⟩

end IsFresh

/-- A tree adds to an index the nodes that are reached in it, and nothing else. Each is found by its
number and is what it was but for its marks; its own mark names the nearest contract around it. The
tree with its marks is not marked any further, and adds nothing more. -/
theorem Index.add_holds_reached (h : IsFresh ast) (index : Index) :
    ∃ index', index.add ast = .ok index' ∧
      (∀ n, (∃ node, index'.node (.int n) = .ok node) ↔
        (∃ path above ms, Reached ast path above ms ∧ HasId ms n) ∨
          ∃ node, index.node (.int n) = .ok node) ∧
      (∀ path above ms n, Reached ast path above ms → HasId ms n →
        ∃ ms', index'.node (.int n) = .ok (.object ms') ∧
          unmarked (.object ms') = .object ms ∧
          Datum.find? contractMark ms' = contractAround above) ∧
      (∀ n, (∀ path above ms, Reached ast path above ms → ¬HasId ms n) →
        index'.node (.int n) = index.node (.int n)) ∧
      marked none (marked none ast) = marked none ast ∧
      index'.add (marked none ast) = .ok index' := by
  obtain ⟨index', hadd, hin, hout⟩ := h.add_eq_ok index
  have hframe : ∀ n, (∀ path above ms, Reached ast path above ms → ¬HasId ms n) →
      index'.node (.int n) = index.node (.int n) := by
    intro n hnone
    rw [Index.node_int, Index.node_int, hout n hnone]
  refine ⟨index', hadd, ?_, ?_, hframe, h.marked_marked, h.add_marked hin⟩
  · intro n
    by_cases hreached : ∃ path above ms, Reached ast path above ms ∧ HasId ms n
    · obtain ⟨path, above, ms, hms, hn⟩ := hreached
      exact ⟨fun _ => .inl ⟨path, above, ms, hms, hn⟩,
        fun _ => ⟨_, node_eq_ok.2 (hin path above ms n hms hn)⟩⟩
    · have hnone : ∀ path above ms, Reached ast path above ms → ¬HasId ms n :=
        fun path above ms hms hn => hreached ⟨path, above, ms, hms, hn⟩
      rw [hframe n hnone, or_iff_right hreached]
  · intro path above ms n hms hn
    exact ⟨_, node_eq_ok.2 (hin path above ms n hms hn), h.unmarked_markedObject hms,
      h.find?_mark_markedObject hms⟩

/-! A contract and a struct in it. -/

namespace Lone

def struct : Members := [("id", .int 2), ("nodeType", .text "StructDefinition")]

def contract : Members :=
  [("id", .list [.int 1]), ("nodeType", .text "ContractDefinition"), ("name", .text "Wallet"),
    ("nodes", .list [.object struct])]

theorem follow?_contract {s : Step} {inner : Members} (h : follow? contract s = some inner) :
    s = (3, some 0) ∧ inner = struct := by
  obtain ⟨-, name, v, hget, -, hin⟩ := follow?_eq_some.1 h
  obtain ⟨i, j⟩ := s
  match i with
  | 0 =>
    cases hget
    cases j with
    | none => cases hin
    | some j => cases j <;> cases hin
  | 1 | 2 =>
    cases hget
    cases j <;> cases hin
  | 3 =>
    cases hget
    cases j with
    | none => cases hin
    | some j =>
      cases j with
      | zero =>
        cases hin
        exact ⟨rfl, rfl⟩
      | succ j => cases hin
  | i + 4 => cases hget

theorem follow?_struct (s : Step) : follow? struct s = none := by
  obtain ⟨i, j⟩ := s
  match i with
  | 0 | 1 => cases j <;> rfl
  | i + 2 => rfl

theorem of_reached {path : List Step} {above : List Members} {ms : Members}
    (h : Reached (.object contract) path above ms) :
    (path = [] ∧ ms = contract) ∨ (path = [(3, some 0)] ∧ ms = struct) := by
  induction h with
  | root hroot =>
    cases hroot
    exact .inl ⟨rfl, rfl⟩
  | step _ hs ih =>
    rcases ih with ⟨rfl, rfl⟩ | ⟨rfl, rfl⟩
    · obtain ⟨rfl, rfl⟩ := follow?_contract hs
      exact .inr ⟨rfl, rfl⟩
    · simp [follow?_struct] at hs

theorem hasId_contract : HasId contract 1 := ⟨_, rfl, rfl⟩

theorem hasId_struct : HasId struct 2 := ⟨_, rfl, rfl⟩

theorem isFresh : IsFresh (.object contract) where
  unmarked := by simp [Ast.unmarked, unmarkedMembers, unmarkedItems, contract, struct, contractMark]
  numbered := by
    intro path above ms hms _
    rcases of_reached hms with ⟨-, rfl⟩ | ⟨-, rfl⟩
    · exact ⟨1, hasId_contract⟩
    · exact ⟨2, hasId_struct⟩
  distinct := by
    intro path _ ms path' _ ms' n hms hms' hn hn'
    rcases of_reached hms with ⟨rfl, rfl⟩ | ⟨rfl, rfl⟩ <;>
      rcases of_reached hms' with ⟨rfl, rfl⟩ | ⟨rfl, rfl⟩
    · rfl
    · cases hn.unique hasId_contract
      cases hn'.unique hasId_struct
    · cases hn.unique hasId_struct
      cases hn'.unique hasId_contract
    · rfl
  named := by
    intro path above ms hms _ hcontract
    rcases of_reached hms with ⟨-, rfl⟩ | ⟨-, rfl⟩
    · exact ⟨"Wallet", rfl⟩
    · simp [isContract, struct, hasNodeType, Datum.find?, DeclarationKind.nodeType] at hcontract

theorem reached_struct : Reached (.object contract) [(3, some 0)] [contract] struct :=
  (Reached.root rfl).step rfl

/-- The struct is found by its number, with the name of its contract. -/
theorem struct_marked : IsFresh (.object contract) ∧
    ∃ index' : Index, Index.add {} (.object contract) = .ok index' ∧
      ∃ ms', index'.node (.int 2) = .ok (.object ms') ∧
        unmarked (.object ms') = .object struct ∧
        Datum.find? contractMark ms' = some (.text "Wallet") := by
  obtain ⟨index', hadd, -, hheld, -⟩ := Index.add_holds_reached isFresh {}
  exact ⟨isFresh, index', hadd, hheld _ _ _ 2 reached_struct hasId_struct⟩

end Lone

end StorageSnapshot.Ast

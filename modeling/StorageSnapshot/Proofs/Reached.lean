-- SUMMARY: The nodes that are reached in a syntax tree, with the steps that lead to them.
import StorageSnapshot.Ast.Index
import StorageSnapshot.Proofs.Outcome

/-!
# Reached nodes

A step leads from a node to an object that it holds in a member, or in a list that is a member. A
path of steps is a place in the tree, so that two nodes that look alike are still told apart. The
objects that steps are taken from are around the one that a path ends at, the nearest first.
-/

namespace StorageSnapshot.Ast

abbrev Members := List (String × Datum)

/-- A step from an object: which member, and which item if the member is a list. -/
abbrev Step := Nat × Option Nat

/-! ## Steps -/

/-- The object that a member is, or that is an item of it. -/
def objectIn? : Datum → Option Nat → Option Members
  | .object ms, none => some ms
  | .list xs, some j =>
    match xs[j]? with
    | some (.object ms) => some ms
    | _ => none
  | _, _ => none

/-- The object that a step leads to. There are none from objects without an id. -/
def follow? (ms : Members) (s : Step) : Option Members :=
  if isNode ms then
    match ms[s.1]? with
    | some (name, v) => if isOutside ms name then none else objectIn? v s.2
    | none => none
  else none

/-- Whether a path leads from the root of a tree through the objects `above` to an object. -/
inductive Reached (ast : Datum) : (path : List Step) → (above : List Members) → Members → Prop
  | root {ms : Members} : ast = .object ms → Reached ast [] [] ms
  | step {path : List Step} {above : List Members} {ms inner : Members} {s : Step} :
    Reached ast path above ms → follow? ms s = some inner →
      Reached ast (s :: path) (ms :: above) inner

/-- Whether an object is the node of a number. -/
def HasId (ms : Members) (n : Int) : Prop :=
  ∃ id, Datum.find? "id" ms = some id ∧ idNumber id = .ok n

/-- Whether no two places of a tree have nodes of one number. -/
def DistinctIds (ast : Datum) : Prop :=
  ∀ path above ms path' above' ms' n, Reached ast path above ms → Reached ast path' above' ms' →
    HasId ms n → HasId ms' n → path = path'

theorem HasId.unique {ms : Members} {m n : Int} (hm : HasId ms m) (hn : HasId ms n) : m = n := by
  obtain ⟨id, hid, hm⟩ := hm
  obtain ⟨id', hid', hn⟩ := hn
  cases hid.symm.trans hid'
  cases hm.symm.trans hn
  rfl

theorem HasId.isNode {ms : Members} {n : Int} (h : HasId ms n) : isNode ms = true := by
  obtain ⟨id, hid, -⟩ := h
  rw [Ast.isNode, hid]
  rfl

theorem follow?_eq_some {ms inner : Members} {s : Step} :
    follow? ms s = some inner ↔ isNode ms = true ∧ ∃ name v, ms[s.1]? = some (name, v) ∧
      isOutside ms name = false ∧ objectIn? v s.2 = some inner := by
  unfold follow?
  constructor
  · intro h
    split at h
    next hnode =>
      split at h
      next name v hget =>
        split at h
        next => cases h
        next hout => exact ⟨hnode, name, v, hget, by simpa using hout, h⟩
      next => cases h
    next => cases h
  · rintro ⟨hnode, name, v, hget, hout, hin⟩
    rw [if_pos hnode, hget]
    simp only [hout, Bool.false_eq_true, if_false, hin]

theorem sizeOf_lt_of_objectIn? {v : Datum} {j : Option Nat} {inner : Members}
    (h : objectIn? v j = some inner) : sizeOf inner < sizeOf v := by
  unfold objectIn? at h
  split at h
  next ms =>
    cases h
    simp +arith
  next xs j =>
    split at h
    next ms hget =>
      cases h
      have hlt := List.sizeOf_lt_of_mem (List.mem_of_getElem? hget)
      simp only [Datum.object.sizeOf_spec, Datum.list.sizeOf_spec] at hlt ⊢
      omega
    next => cases h
  next => cases h

/-- Steps lead to smaller objects. -/
theorem sizeOf_lt_of_follow? {ms inner : Members} {s : Step} (h : follow? ms s = some inner) :
    sizeOf inner < sizeOf ms := by
  obtain ⟨-, name, v, hget, -, hin⟩ := follow?_eq_some.1 h
  have hmember := List.sizeOf_lt_of_mem (List.mem_of_getElem? hget)
  have hinner := sizeOf_lt_of_objectIn? hin
  simp only [Prod.mk.sizeOf_spec] at hmember
  omega

/-- What holds of an object whenever it holds of those that steps lead to holds of all. -/
theorem follow?_induction {P : Members → Prop}
    (h : ∀ ms, (∀ s inner, follow? ms s = some inner → P inner) → P ms) (ms : Members) : P ms :=
  h ms fun _ inner _ => follow?_induction h inner
termination_by sizeOf ms
decreasing_by
  exact sizeOf_lt_of_follow? (by assumption)

/-! ## The nodes of a tree -/

/-- The nodes reached through a member. -/
def nodesInValue (steps : Nat) : Datum → List (Nat × Members)
  | .list xs => nodesInItems steps xs
  | v => nodesFrom steps v

theorem nodesInItems_eq (steps : Nat) (xs : List Datum) :
    nodesInItems steps xs = xs.flatMap (nodesFrom steps) := by
  induction xs with
  | nil => rfl
  | cons x xs ih => rw [nodesInItems, ih, List.flatMap_cons]

theorem nodesInMembers_eq (outside : String → Bool) (steps : Nat) (ms : Members) :
    nodesInMembers outside steps ms =
      ms.flatMap fun m => if outside m.1 then [] else nodesInValue steps m.2 := by
  induction ms with
  | nil => rfl
  | cons m ms ih =>
    obtain ⟨name, v⟩ := m
    cases v <;> simp only [nodesInMembers, ih, List.flatMap_cons, nodesInValue]

/-- Through a member are reached the nodes from the objects that steps into it lead to. -/
theorem mem_nodesInValue {steps : Nat} {v : Datum} {x : Nat × Members} :
    x ∈ nodesInValue steps v ↔
      ∃ j inner, objectIn? v j = some inner ∧ x ∈ nodesFrom steps (.object inner) := by
  cases v with
  | object ms =>
    constructor
    · intro h
      exact ⟨none, ms, rfl, h⟩
    · rintro ⟨j, inner, hin, h⟩
      cases j with
      | none =>
        cases hin
        exact h
      | some j => cases hin
  | list xs =>
    rw [nodesInValue, nodesInItems_eq, List.mem_flatMap]
    constructor
    · rintro ⟨item, hitem, h⟩
      obtain ⟨j, hj⟩ := List.mem_iff_getElem?.1 hitem
      cases item with
      | object ms => exact ⟨some j, ms, by simp [objectIn?, hj], h⟩
      | _ => cases h
    · rintro ⟨j, inner, hin, h⟩
      unfold objectIn? at hin
      split at hin
      next heq => cases heq
      next xs' j heq =>
        cases heq
        split at hin
        next ms hget =>
          cases hin
          exact ⟨.object inner, List.mem_of_getElem? hget, h⟩
        next => cases hin
      next => cases hin
  | _ =>
    constructor
    · intro h
      cases h
    · rintro ⟨j, inner, hin, -⟩
      cases hin

theorem nodesFrom_of_not_isNode {ms : Members} (h : isNode ms = false) (steps : Nat) :
    nodesFrom steps (.object ms) = [] := by
  rw [nodesFrom, if_neg (by simp [h])]

/-- The nodes reached through the members of an object. -/
def nodesBehind (steps : Nat) (ms : Members) : List (Nat × Members) :=
  ms.flatMap fun m => if isOutside ms m.1 then [] else nodesInValue steps m.2

theorem nodesFrom_of_isNode {ms : Members} (h : isNode ms = true) (steps : Nat) :
    nodesFrom steps (.object ms) = (steps, ms) :: nodesBehind (steps + 1) ms := by
  rw [nodesFrom, if_pos h, nodesInMembers_eq, nodesBehind]

/-- Through the members of a node are reached the nodes from the objects that steps lead to. -/
theorem mem_nodesBehind {steps : Nat} {ms : Members} {x : Nat × Members} (h : isNode ms = true) :
    x ∈ nodesBehind steps ms ↔
      ∃ s inner, follow? ms s = some inner ∧ x ∈ nodesFrom steps (.object inner) := by
  rw [nodesBehind, List.mem_flatMap]
  constructor
  · rintro ⟨⟨name, v⟩, hmem, hx⟩
    obtain ⟨i, hget⟩ := List.mem_iff_getElem?.1 hmem
    cases hout : isOutside ms name with
    | true => simp [hout] at hx
    | false =>
      simp only [hout, Bool.false_eq_true, if_false] at hx
      obtain ⟨j, inner, hin, hx⟩ := mem_nodesInValue.1 hx
      exact ⟨(i, j), inner, follow?_eq_some.2 ⟨h, name, v, hget, hout, hin⟩, hx⟩
  · rintro ⟨s, inner, hfollow, hx⟩
    obtain ⟨-, name, v, hget, hout, hin⟩ := follow?_eq_some.1 hfollow
    refine ⟨(name, v), List.mem_of_getElem? hget, ?_⟩
    simp only [hout, Bool.false_eq_true, if_false]
    exact mem_nodesInValue.2 ⟨s.2, inner, hin, hx⟩

/-- From an object are reached the object itself, and what is reached behind a step. -/
theorem mem_nodesFrom {steps : Nat} {ms : Members} {x : Nat × Members} :
    x ∈ nodesFrom steps (.object ms) ↔ (isNode ms = true ∧ x = (steps, ms)) ∨
      ∃ s inner, follow? ms s = some inner ∧ x ∈ nodesFrom (steps + 1) (.object inner) := by
  cases hnode : isNode ms with
  | false =>
    rw [nodesFrom_of_not_isNode hnode]
    simp [follow?, hnode]
  | true =>
    rw [nodesFrom_of_isNode hnode, List.mem_cons, mem_nodesBehind hnode]
    simp only [true_and]

variable {ast : Datum} {path : List Step} {above : List Members} {ms : Members}

/-- What is reached from a reached object lies at places behind its own. -/
theorem reached_of_mem_nodesFrom {steps : Nat} {x : Nat × Members}
    (hms : Reached ast path above ms) (h : x ∈ nodesFrom steps (.object ms)) :
    ∃ behind above', Reached ast (behind ++ path) above' x.2 ∧ isNode x.2 = true := by
  induction ms using follow?_induction generalizing path above steps with
  | h ms ih =>
    rcases mem_nodesFrom.1 h with ⟨hnode, rfl⟩ | ⟨s, inner, hfollow, h⟩
    · exact ⟨[], above, hms, hnode⟩
    · obtain ⟨behind, above', hreached, hnode⟩ := ih s inner hfollow (hms.step hfollow) h
      exact ⟨behind ++ [s], above', by simpa using hreached, hnode⟩

/-- Every reached node is among the nodes of the tree. -/
theorem Reached.mem_nodesFrom (h : Reached ast path above ms) (hnode : isNode ms = true) :
    ∃ steps, (steps, ms) ∈ nodesFrom 0 ast := by
  have hsubset : ∃ steps, ∀ x, x ∈ nodesFrom steps (.object ms) → x ∈ nodesFrom 0 ast := by
    clear hnode
    induction h with
    | root hast => exact ⟨0, fun x hx => hast ▸ hx⟩
    | step _ hfollow ih =>
      obtain ⟨steps, hsteps⟩ := ih
      exact ⟨steps + 1, fun x hx => hsteps x (Ast.mem_nodesFrom.2 (.inr ⟨_, _, hfollow, hx⟩))⟩
  obtain ⟨steps, hsteps⟩ := hsubset
  exact ⟨steps, hsteps _ (Ast.mem_nodesFrom.2 (.inl ⟨hnode, rfl⟩))⟩

/-- The nodes of a tree are those that are reached. -/
theorem mem_nodesByLevel {ms : Members} :
    ms ∈ nodesByLevel ast ↔ isNode ms = true ∧ ∃ path above, Reached ast path above ms := by
  unfold nodesByLevel
  rw [List.mem_map]
  constructor
  · rintro ⟨⟨steps, _⟩, hmem, rfl⟩
    rw [List.mem_mergeSort] at hmem
    cases ast with
    | object root =>
      obtain ⟨behind, above, hreached, hnode⟩ := reached_of_mem_nodesFrom (.root rfl) hmem
      exact ⟨hnode, behind ++ [], above, hreached⟩
    | _ => cases hmem
  · rintro ⟨hnode, path, above, hreached⟩
    obtain ⟨steps, hmem⟩ := hreached.mem_nodesFrom hnode
    exact ⟨(steps, ms), List.mem_mergeSort.2 hmem, rfl⟩

/-! ## Numbers -/

/-- Whether two objects are no nodes of one number. -/
def Apart (x y : Nat × Members) : Prop := ∀ n, HasId x.2 n → ¬HasId y.2 n

theorem apart_of_ne {path : List Step} {above above' : List Members} {path' : List Step}
    {x y : Nat × Members} (hdistinct : DistinctIds ast) (hx : Reached ast path above x.2)
    (hy : Reached ast path' above' y.2) (hne : path ≠ path') : Apart x y :=
  fun n hxn hyn => hne (hdistinct _ _ _ _ _ _ n hx hy hxn hyn)

/-- What lies behind different steps from a place lies at different places. -/
theorem apart_of_step_ne {steps steps' : Nat} {s s' : Step} {inner inner' : Members}
    {x y : Nat × Members} (hdistinct : DistinctIds ast) (hms : Reached ast path above ms)
    (hinner : follow? ms s = some inner) (hinner' : follow? ms s' = some inner') (hne : s ≠ s')
    (hx : x ∈ nodesFrom steps (.object inner)) (hy : y ∈ nodesFrom steps' (.object inner')) :
    Apart x y := by
  obtain ⟨behind, _, hx, -⟩ := reached_of_mem_nodesFrom (hms.step hinner) hx
  obtain ⟨behind', _, hy, -⟩ := reached_of_mem_nodesFrom (hms.step hinner') hy
  refine apart_of_ne hdistinct hx hy fun heq => hne ?_
  have happend : (behind ++ [s]) ++ path = (behind' ++ [s']) ++ path := by simpa using heq
  have hlast := List.append_cancel_right happend
  have hsame := (List.append_inj' hlast rfl).2
  exact List.head_eq_of_cons_eq hsame

/-- The nodes reached through a member are apart if those of every object in it are, and those of
different objects. -/
theorem pairwise_nodesInValue {steps : Nat} {v : Datum}
    (heach : ∀ j inner, objectIn? v j = some inner →
      (nodesFrom steps (.object inner)).Pairwise Apart)
    (hboth : ∀ j inner j' inner' x y, objectIn? v j = some inner → objectIn? v j' = some inner' →
      j ≠ j' → x ∈ nodesFrom steps (.object inner) → y ∈ nodesFrom steps (.object inner') →
        Apart x y) :
    (nodesInValue steps v).Pairwise Apart := by
  cases v with
  | object inner => exact heach none inner rfl
  | list xs =>
    have hitem : ∀ {j : Nat} {inner : Members}, xs[j]? = some (.object inner) →
        objectIn? (.list xs) (some j) = some inner := by
      intro j inner hj
      simp [objectIn?, hj]
    rw [nodesInValue, nodesInItems_eq, List.pairwise_flatMap]
    constructor
    · intro item hmem
      obtain ⟨j, hj⟩ := List.mem_iff_getElem?.1 hmem
      cases item with
      | object inner => exact heach (some j) inner (hitem hj)
      | _ => exact .nil
    · rw [List.pairwise_iff_getElem]
      intro j j' hj hj' hlt x hx y hy
      have hget := List.getElem?_eq_getElem hj
      have hget' := List.getElem?_eq_getElem hj'
      generalize xs[j] = item at hx hget
      generalize xs[j'] = item' at hy hget'
      cases item with
      | object inner =>
        cases item' with
        | object inner' =>
          refine hboth _ _ _ _ x y (hitem hget) (hitem hget') ?_ hx hy
          rw [ne_eq, Option.some.injEq]
          omega
        | _ => cases hy
      | _ => cases hx
  | _ => exact .nil

/-- The nodes reached through the members of a node are apart if those behind each step are. -/
theorem pairwise_nodesBehind {steps : Nat} (hdistinct : DistinctIds ast)
    (hms : Reached ast path above ms) (hnode : isNode ms = true)
    (heach : ∀ s inner, follow? ms s = some inner →
      (nodesFrom steps (.object inner)).Pairwise Apart) :
    (nodesBehind steps ms).Pairwise Apart := by
  have hfollow : ∀ {i : Nat} {name : String} {v : Datum} {j : Option Nat} {inner : Members},
      ms[i]? = some (name, v) → isOutside ms name = false → objectIn? v j = some inner →
        follow? ms (i, j) = some inner := by
    intro i name v j inner hget hout hin
    exact follow?_eq_some.2 ⟨hnode, name, v, hget, hout, hin⟩
  rw [nodesBehind, List.pairwise_flatMap]
  constructor
  · rintro ⟨name, v⟩ hmem
    obtain ⟨i, hget⟩ := List.mem_iff_getElem?.1 hmem
    cases hout : isOutside ms name with
    | true => exact .nil
    | false =>
      refine pairwise_nodesInValue ?_ ?_
      · intro j inner hin
        exact heach _ _ (hfollow hget hout hin)
      · intro j inner j' inner' x y hin hin' hne hx hy
        refine apart_of_step_ne hdistinct hms (hfollow hget hout hin)
          (hfollow hget hout hin') ?_ hx hy
        simpa using hne
  · rw [List.pairwise_iff_getElem]
    intro i i' hi hi' hlt x hx y hy
    have hget := List.getElem?_eq_getElem hi
    have hget' := List.getElem?_eq_getElem hi'
    generalize ms[i] = m at hx hget
    generalize ms[i'] = m' at hy hget'
    obtain ⟨name, v⟩ := m
    obtain ⟨name', v'⟩ := m'
    cases hout : isOutside ms name with
    | true => simp [hout] at hx
    | false =>
      cases hout' : isOutside ms name' with
      | true => simp [hout'] at hy
      | false =>
        simp only [hout, Bool.false_eq_true, if_false] at hx
        simp only [hout', Bool.false_eq_true, if_false] at hy
        obtain ⟨j, inner, hin, hx⟩ := mem_nodesInValue.1 hx
        obtain ⟨j', inner', hin', hy⟩ := mem_nodesInValue.1 hy
        refine apart_of_step_ne hdistinct hms (hfollow hget hout hin)
          (hfollow hget' hout' hin') ?_ hx hy
        simp only [ne_eq, Prod.mk.injEq, not_and]
        omega

/-- The nodes reached from a reached object are apart if the nodes of the tree are. -/
theorem pairwise_nodesFrom {steps : Nat} (hdistinct : DistinctIds ast)
    (hms : Reached ast path above ms) : (nodesFrom steps (.object ms)).Pairwise Apart := by
  induction ms using follow?_induction generalizing path above steps with
  | h ms ih =>
    cases hnode : isNode ms with
    | false =>
      rw [nodesFrom_of_not_isNode hnode]
      exact .nil
    | true =>
      rw [nodesFrom_of_isNode hnode, List.pairwise_cons]
      constructor
      · intro x hx
        -- The object itself lies in front of what is reached from it.
        obtain ⟨s, inner, hs, hx⟩ := (mem_nodesBehind hnode).1 hx
        obtain ⟨behind, _, hreached, -⟩ := reached_of_mem_nodesFrom (hms.step hs) hx
        refine apart_of_ne hdistinct hms hreached fun heq => ?_
        have hlength := congrArg List.length heq
        simp only [List.length_append, List.length_cons] at hlength
        omega
      · exact pairwise_nodesBehind hdistinct hms hnode fun s inner hs => ih s inner hs (hms.step hs)

/-- The nodes of a tree are apart if no two places have nodes of one number. -/
theorem pairwise_nodesByLevel (hdistinct : DistinctIds ast) :
    (nodesByLevel ast).Pairwise fun ms ms' => ∀ n, HasId ms n → ¬HasId ms' n := by
  have hpairwise : (nodesFrom 0 ast).Pairwise Apart := by
    cases ast with
    | object ms => exact pairwise_nodesFrom hdistinct (.root rfl)
    | _ => exact .nil
  have hsymm : ∀ {x y : Nat × Members}, Apart x y → Apart y x :=
    fun h n hy hx => h n hx hy
  rw [nodesByLevel, List.pairwise_map]
  exact (List.Perm.pairwise_iff hsymm (List.mergeSort_perm _ _)).2 hpairwise

end StorageSnapshot.Ast

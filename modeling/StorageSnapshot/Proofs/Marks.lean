-- SUMMARY: Marked syntax trees: what marks leave alone, and the steps through them.
import StorageSnapshot.Proofs.Reached

/-!
# Marks

Marking a tree adds nothing to it but marks. The marked tree has the same places as the tree, and
each holds what it held before, with its mark.
-/

namespace StorageSnapshot

/-! ## Members with a new value -/

namespace Datum

theorem put_of_find?_eq_none {key : String} {ms : List (String × Datum)}
    (h : find? key ms = none) (value : Datum) : put key value ms = ms ++ [(key, value)] := by
  induction ms with
  | nil => rfl
  | cons m ms ih =>
    obtain ⟨k, v⟩ := m
    by_cases hk : k = key
    · simp [find?, hk] at h
    · simp only [find?, hk, if_false] at h
      simp only [put, hk, if_false, ih h, List.cons_append]

/-- A member that has a value already stays when it is given that value. -/
theorem put_of_find?_eq_some {key : String} {value : Datum} {ms : List (String × Datum)}
    (h : find? key ms = some value) : put key value ms = ms := by
  induction ms with
  | nil => cases h
  | cons m ms ih =>
    obtain ⟨k, v⟩ := m
    by_cases hk : k = key
    · simp only [find?, hk, if_true, Option.some.injEq] at h
      simp only [put, hk, if_true, h]
    · simp only [find?, hk, if_false] at h
      simp only [put, hk, if_false, ih h]

theorem find?_map (g : String → Datum → Datum) (name : String) (ms : List (String × Datum)) :
    find? name (ms.map fun m => (m.1, g m.1 m.2)) = (find? name ms).map (g name) := by
  induction ms with
  | nil => rfl
  | cons m ms ih =>
    obtain ⟨k, v⟩ := m
    by_cases hk : k = name
    · subst hk
      simp [find?]
    · simp [find?, hk, ih]

end Datum

namespace Ast

/-! ## Marking an object -/

/-- A member with the marks on what is followed from it. -/
def markedValue (mark : Option Datum) : Datum → Datum
  | .list xs => .list (markedItems mark xs)
  | v => marked mark v

/-- An item of a member with the marks on what is followed from it. -/
def markedItem (mark : Option Datum) : Datum → Datum
  | .list ys => .list (markNestedItems mark ys)
  | x => marked mark x

/-- The members of a node with the marks on what is followed from them. -/
def markedInside (mark : Option Datum) (ms : Members) : Members :=
  ms.map fun m => (m.1, if isOutside ms m.1 then m.2 else markedValue (markInside mark ms) m.2)

/-- An object with its own mark, and the marks on what is followed from it. -/
def markedObject (mark : Option Datum) (ms : Members) : Members :=
  putMark mark (if isNode ms then markedInside mark ms else ms)

theorem markedItems_eq (mark : Option Datum) (xs : List Datum) :
    markedItems mark xs = xs.map (markedItem mark) := by
  induction xs with
  | nil => rfl
  | cons x xs ih => cases x <;> simp only [markedItems, ih, List.map_cons, markedItem]

theorem markedMembers_eq (outside : String → Bool) (mark : Option Datum) (ms : Members) :
    markedMembers outside mark ms =
      ms.map fun m => (m.1, if outside m.1 then m.2 else markedValue mark m.2) := by
  induction ms with
  | nil => rfl
  | cons m ms ih =>
    obtain ⟨name, v⟩ := m
    cases v with
    | list xs =>
      simp only [markedMembers, ih, List.map_cons, markedValue]
    | _ => simp only [markedMembers, ih, List.map_cons, markedValue]

theorem marked_object (mark : Option Datum) (ms : Members) :
    marked mark (.object ms) = .object (markedObject mark ms) := by
  rw [marked, markedMembers_eq, markedObject, markedInside]

/-! ## What marks leave alone -/

variable {mark : Option Datum} {ms : Members}

theorem find?_putMark {name : String} (h : name ≠ contractMark) (mark : Option Datum)
    (ms : Members) : Datum.find? name (putMark mark ms) = Datum.find? name ms := by
  cases mark with
  | none => rfl
  | some m => exact Datum.find?_put_of_ne m ms (Ne.symm h)

/-- A member has the same value as before, but for the marks inside of it. -/
theorem find?_markedObject {name : String} (h : name ≠ contractMark) (mark : Option Datum)
    (ms : Members) : ∃ g : Datum → Datum, (g = id ∨ ∃ inner, g = markedValue inner) ∧
      Datum.find? name (markedObject mark ms) = (Datum.find? name ms).map g := by
  rw [markedObject, find?_putMark h]
  split
  next =>
    rw [markedInside, Datum.find?_map (fun name v =>
      if isOutside ms name then v else markedValue (markInside mark ms) v)]
    by_cases hout : isOutside ms name = true
    · exact ⟨id, .inl rfl, by simp [hout]⟩
    · exact ⟨_, .inr ⟨markInside mark ms, rfl⟩, by simp [hout]⟩
  next => exact ⟨id, .inl rfl, by simp⟩

theorem markedValue_eq_text {inner : Option Datum} {v : Datum} {t : String} :
    markedValue inner v = .text t ↔ v = .text t := by
  cases v <;> simp [markedValue, marked]

/-- Marks change no text. -/
theorem find?_markedObject_eq_text {name : String} {t : String} (h : name ≠ contractMark) :
    Datum.find? name (markedObject mark ms) = some (.text t) ↔
      Datum.find? name ms = some (.text t) := by
  obtain ⟨g, hg, hfind⟩ := find?_markedObject h mark ms
  rw [hfind, Option.map_eq_some_iff]
  rcases hg with rfl | ⟨inner, rfl⟩
  · simp
  · simp [markedValue_eq_text]

theorem id_ne_contractMark : "id" ≠ contractMark := by decide

theorem isNode_markedObject (mark : Option Datum) (ms : Members) :
    isNode (markedObject mark ms) = isNode ms := by
  obtain ⟨g, -, hfind⟩ := find?_markedObject id_ne_contractMark mark ms
  rw [isNode, hfind, Option.isSome_map, isNode]

theorem hasNodeType_eq_true {t : String} :
    hasNodeType (.object ms) t = true ↔ Datum.find? "nodeType" ms = some (.text t) := by
  unfold hasNodeType
  dsimp only
  split
  next s h => simp [h]
  next h =>
    constructor
    · intro hfalse
      cases hfalse
    · intro ht
      exact (h t ht).elim

theorem hasNodeType_markedObject (mark : Option Datum) (ms : Members) (t : String) :
    hasNodeType (.object (markedObject mark ms)) t = hasNodeType (.object ms) t := by
  rw [Bool.eq_iff_iff, hasNodeType_eq_true, hasNodeType_eq_true,
    find?_markedObject_eq_text (by decide)]

theorem isOutside_markedObject (mark : Option Datum) (ms : Members) :
    isOutside (markedObject mark ms) = isOutside ms := by
  funext name
  rw [isOutside, hasNodeType_markedObject, isOutside]

theorem isContract_markedObject (mark : Option Datum) (ms : Members) :
    isContract (markedObject mark ms) = isContract ms := by
  rw [isContract, hasNodeType_markedObject, isContract]

theorem idNumber_markedValue {inner : Option Datum} {id : Datum} {n : Int} :
    idNumber (markedValue inner id) = .ok n ↔ idNumber id = .ok n := by
  cases id with
  | list xs =>
    rw [markedValue, markedItems_eq]
    match xs with
    | [] | _ :: _ :: _ => simp [idNumber]
    | [x] => cases x <;> simp [idNumber, markedItem, marked]
  | object ms => simp [markedValue, marked, idNumber]
  | _ => simp [markedValue, marked]

theorem hasId_markedObject {n : Int} : HasId (markedObject mark ms) n ↔ HasId ms n := by
  obtain ⟨g, hg, hfind⟩ := find?_markedObject id_ne_contractMark mark ms
  have hsame : ∀ id, idNumber (g id) = .ok n ↔ idNumber id = .ok n := by
    intro id
    rcases hg with rfl | ⟨inner, rfl⟩
    · rfl
    · exact idNumber_markedValue
  unfold HasId
  rw [hfind]
  constructor
  · rintro ⟨_, hmap, hn⟩
    obtain ⟨id, hid, rfl⟩ := Option.map_eq_some_iff.1 hmap
    exact ⟨id, hid, (hsame id).1 hn⟩
  · rintro ⟨id, hid, hn⟩
    exact ⟨g id, by rw [hid]; rfl, (hsame id).2 hn⟩

/-! ## Steps through a marked tree -/

/-- Whether a mark is a text, if there is one. -/
def IsName (mark : Option Datum) : Prop := ∀ m, mark = some m → ∃ t, m = .text t

theorem objectIn?_markedValue (inner : Option Datum) (v : Datum) (j : Option Nat) :
    objectIn? (markedValue inner v) j = (objectIn? v j).map (markedObject inner) := by
  cases v with
  | object ms =>
    rw [markedValue, marked_object]
    · cases j <;> rfl
    · simp
  | list xs =>
    rw [markedValue, markedItems_eq]
    cases j with
    | none => rfl
    | some j =>
      simp only [objectIn?, List.getElem?_map]
      cases xs[j]? with
      | none => rfl
      | some x =>
        cases x with
        | object ms => simp [markedItem, marked_object]
        | _ => simp [markedItem, marked]
  | _ => cases j <;> rfl

/-- A first mark stands behind the other members. -/
theorem putMark_eq (h : Datum.find? contractMark ms = none) (mark : Option Datum) :
    putMark mark ms = ms ++ (mark.map fun m => (contractMark, m)).toList := by
  cases mark with
  | none => exact (List.append_nil ms).symm
  | some m => exact Datum.put_of_find?_eq_none h m

theorem find?_mark_markedInside (h : Datum.find? contractMark ms = none) (mark : Option Datum) :
    Datum.find? contractMark (markedInside mark ms) = none := by
  rw [markedInside, Datum.find?_map (fun name v =>
    if isOutside ms name then v else markedValue (markInside mark ms) v), h]
  rfl

/-- The steps from a marked object are those from the object, and lead to what they led to before,
with its marks. -/
theorem follow?_markedObject (hmark : IsName mark) (hms : Datum.find? contractMark ms = none)
    (s : Step) :
    follow? (markedObject mark ms) s = (follow? ms s).map (markedObject (markInside mark ms)) := by
  obtain ⟨i, j⟩ := s
  cases hnode : isNode ms with
  | false =>
    have hmarked : isNode (markedObject mark ms) = false := by rw [isNode_markedObject, hnode]
    simp [follow?, hnode, hmarked]
  | true =>
    unfold follow?
    rw [isNode_markedObject, isOutside_markedObject, hnode, markedObject, if_pos hnode,
      putMark_eq (find?_mark_markedInside hms mark)]
    simp only [if_true]
    by_cases hi : i < ms.length
    · rw [List.getElem?_append_left (by simpa [markedInside] using hi), markedInside,
        List.getElem?_map, List.getElem?_eq_getElem hi]
      obtain ⟨name, v⟩ := ms[i]
      simp only [Option.map_some]
      split
      next => rfl
      next => exact objectIn?_markedValue _ v j
    · rw [List.getElem?_eq_none (by omega : ms.length ≤ i),
        List.getElem?_append_right (by simp only [markedInside, List.length_map]; omega)]
      cases mark with
      | none => rfl
      | some m =>
        obtain ⟨t, rfl⟩ := hmark m rfl
        -- What follows the members is the mark itself, and no step leads into a text.
        cases hlast : ((Option.map (fun m => (contractMark, m)) (some (Datum.text t))).toList)[i -
            (markedInside (some (Datum.text t)) ms).length]? with
        | none => rfl
        | some last =>
          have hmem := List.mem_of_getElem? hlast
          simp only [Option.map_some, Option.toList_some, List.mem_singleton] at hmem
          subst hmem
          cases j <;> simp [objectIn?]

/-! ## Values without marks -/

mutual

/-- A value without any marks. -/
def unmarked : Datum → Datum
  | .object ms => .object (unmarkedMembers ms)
  | .list xs => .list (unmarkedItems xs)
  | d => d

def unmarkedMembers : Members → Members
  | [] => []
  | (name, v) :: ms =>
    if name = contractMark then unmarkedMembers ms else (name, unmarked v) :: unmarkedMembers ms

def unmarkedItems : List Datum → List Datum
  | [] => []
  | x :: xs => unmarked x :: unmarkedItems xs

end

theorem unmarkedMembers_putMark (mark : Option Datum) (ms : Members) :
    unmarkedMembers (putMark mark ms) = unmarkedMembers ms := by
  cases mark with
  | none => rfl
  | some m =>
    rw [putMark]
    induction ms with
    | nil => simp [Datum.put, unmarkedMembers]
    | cons member ms ih =>
      obtain ⟨name, v⟩ := member
      by_cases hname : name = contractMark
      · simp [Datum.put, unmarkedMembers, hname]
      · simp only [Datum.put, unmarkedMembers, hname, if_false, ih]

mutual

theorem unmarked_markNested (mark : Option Datum) :
    ∀ d, unmarked (markNested mark d) = unmarked d
  | .object ms => by rw [markNested, unmarked, unmarkedMembers_putMark, unmarked]
  | .list xs => by rw [markNested, unmarked, unmarked_markNestedItems mark xs, unmarked]
  | .null | .bool _ | .int _ | .float _ | .text _ | .bytes _ => rfl

theorem unmarked_markNestedItems (mark : Option Datum) :
    ∀ xs, unmarkedItems (markNestedItems mark xs) = unmarkedItems xs
  | [] => rfl
  | x :: xs => by
    rw [markNestedItems, unmarkedItems, unmarked_markNested mark x,
      unmarked_markNestedItems mark xs,
      unmarkedItems]

end

mutual

/-- Marking a value adds nothing to it but marks. -/
theorem unmarked_marked (mark : Option Datum) : ∀ d, unmarked (marked mark d) = unmarked d
  | .object ms => by
    rw [marked, unmarked, unmarkedMembers_putMark, unmarked]
    split
    · rw [unmarked_markedMembers]
    · rfl
  | .null | .bool _ | .int _ | .float _ | .text _ | .bytes _ | .list _ => rfl

theorem unmarked_markedMembers (outside : String → Bool) (mark : Option Datum) :
    ∀ ms, unmarkedMembers (markedMembers outside mark ms) = unmarkedMembers ms
  | [] => rfl
  | (name, v) :: ms => by
    have hvalue : unmarked (if outside name then v else markedValue mark v) = unmarked v := by
      split
      · rfl
      · exact unmarked_markedValue mark v
    rw [markedMembers_eq, List.map_cons, ← markedMembers_eq]
    simp only [unmarkedMembers, hvalue, unmarked_markedMembers outside mark ms]

theorem unmarked_markedValue (mark : Option Datum) :
    ∀ v, unmarked (markedValue mark v) = unmarked v
  | .list xs => by rw [markedValue, unmarked, unmarked_markedItems mark xs, unmarked]
  | .object ms => unmarked_marked mark (.object ms)
  | .null | .bool _ | .int _ | .float _ | .text _ | .bytes _ => rfl

theorem unmarked_markedItems (mark : Option Datum) :
    ∀ xs, unmarkedItems (markedItems mark xs) = unmarkedItems xs
  | [] => rfl
  | x :: xs => by
    have hitem : unmarked (markedItem mark x) = unmarked x := by
      cases x with
      | list ys => rw [markedItem, unmarked, unmarked_markNestedItems, unmarked]
      | object ms => exact unmarked_marked mark (.object ms)
      | _ => rfl
    rw [markedItems_eq, List.map_cons, ← markedItems_eq, unmarkedItems, hitem,
      unmarked_markedItems mark xs, unmarkedItems]

end

theorem length_unmarkedMembers_le (ms : Members) : (unmarkedMembers ms).length ≤ ms.length := by
  induction ms with
  | nil => exact Nat.le_refl _
  | cons m ms ih =>
    obtain ⟨name, v⟩ := m
    rw [unmarkedMembers]
    split
    · exact Nat.le_succ_of_le ih
    · exact Nat.succ_le_succ ih

/-- In an object without marks no member is a mark, and none has a mark in it. -/
theorem of_unmarkedMembers_eq_self (h : unmarkedMembers ms = ms) :
    Datum.find? contractMark ms = none ∧ ∀ m ∈ ms, unmarked m.2 = m.2 := by
  induction ms with
  | nil => exact ⟨rfl, by simp⟩
  | cons m ms ih =>
    obtain ⟨name, v⟩ := m
    rw [unmarkedMembers] at h
    split at h
    next =>
      have hlength := congrArg List.length h
      have hle := length_unmarkedMembers_le ms
      rw [List.length_cons] at hlength
      omega
    next hname =>
      simp only [List.cons.injEq, Prod.mk.injEq, true_and] at h
      obtain ⟨hfind, hmembers⟩ := ih h.2
      refine ⟨by simp [Datum.find?, hname, hfind], ?_⟩
      intro m hm
      rcases List.mem_cons.1 hm with rfl | hm
      · exact h.1
      · exact hmembers m hm

theorem of_unmarkedItems_eq_self {xs : List Datum} (h : unmarkedItems xs = xs) :
    ∀ x ∈ xs, unmarked x = x := by
  induction xs with
  | nil => simp
  | cons x xs ih =>
    simp only [unmarkedItems, List.cons.injEq] at h
    intro y hy
    rcases List.mem_cons.1 hy with rfl | hy
    · exact h.1
    · exact ih h.2 y hy

/-- Steps in a tree without marks lead to objects without marks. -/
theorem unmarkedMembers_of_follow? {s : Step} {inner : Members} (h : unmarkedMembers ms = ms)
    (hs : follow? ms s = some inner) : unmarkedMembers inner = inner := by
  obtain ⟨-, name, v, hget, -, hin⟩ := follow?_eq_some.1 hs
  have hv := (of_unmarkedMembers_eq_self h).2 _ (List.mem_of_getElem? hget)
  unfold objectIn? at hin
  split at hin
  next ms' =>
    cases hin
    simpa only [unmarked, Datum.object.injEq] using hv
  next xs j =>
    simp only [unmarked, Datum.list.injEq] at hv
    split at hin
    next ms' hitem =>
      cases hin
      have hx := of_unmarkedItems_eq_self hv _ (List.mem_of_getElem? hitem)
      simpa only [unmarked, Datum.object.injEq] using hx
    next => cases hin
  next => cases hin

theorem Reached.unmarkedMembers {ast : Datum} {path : List Step} {above : List Members}
    (hast : unmarked ast = ast) (h : Reached ast path above ms) :
    Ast.unmarkedMembers ms = ms := by
  induction h with
  | root hroot =>
    subst hroot
    simpa only [unmarked, Datum.object.injEq] using hast
  | step _ hs ih => exact unmarkedMembers_of_follow? ih hs

end Ast

end StorageSnapshot

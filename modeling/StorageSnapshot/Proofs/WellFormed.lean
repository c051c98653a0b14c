-- SUMMARY: Well-formed types, the resolvers that give only such types, and what both promise.
import StorageSnapshot.Proofs.Writable

/-!
# Well-formed types

A type is well formed if the values of every value type in it have a size of at least one byte and
at most a word, its names are texts, and its lengths can be written, as those of all arrays can that
fit in storage. The parts that are only known as nodes are well formed if their nodes lie in a set
of nodes that the resolver stays in: whatever a node of the set resolves to is well formed with its
nodes in the set. The nodes of a type that refers to itself may be in it.
-/

namespace StorageSnapshot

/-! ## Types -/

/-- Whether the values of a shape have a size that fits in a word. -/
def Shape.IsSized : Shape → Prop
  | .int _ | .bool | .address => True
  | .fixedBytes size => 0 < size ∧ size ≤ wordSize
  | .bare => False

def Datum.IsText (d : Datum) : Prop := ∃ s, d = .text s

theorem Datum.IsText.checkText {d : Datum} (h : d.IsText) : d.checkText = .ok () := by
  obtain ⟨s, rfl⟩ := h
  rfl

/-- Whether a declaration has a text as its name, and the name of its contract can be written. -/
def Declaration.IsNamed (d : Declaration) : Prop := d.name.IsText ∧ d.IsWritable

mutual

/-- Whether a type is well formed whose nodes are to lie in `nodes`. -/
def Ty.WellFormed (nodes : Datum → Prop) : Ty → Prop
  | .elementary e => e.shape.IsSized
  | .bytes | .string => True
  | .mapping _ _ key value => key.WellFormed nodes ∧ value.WellFormed nodes
  | .array _ _ element length =>
    element.WellFormed nodes ∧ ∀ n, length = some n → Text.isWritable n = true
  | .enum d _ members => d.IsNamed ∧ members.length ≤ Slot.count
  | .struct d members => d.canonicalName.isWritable = true ∧ Member.AllWellFormed nodes members
  | .aliasOf d underlying => d.IsNamed ∧ underlying.isPointer = false ∧ underlying.WellFormed nodes
  | .aliasNode d node => d.IsNamed ∧ nodes node
  | .contract name _ => name.IsText

def Member.AllWellFormed (nodes : Datum → Prop) : List Member → Prop
  | [] => True
  | m :: ms => m.WellFormed nodes ∧ Member.AllWellFormed nodes ms

def Member.WellFormed (nodes : Datum → Prop) : Member → Prop
  | .attached _ type => type.WellFormed nodes
  | .node _ typeName => nodes typeName

end

/-- Whether a resolver gives a well-formed type for each of these nodes or says that it cannot, and
gives no nodes but these. -/
def Resolver.Resolves (r : Resolver) (nodes : Datum → Prop) : Prop :=
  ∀ node, nodes node →
    (∃ t, (r.typeOfName node).result = .ok t ∧ t.WellFormed nodes) ∨
      ∃ e, (r.typeOfName node).result = .error (.unresolved e)

/-- A resolver is not asked for types without nodes. -/
theorem Resolver.resolves_none (r : Resolver) : r.Resolves fun _ => False := fun _ h => h.elim

variable {nodes : Datum → Prop} {r : Resolver} {t : Ty}

/-! ## Names -/

theorem isText_qualifiedName {d : Declaration} (h : d.name.IsText) :
    (Ty.qualifiedName d).IsText := by
  unfold Ty.qualifiedName
  split
  next => exact h
  next outer => exact ⟨_, rfl⟩

/-- A well-formed type is called by a text. -/
theorem Ty.WellFormed.isText_called (h : t.WellFormed nodes) : t.called.IsText := by
  cases t with
  | enum d _ _ => exact isText_qualifiedName h.1.1
  | aliasOf d _ => exact isText_qualifiedName h.1.1
  | aliasNode d _ => exact isText_qualifiedName h.1.1
  | contract name _ => exact h
  | _ => exact ⟨_, rfl⟩

/-- What a well-formed type is called can be put together. -/
theorem Ty.WellFormed.checkCalled : ∀ {t : Ty}, t.WellFormed nodes → t.checkCalled = .ok ()
  | .mapping _ _ key value, h => by
    have hkey := Ty.WellFormed.isText_called (t := key) h.1
    have hvalue := Ty.WellFormed.isText_called (t := value) h.2
    rw [Ty.checkCalled, Ty.WellFormed.checkCalled (t := key) h.1, ok_bind, hkey.checkText, ok_bind,
      Ty.WellFormed.checkCalled (t := value) h.2, ok_bind, hvalue.checkText]
  | .array _ _ element _, h => by
    obtain ⟨s, hs⟩ := Ty.WellFormed.isText_called (t := element) h.1
    rw [Ty.checkCalled, Ty.WellFormed.checkCalled (t := element) h.1, ok_bind,
      Ty.checkBrackets_eq_ok.2 h.2, ok_bind, hs]
  | .struct .., h => Datum.checkText_eq_ok.2 h.1
  | .enum .., h | .aliasOf .., h | .aliasNode .., h => h.1.2.checkQualifiedName
  | .elementary _, _ | .bytes, _ | .string, _ | .contract .., _ => rfl

/-- A well-formed type can be written. -/
theorem Ty.WellFormed.checkName (h : t.WellFormed nodes) : t.checkName = .ok () := by
  rw [Ty.checkName_eq_checkCalled h.isText_called.checkText, h.checkCalled]

theorem Ty.WellFormed.shownSource (h : t.WellFormed nodes) : ∃ s, t.shownSource = .ok s := by
  obtain ⟨s, hs⟩ := h.isText_called
  rw [Ty.shownSource, h.checkCalled, ok_bind, hs]
  exact ⟨s, rfl⟩

/-! ## Parts known as nodes -/

theorem Resolver.Resolves.memberType (hr : r.Resolves nodes) {m : Member}
    (h : m.WellFormed nodes) :
    (∃ t, (r.memberType m).result = .ok t ∧ t.WellFormed nodes) ∨
      ∃ e, (r.memberType m).result = .error (.unresolved e) := by
  cases m with
  | attached _ type => exact .inl ⟨type, rfl, h⟩
  | node _ typeName => exact hr typeName h

theorem Resolver.Resolves.elementaryOfAlias (hr : r.Resolves nodes) {d : Declaration}
    {node : Datum} (hd : d.IsNamed) (h : nodes node) :
    (∃ e, (r.elementaryOfAlias d node).result = .ok e ∧ e.shape.IsSized) ∨
      ∃ e, (r.elementaryOfAlias d node).result = .error (.unresolved e) := by
  rw [Resolver.elementaryOfAlias, Traced.result_bind]
  rcases hr node h with ⟨t, ht, hwf⟩ | ⟨e, he⟩
  · rw [ht, ok_bind]
    cases t with
    | elementary e => exact .inl ⟨e, rfl, hwf⟩
    | _ =>
      obtain ⟨s, hs⟩ := hwf.shownSource
      refine .inr ⟨_, congrArg Except.error (Fault.ofUnresolved_of_check ?_)⟩
      rw [Unresolved.check, hs, ok_bind, hd.2.checkQualifiedName, ok_bind, hd.2.checkText]
  · rw [he, error_bind]
    exact .inr ⟨e, rfl⟩

/-! ## Sizes -/

theorem Shape.IsSized.size {s : Shape} (h : s.IsSized) :
    ∃ size, Resolver.sizeOfShape? s = some size ∧ 0 < size ∧ size ≤ wordSize := by
  cases s with
  | int t => exact ⟨t.size, rfl, t.size_pos, t.size_le⟩
  | bool => exact ⟨1, rfl, by decide, by decide⟩
  | fixedBytes size => exact ⟨size, rfl, h⟩
  | address => exact ⟨addressSize, rfl, by decide, by decide⟩
  | bare => exact h.elim

theorem Resolver.result_sizeOfElementary {e : Elementary} {size : Nat}
    (h : Resolver.sizeOfShape? e.shape = some size) :
    (Resolver.sizeOfElementary e).result = .ok size := by
  simp only [Resolver.sizeOfElementary, h]
  rfl

/-- Values of a well-formed value type take at least a byte and at most a word, if it resolves. -/
theorem Ty.WellFormed.sizeOf (hr : r.Resolves nodes) :
    ∀ {t : Ty}, t.WellFormed nodes → t.isPointer = false →
      (∃ size, (r.sizeOf t).result = .ok size ∧ 0 < size ∧ size ≤ wordSize) ∨
        ∃ e, (r.sizeOf t).result = .error (.unresolved e)
  | .elementary e, h, _ => by
    obtain ⟨size, hsize, hbounds⟩ := Shape.IsSized.size h
    exact .inl ⟨size, Resolver.result_sizeOfElementary hsize, hbounds⟩
  | .contract .., _, _ => .inl ⟨addressSize, rfl, by decide, by decide⟩
  | .enum _ _ members, _, _ =>
    .inl ⟨(Ty.ordinals members).size, rfl, (Ty.ordinals members).size_pos,
      (Ty.ordinals members).size_le⟩
  | .aliasOf _ underlying, h, _ => Ty.WellFormed.sizeOf hr (t := underlying) h.2.2 h.2.1
  | .aliasNode d node, h, _ => by
    rw [Resolver.sizeOf, Traced.result_bind]
    rcases hr.elementaryOfAlias h.1 h.2 with ⟨e, he, hsized⟩ | ⟨e, he⟩
    · obtain ⟨size, hsize, hbounds⟩ := hsized.size
      rw [he, ok_bind]
      exact .inl ⟨size, Resolver.result_sizeOfElementary hsize, hbounds⟩
    · rw [he, error_bind]
      exact .inr ⟨e, rfl⟩
  | .bytes, _, h | .string, _, h | .mapping .., _, h | .array .., _, h | .struct .., _, h => by
    cases h

/-! ## Places -/

/-- Pointer types start at fresh words. -/
theorem Resolver.result_place_pointer (h : t.isPointer = true) (c : Cursor) :
    (r.place t c).result = .ok c.roundUp := by
  rw [Resolver.place, Traced.result_bind, Resolver.fits, if_pos h, Traced.result_pure, ok_bind,
    Cursor.roundUp]
  cases c.isFresh <;> rfl

/-- Value types share a word if they fit in what is left of it. -/
theorem Resolver.result_place_value {size : Nat} (h : t.isPointer = false)
    (hsize : (r.sizeOf t).result = .ok size) (hle : size ≤ wordSize) (c : Cursor) :
    (r.place t c).result = .ok (if size ≤ c.free then c else c.nextWord) := by
  rw [Resolver.place, Traced.result_bind, Resolver.fits, if_neg (by simp [h]), Traced.result_bind,
    hsize, ok_bind, if_neg (by omega), Traced.result_pure, ok_bind]
  by_cases hfree : size ≤ c.free
  · simp [hfree]
  · simp [hfree]

theorem Resolver.result_place_error {e : Fault} (h : t.isPointer = false)
    (hsize : (r.sizeOf t).result = .error e) (c : Cursor) :
    (r.place t c).result = .error e := by
  rw [Resolver.place, Traced.result_bind, Resolver.fits, if_neg (by simp [h]), Traced.result_bind,
    hsize, error_bind, error_bind]

/-! ## Moves -/

/-- Consuming bytes of a word stays in it, or ends at the next one with the last byte. -/
theorem Cursor.advance_eq_ok {c next : Cursor} {size : Nat} :
    c.advance size = .ok next ↔
      (size = c.free ∧ next = c.nextWord) ∨
        (size < c.free ∧ next.slot = c.slot ∧ next.free = c.free - size) := by
  have hle := c.free_le
  unfold Cursor.advance
  by_cases hgt : (size : Int) > c.free
  · rw [if_pos hgt]
    simp only [reduceCtorEq, false_iff, not_or, not_and]
    exact ⟨by omega, by omega⟩
  rw [if_neg hgt]
  by_cases heq : (size : Int) = c.free
  · rw [if_pos heq, Except.ok.injEq]
    have hnat : size = c.free := by omega
    simp [hnat, eq_comm]
  rw [if_neg heq, Cursor.ofFree, dif_pos (by omega), Except.ok.injEq]
  have hfree : ((c.free : Int) - size).toNat = c.free - size := by omega
  constructor
  · rintro rfl
    exact .inr ⟨by omega, rfl, hfree⟩
  · rintro (⟨h, -⟩ | ⟨-, hslot, hnext⟩)
    · omega
    · obtain ⟨slot, free, _, _⟩ := next
      simp only at hslot hnext
      subst hslot hnext
      simp only [hfree]

theorem Cursor.advance_ok {c : Cursor} {size : Nat} (h : size ≤ c.free) :
    ∃ next, c.advance size = .ok next := by
  rcases Nat.lt_or_eq_of_le h with hlt | heq
  · have hle := c.free_le
    exact ⟨⟨c.slot, c.free - size, by omega, by omega⟩,
      Cursor.advance_eq_ok.2 (.inr ⟨hlt, rfl, rfl⟩)⟩
  · exact ⟨c.nextWord, Cursor.advance_eq_ok.2 (.inl ⟨heq, rfl⟩)⟩

end StorageSnapshot

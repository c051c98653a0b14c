-- SUMMARY: Where decoding leads: over the space that the type takes, whatever the value is.
import StorageSnapshot.Proofs.Packed
import StorageSnapshot.Proofs.Packing

/-!
# Where decoding leads

The place behind a decoded value does not depend on the value: decoding passes over the space that
the packing algorithm gives to the type. So the cursor that decoding threads through the members of
a struct stays at the positions of the algorithm.
-/

namespace StorageSnapshot

variable {nodes : Datum → Prop} {r : Resolver} {t : Ty} {p q : Position} {base : Slot}
  {c next : Cursor} {space : Space}

/-! ## Positions -/

/-- Whether a space lies between two cursors. -/
def Space.Passes : Space → Cursor → Cursor → Prop
  | bytes size, c, next => c.advance size = .ok next
  | words count, c, next => next = .fresh (c.slot + BitVec.ofNat 256 count)

/-- Whether a value of some type can take a space. -/
def Space.IsSized : Space → Prop
  | bytes size => 0 < size ∧ size ≤ wordSize
  | words _ => True

theorem Takes.isSized (hr : r.Resolves nodes) (ht : t.WellFormed nodes) (h : Takes r t space) :
    space.IsSized := by
  cases hpointer : t.isPointer with
  | true =>
    obtain ⟨count, rfl⟩ := h.eq_words hpointer
    trivial
  | false =>
    obtain ⟨size, rfl, hsize⟩ := h.eq_bytes hpointer
    rcases ht.sizeOf hr hpointer with ⟨size', hsize', hbounds⟩ | ⟨e, he⟩
    · rw [hsize, Except.ok.injEq] at hsize'
      exact hsize' ▸ hbounds
    · rw [hsize] at he
      cases he

/-- A space has its own start where a value that takes it starts. -/
theorem Takes.starts (h : Takes r t space) : Starts r t p (space.start p) := by
  cases hpointer : t.isPointer with
  | true =>
    obtain ⟨count, rfl⟩ := h.eq_words hpointer
    exact .pointer hpointer
  | false =>
    obtain ⟨size, rfl, hsize⟩ := h.eq_bytes hpointer
    exact .value hpointer hsize

/-- A value of a pointer type starts at a fresh word. -/
theorem Takes.used_start (hspace : Takes r t space) (hpointer : t.isPointer = true)
    (p : Position) : (space.start p).used = 0 := by
  obtain ⟨count, rfl⟩ := hspace.eq_words hpointer
  exact p.used_freshWord

theorem Takes.isFresh_of_start (hspace : Takes r t space) (h : (space.start p).At base c)
    (hpointer : t.isPointer = true) : c.isFresh = true :=
  h.isFresh_iff.2 (by rw [hspace.used_start hpointer]; rfl)

/-- No value starts at a word whose bytes are all used. -/
theorem Starts.used_lt (hr : r.Resolves nodes) (ht : t.WellFormed nodes) (h : Starts r t p q) :
    q.used < wordSize := by
  cases h with
  | value hpointer hsize =>
    obtain ⟨hpos, hle⟩ : 0 < _ ∧ _ ≤ wordSize := (Takes.value hpointer hsize).isSized hr ht
    rw [Space.start]
    split
    next => omega
    next => exact Nat.lt_of_lt_of_le hpos hle
  | pointer _ =>
    rw [p.used_freshWord]
    decide

/-- Values of types that are known have a place behind any other. -/
theorem Resolver.Resolves.place_ok (hr : r.Resolves nodes) (ht : t.WellFormed nodes)
    (hsize : t.isPointer = false → ∃ size, (r.sizeOf t).result = .ok size) (c : Cursor) :
    ∃ place, (r.place t c).result = .ok place := by
  cases hpointer : t.isPointer with
  | true => exact ⟨_, Resolver.result_place_pointer hpointer c⟩
  | false =>
    obtain ⟨size, hsize⟩ := hsize hpointer
    obtain ⟨-, hle⟩ : 0 < size ∧ size ≤ wordSize := (Takes.value hpointer hsize).isSized hr ht
    exact ⟨_, Resolver.result_place_value hpointer hsize hle c⟩

/-- A place is the cursor at the position where a value starts. -/
theorem Position.At.place (h : p.At base c) (hr : r.Resolves nodes) (ht : t.WellFormed nodes)
    {place : Cursor} (hplace : (r.place t c).result = .ok place) :
    ∃ q, Starts r t p q ∧ q.At base place ∧ (t.isPointer = true → place.isFresh = true) := by
  cases hpointer : t.isPointer with
  | true =>
    rw [Resolver.result_place_pointer hpointer, Except.ok.injEq] at hplace
    subst hplace
    exact ⟨_, .pointer hpointer, h.roundUp, fun _ => c.isFresh_roundUp⟩
  | false =>
    rcases ht.sizeOf hr hpointer with ⟨size, hsize, hpos, hle⟩ | ⟨e, he⟩
    · rw [Resolver.result_place_value hpointer hsize hle, Except.ok.injEq] at hplace
      subst hplace
      exact ⟨_, .value hpointer hsize, h.startBytes hpos hle, nofun⟩
    · rw [Resolver.result_place_error hpointer he] at hplace
      cases hplace

/-- What passes over a space from where it starts leads to the position behind it. -/
theorem Position.At.behind (h : (space.start p).At base c) (hsized : space.IsSized)
    (hpass : space.Passes c next) : (space.behind p).At base next := by
  cases space with
  | bytes size =>
    obtain ⟨hpos, hle⟩ := hsized
    refine h.advance hpos ?_ hpass
    rw [Space.start]
    split
    next hroom => exact hroom
    next => simpa using hle
  | words count =>
    rw [Space.Passes] at hpass
    subst hpass
    exact h.words p.used_freshWord count

namespace Decode

variable {ctx : Context} {nested deeper : Nested}

/-- Whether what decodes well-formed types passes over the space that they take. -/
def Moves (r : Resolver) (nodes : Datum → Prop) (nested : Nested) : Prop :=
  ∀ t c v next, t.WellFormed nodes → (t.isPointer = true → c.isFresh = true) →
    (nested t c).result = .ok (v, next) → ∃ space, Takes r t space ∧ space.Passes c next

/-! ## Members -/

/-- One member: it starts at its position, and what follows it comes at the position behind it. -/
theorem Moves.member (hmoves : Moves r nodes nested) (hr : r.Resolves nodes)
    (ht : t.WellFormed nodes) (h : p.At base c) {place : Cursor} {v : Value}
    (hplace : (r.place t c).result = .ok place) (hv : (nested t place).result = .ok (v, next)) :
    ∃ space, Takes r t space ∧ (space.start p).At base place ∧ (space.behind p).At base next := by
  obtain ⟨q, hstarts, hq, hfresh⟩ := h.place hr ht hplace
  obtain ⟨space, hspace, hpass⟩ := hmoves t place v next ht hfresh hv
  rw [hstarts.unique hspace.starts] at hq
  exact ⟨space, hspace, hq, hq.behind (hspace.isSized hr ht) hpass⟩

/-- One element of a row: what follows it has a place where another one of the type starts. -/
theorem Moves.element (hmoves : Moves r nodes nested) (hr : r.Resolves nodes)
    (ht : t.WellFormed nodes) (hspace : Takes r t space) (h : (space.start p).At base c)
    {v : Value} (hv : (nested t c).result = .ok (v, next)) :
    ∃ place, (r.place t next).result = .ok place ∧
      (space.start (space.behind p)).At base place := by
  obtain ⟨space', hspace', hpass⟩ := hmoves t c v next ht (hspace.isFresh_of_start h) hv
  rw [hspace'.unique hspace] at hpass
  have hnext := h.behind (hspace.isSized hr ht) hpass
  obtain ⟨place, hplace⟩ := hr.place_ok ht (fun hpointer =>
    (hspace.eq_bytes hpointer).imp fun _ hsize => hsize.2) next
  obtain ⟨q, hstarts, hq, -⟩ := hnext.place hr ht hplace
  rw [hstarts.unique hspace.starts] at hq
  exact ⟨place, hplace, hq⟩

/-- Decoding members ends at the position behind them. -/
theorem Moves.fields (hmoves : Moves ctx.resolver nodes nested) (hr : ctx.resolver.Resolves nodes)
    {ms : List Member} (hms : Member.AllWellFormed nodes ms) (h : p.At base c)
    {fs : List (Datum × Value)} (hok : (fields ctx nested [] ms c).result = .ok (fs, next)) :
    ∃ q, Ends ctx.resolver p ms q ∧ q.At base next := by
  induction ms generalizing p c fs with
  | nil =>
    rw [result_fields_nil, Except.ok.injEq, Prod.mk.injEq] at hok
    exact ⟨p, .nil, hok.2 ▸ h⟩
  | cons m ms ih =>
    rw [result_fields_cons] at hok
    obtain ⟨type, htype, hok⟩ := bind_eq_ok.1 hok
    obtain ⟨place, hplace, hok⟩ := bind_eq_ok.1 hok
    obtain ⟨⟨v, c'⟩, hv, hok⟩ := bind_eq_ok.1 hok
    obtain ⟨⟨fs', next'⟩, hrest, hok⟩ := bind_eq_ok.1 hok
    simp only [Except.ok.injEq, Prod.mk.injEq] at hok
    obtain ⟨-, rfl⟩ := hok
    rw [mapError_eq_ok] at htype hplace
    have hwf : type.WellFormed nodes := by
      rcases hr.memberType hms.1 with ⟨t, ht, hwf⟩ | ⟨e, he⟩
      · rw [htype, Except.ok.injEq] at ht
        exact ht ▸ hwf
      · rw [htype] at he
        cases he
    obtain ⟨space, hspace, -, hc'⟩ := hmoves.member hr hwf h hplace hv
    obtain ⟨q, hends, hq⟩ := ih hms.2 hc' hrest
    exact ⟨q, .cons htype hspace hends, hq⟩

/-! ## Types -/

theorem byteString_eq_ok {type : Ty} {raw : Bytes}
    (h : (byteString ctx type c).result = .ok (raw, next)) : next = c.nextWord := by
  simp only [byteString, Traced.result_bind] at h
  obtain ⟨-, -, h⟩ := bind_eq_ok.1 h
  obtain ⟨header, -, h⟩ := bind_eq_ok.1 h
  split at h
  next =>
    split at h
    next => cases h
    next =>
      simp only [Traced.result_pure, Except.ok.injEq, Prod.mk.injEq] at h
      exact h.2.symm
  next =>
    split at h
    next => cases h
    next =>
      rw [Traced.result_bind] at h
      obtain ⟨contents, -, h⟩ := bind_eq_ok.1 h
      simp only [Traced.result_pure, Except.ok.injEq, Prod.mk.injEq] at h
      exact h.2.symm

theorem Moves.struct (hmoves : Moves ctx.resolver nodes nested) (hr : ctx.resolver.Resolves nodes)
    {type : Ty} {d : Declaration} {ms : List Member} (hms : Member.AllWellFormed nodes ms)
    (hc : c.isFresh = true) {v : Value}
    (hok : (struct ctx nested type ms c).result = .ok (v, next)) :
    ∃ space, Takes ctx.resolver (.struct d ms) space ∧ space.Passes c next := by
  rw [result_struct hc] at hok
  obtain ⟨⟨fs, behind⟩, hfields, hok⟩ := bind_eq_ok.1 hok
  simp only [Except.ok.injEq, Prod.mk.injEq] at hok
  have hstart : (⟨0, 0⟩ : Position).At c.slot c := by
    have h := Position.At.fresh c.slot
    rwa [← Cursor.eq_fresh_of_isFresh hc] at h
  obtain ⟨q, hends, hq⟩ := hmoves.fields hr hms hstart hfields
  refine ⟨_, .struct hends, ?_⟩
  rw [← hok.2]
  exact hq.roundUp.eq_fresh q.used_freshWord

/-- Every type passes over the space that it takes if its parts do. -/
theorem Moves.atType (hmoves : Moves ctx.resolver nodes nested)
    (hr : ctx.resolver.Resolves nodes) : Moves ctx.resolver nodes (atType ctx nested)
  | .elementary e, c, v, next, _, _, h => by
    have hbody := result_entering_eq_ok h
    rw [result_stepExcept, mapError_eq_ok] at hbody
    obtain ⟨size, hsize, hadvance⟩ := elementary_eq_ok hbody
    exact ⟨.bytes size, .value rfl (Resolver.result_sizeOfElementary hsize), hadvance⟩
  | .contract .., c, v, next, _, _, h => by
    have hbody := result_entering_eq_ok h
    rw [result_stepExcept, mapError_eq_ok] at hbody
    exact ⟨.bytes addressSize, .value rfl rfl, address_eq_ok hbody⟩
  | .enum _ _ members, c, v, next, _, _, h => by
    have hbody := result_entering_eq_ok h
    rw [result_stepExcept, mapError_eq_ok] at hbody
    exact ⟨.bytes (Ty.ordinals members).size, .value rfl rfl, enum_eq_ok hbody⟩
  | .aliasOf d underlying, c, v, next, hwf, _, h => by
    have hbody := result_entering_eq_ok h
    have hvalue := hwf.2.1
    obtain ⟨space, hspace, hpass⟩ :=
      Moves.atType hmoves hr underlying c v next hwf.2.2 (by simp [hvalue]) hbody
    obtain ⟨size, rfl, hsize⟩ := hspace.eq_bytes hvalue
    exact ⟨.bytes size, .value rfl hsize, hpass⟩
  | .aliasNode d node, c, v, next, _, _, h => by
    have hbody := result_entering_eq_ok h
    rw [Traced.result_bind, result_step] at hbody
    obtain ⟨e, he, hbody⟩ := bind_eq_ok.1 hbody
    rw [mapError_eq_ok] at he
    have hvalue := result_entering_eq_ok hbody
    rw [result_stepExcept, mapError_eq_ok] at hvalue
    obtain ⟨size, hsize, hadvance⟩ := elementary_eq_ok hvalue
    refine ⟨.bytes size, .value rfl ?_, hadvance⟩
    rw [Resolver.sizeOf, Traced.result_bind, he, ok_bind, Resolver.result_sizeOfElementary hsize]
  | .bytes, c, v, next, _, _, h => by
    have hbody := result_entering_eq_ok h
    rw [Traced.result_bind] at hbody
    obtain ⟨⟨raw, behind⟩, hraw, hbody⟩ := bind_eq_ok.1 hbody
    simp only [Traced.result_pure, Except.ok.injEq, Prod.mk.injEq] at hbody
    exact ⟨.words 1, .bytes, hbody.2 ▸ byteString_eq_ok hraw⟩
  | .string, c, v, next, _, _, h => by
    have hbody := result_entering_eq_ok h
    rw [Traced.result_bind] at hbody
    obtain ⟨⟨raw, behind⟩, hraw, hbody⟩ := bind_eq_ok.1 hbody
    simp only [Traced.result_pure, Except.ok.injEq, Prod.mk.injEq] at hbody
    exact ⟨.words 1, .string, hbody.2 ▸ byteString_eq_ok hraw⟩
  | .array .., c, v, next, _, _, h => by
    have hbody := result_entering_eq_ok h
    rw [result_array] at hbody
    obtain ⟨start, -, hbody⟩ := bind_eq_ok.1 hbody
    obtain ⟨vs, -, hbody⟩ := bind_eq_ok.1 hbody
    simp only [Except.ok.injEq, Prod.mk.injEq] at hbody
    exact ⟨.words 1, .array, hbody.2.symm⟩
  | .struct _ _, _, _, _, hwf, hfresh, h =>
    hmoves.struct hr hwf.2 (hfresh rfl) (result_entering_eq_ok h)
  | .mapping .., _, _, _, _, _, h => by
    have hbody := result_entering_eq_ok h
    cases hbody

theorem Moves.within (hmoves : Moves ctx.resolver nodes deeper)
    (hr : ctx.resolver.Resolves nodes) (budget : Nat) :
    Moves ctx.resolver nodes (within ctx deeper budget) := by
  induction budget with
  | zero => exact hmoves
  | succ budget ih => exact ih.atType hr

theorem result_tooDeep_ne_ok (t : Ty) (c : Cursor) (a : Decoded Value) :
    (tooDeep ctx t c).result ≠ .ok a := by
  rw [tooDeep, Traced.result_bind]
  intro h
  obtain ⟨u, -, h⟩ := bind_eq_ok.1 h
  cases h

/-- Decoding at any depth passes over the space that the type takes. -/
theorem moves_value (hr : ctx.resolver.Resolves nodes) (depth : Int) :
    Moves ctx.resolver nodes (value ctx depth) :=
  Moves.within (fun t c _ _ _ _ h => absurd h (result_tooDeep_ne_ok t c _)) hr _

end Decode

end StorageSnapshot

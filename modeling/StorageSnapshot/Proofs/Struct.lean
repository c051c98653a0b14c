-- SUMMARY: Decoding a struct decodes each member where the packing algorithm puts it.
import StorageSnapshot.Proofs.Moves

/-!
# Structs

A struct is decoded member by member with one cursor that runs through them all. Where a member is
decoded is nonetheless determined by the types in front of it: it is the place that the packing
algorithm gives to it. What becomes of the struct is what becomes of the members in order.
-/

namespace StorageSnapshot

variable {nodes : Datum → Prop} {r : Resolver} {t : Ty} {p q : Position} {base : Slot}
  {c next : Cursor} {space : Space}

/-! ## Members that resolve -/

/-- Whether the type of a member is known and well formed, and its size too if it has one. -/
def Member.Resolved (r : Resolver) (nodes : Datum → Prop) (m : Member) : Prop :=
  ∃ t, (r.memberType m).result = .ok t ∧ t.WellFormed nodes ∧
    (t.isPointer = false → ∃ size, (r.sizeOf t).result = .ok size)

/-- Positions with bytes left are places, counted as the compiler counts. -/
theorem Position.At.ofOffset (h : q.At 0 c) (hused : q.used < wordSize) :
    Cursor.ofOffset (q.slot % Slot.count : Nat) q.used = .ok c := by
  have hslot := h.slot_eq
  have hfree := h.free_eq
  have hsmall : wordSize = 32 := rfl
  rw [Nat.div_eq_of_lt hused, Nat.add_zero, show (0 : Slot) = 0#256 from rfl,
    BitVec.zero_add] at hslot
  rw [Nat.mod_eq_of_lt hused] at hfree
  have hnumber : (BitVec.ofInt 256 ((q.slot % Slot.count : Nat) : Int)) = c.slot := by
    rw [BitVec.ofInt_natCast, hslot, Slot.count_eq]
    exact BitVec.eq_of_toNat_eq (by simp)
  have hlt : ((q.slot % Slot.count : Nat) : Int) < Slot.count := by
    exact_mod_cast Nat.mod_lt _ (Bytes.count_pos wordSize)
  rw [Cursor.ofOffset, Cursor.make, Slot.ofInt?, if_pos ⟨by omega, hlt⟩, hnumber]
  dsimp only
  rw [Cursor.ofFree, dif_pos (by omega)]
  obtain ⟨slot, free, _, _⟩ := c
  simp only at hfree
  congr 2
  omega

namespace Decode

variable {ctx : Context} {nested : Nested}

/-! ## What becomes of members -/

/-- What becomes of member `i` of those that follow each other from a position on: what its decoding
comes to at the place that packing gives to it. -/
def MemberOutcome (ctx : Context) (nested : Nested) (p : Position) (ms : List Member) (i : Nat)
    (outcome : Except Halt (Decoded Value)) : Prop :=
  ∃ t q c, Placed ctx.resolver p ms i t q ∧
    Cursor.ofOffset (q.slot % Slot.count : Nat) q.used = .ok c ∧ (nested t c).result = outcome

/-- Whether the values of its members make a struct at a slot, which ends at the first fresh word
behind all of them. -/
def MakesStruct (r : Resolver) (slot : Slot) (ms : List Member) (vs : List Value)
    (a : Decoded Value) : Prop :=
  ∃ q, Ends r ⟨slot.toNat, 0⟩ ms q ∧
    a = (.struct ((ms.map Member.name).zip vs), .fresh (BitVec.ofNat 256 q.freshWord.slot))

/-- What becomes of a struct at a slot. -/
def StructOutcome (ctx : Context) (nested : Nested) (slot : Slot) (ms : List Member) :
    Except Halt (Decoded Value) → Prop :=
  Composed (MemberOutcome ctx nested ⟨slot.toNat, 0⟩ ms) ms.length
    (MakesStruct ctx.resolver slot ms)

theorem MemberOutcome.unique {ms : List Member} {i : Nat} {a b : Except Halt (Decoded Value)}
    (ha : MemberOutcome ctx nested p ms i a) (hb : MemberOutcome ctx nested p ms i b) : a = b := by
  obtain ⟨t, q, c, hplaced, hc, rfl⟩ := ha
  obtain ⟨t', q', c', hplaced', hc', rfl⟩ := hb
  obtain ⟨rfl, rfl⟩ := hplaced.unique hplaced'
  rw [hc, Except.ok.injEq] at hc'
  rw [hc']

theorem MakesStruct.unique {slot : Slot} {ms : List Member} {vs : List Value} {a b : Decoded Value}
    (ha : MakesStruct r slot ms vs a) (hb : MakesStruct r slot ms vs b) : a = b := by
  obtain ⟨q, hq, rfl⟩ := ha
  obtain ⟨q', hq', rfl⟩ := hb
  rw [hq.unique hq']

/-! ## Fields -/

/-- Whether the values of members from a position on make these fields, with a place behind them. -/
private def MakesFields (r : Resolver) (p : Position) (ms : List Member) (vs : List Value)
    (a : Decoded (List (Datum × Value))) : Prop :=
  a.1 = (ms.map Member.name).zip vs ∧ ∃ q, Ends r p ms q ∧ q.At 0 a.2

/-- The cursor is at the position that packing has come to, member by member. -/
private theorem fields_composed (hmoves : Moves ctx.resolver nodes nested)
    (hr : ctx.resolver.Resolves nodes) {ms : List Member}
    (hms : ∀ m ∈ ms, m.Resolved ctx.resolver nodes) (h : p.At 0 c) :
    Composed (MemberOutcome ctx nested p ms) ms.length (MakesFields ctx.resolver p ms)
      (fields ctx nested [] ms c).result := by
  induction ms generalizing p c with
  | nil => exact .done .zero ⟨rfl, p, .nil, h⟩
  | cons m ms ih =>
    obtain ⟨t, htype, ht, hsize⟩ := hms m (List.mem_cons_self ..)
    obtain ⟨place, hplace⟩ := hr.place_ok ht hsize c
    obtain ⟨q, hstarts, hq, -⟩ := h.place hr ht hplace
    have hfirst : MemberOutcome ctx nested p (m :: ms) 0 (nested t place).result :=
      ⟨t, q, place, .first htype hstarts, hq.ofOffset (hstarts.used_lt hr ht), rfl⟩
    rw [result_fields_cons, htype, mapError_ok, ok_bind, hplace, mapError_ok, ok_bind]
    cases hv : (nested t place).result with
    | error halt =>
      rw [hv] at hfirst
      exact .stopped (.stop hfirst)
    | ok found =>
      obtain ⟨v, next⟩ := found
      rw [hv] at hfirst
      obtain ⟨space, hspace, -, hnext⟩ := hmoves.member hr ht h hplace hv
      have hlater : ∀ i a, MemberOutcome ctx nested (space.behind p) ms i a →
          MemberOutcome ctx nested p (m :: ms) (i + 1) a := by
        rintro i a ⟨u, q, c, hplaced, hrest⟩
        exact ⟨u, q, c, .later htype hspace hplaced, hrest⟩
      have hrest := ih (fun n hn => hms n (List.mem_cons_of_mem m hn)) hnext
      rw [ok_bind]
      generalize (fields ctx nested [] ms next).result = rest at hrest ⊢
      cases hrest with
      | done hvs ha =>
        obtain ⟨hfs, q', hends, hq'⟩ := ha
        refine .done (InOrder.succ hfirst (hvs.mono hlater)) ⟨?_, q', .cons htype hspace hends, hq'⟩
        exact congrArg ((m.name, v) :: ·) hfs
      | stopped hhalt => exact .stopped (InOrder.succ hfirst (hhalt.mono hlater))

/-! ## Structs -/

/--
A struct is decoded as the packing algorithm lays it out. Each member is decoded one level deeper at
the place that the algorithm gives to it, and the cursor ends at the first fresh word behind all.
-/
theorem struct_outcome_iff (hr : ctx.resolver.Resolves nodes) {ms : List Member}
    (hms : ∀ m ∈ ms, m.Resolved ctx.resolver nodes) (d : Declaration) (depth : Int) (slot : Slot)
    (outcome : Except Halt (Decoded Value)) :
    (struct ctx (value ctx (depth + 1)) (.struct d ms) ms (.fresh slot)).result = outcome ↔
      StructOutcome ctx (value ctx (depth + 1)) slot ms outcome := by
  have hactual : StructOutcome ctx (value ctx (depth + 1)) slot ms
      (struct ctx (value ctx (depth + 1)) (.struct d ms) ms (.fresh slot)).result := by
    have hfields := fields_composed (moves_value hr (depth + 1)) hr hms (Position.At.ofSlot slot)
    rw [result_struct (Cursor.isFresh_fresh slot)]
    generalize (fields ctx (value ctx (depth + 1)) [] ms (.fresh slot)).result = fs at hfields ⊢
    cases hfields with
    | done hvs ha =>
      obtain ⟨hfs, q, hends, hq⟩ := ha
      have hnext := hq.roundUp.eq_fresh q.used_freshWord
      rw [show (0 : Slot) = 0#256 from rfl, BitVec.zero_add] at hnext
      rw [ok_bind, hfs, hnext]
      exact .done hvs ⟨q, hends, rfl⟩
    | stopped hhalt => exact .stopped hhalt
  constructor
  · rintro rfl
    exact hactual
  · intro h
    exact hactual.unique h (fun _ _ _ => MemberOutcome.unique) fun _ _ _ => MakesStruct.unique

/-! ## A struct that runs past the last slot -/

namespace Ledger

theorem halfWord_pos : 0 < 16 := by decide

theorem halfWord_le : 16 ≤ 32 := by decide

def members : List Member :=
  [.attached (.text "low") (.int ⟨false, 16, halfWord_pos, halfWord_le⟩),
    .attached (.text "high") (.int ⟨true, 16, halfWord_pos, halfWord_le⟩),
    .attached (.text "inner") (.struct ⟨⟨none, .int 2⟩, .text "Inner", .text "Ledger.Inner"⟩
      [.attached (.text "open") (.elementary ⟨"bool", .text "bool", .bool⟩)]),
    .attached (.text "small") (.int .uint8),
    .attached (.text "large") (.int .uint256),
    .attached (.text "label") .string]

/-- The members take the last slot, which two of them fill, and the first four. -/
def context : Context where
  store := {
    words := [((Slot.count - 1 : Nat), Bytes.ofNat 16 9 ++ Bytes.ofNat 16 7), (0, [1]), (1, [3]),
      (2, [4, 0]), (3, [0x68, 0x69] ++ Bytes.zeros 29 ++ [4])] }
  resolver := .plain
  limits := {}

theorem resolved : ∀ m ∈ members, m.Resolved context.resolver fun _ => False := by
  intro m hm
  simp only [members, List.mem_cons, List.not_mem_nil, or_false] at hm
  rcases hm with rfl | rfl | rfl | rfl | rfl | rfl
  · exact ⟨_, rfl, trivial, fun _ => ⟨_, rfl⟩⟩
  · exact ⟨_, rfl, trivial, fun _ => ⟨_, rfl⟩⟩
  · exact ⟨_, rfl, ⟨rfl, trivial, trivial⟩, nofun⟩
  · exact ⟨_, rfl, trivial, fun _ => ⟨_, rfl⟩⟩
  · exact ⟨_, rfl, trivial, fun _ => ⟨_, rfl⟩⟩
  · exact ⟨_, rfl, trivial, nofun⟩

end Ledger

set_option maxRecDepth 2000 in
/-- Members go on at slot zero behind the last slot. -/
theorem struct_outcome_past_last_slot :
    StructOutcome Ledger.context (value Ledger.context 1) (BitVec.allOnes 256) Ledger.members
      (.ok (.struct [(.text "low", .int 7), (.text "high", .int 9),
        (.text "inner", .struct [(.text "open", .bool true)]), (.text "small", .int 3),
        (.text "large", .int 1024), (.text "label", .string "hi")], .fresh 4)) :=
  (struct_outcome_iff Ledger.context.resolver.resolves_none Ledger.resolved
    ⟨⟨none, .int 1⟩, .text "Ledger", .text "Ledger"⟩ 0 (BitVec.allOnes 256) _).1 rfl

end Decode

end StorageSnapshot

-- SUMMARY: Decoding an array decodes each element where direct indexing puts it.
import StorageSnapshot.Proofs.Moves

/-!
# Arrays

An array is decoded element by element with one cursor. All elements take the same space, so the
place of each can be computed from its index alone: so many of them share a word, and the bytes that
are left of it are skipped.
-/

namespace StorageSnapshot

variable {nodes : Datum → Prop} {r : Resolver} {t : Ty} {base slot : Slot} {c : Cursor}
  {space : Space} {i count : Nat}

/-! ## Rows -/

namespace Space

/-- The position of element `i` of a row of elements that take the same space. -/
def index : Space → Nat → Position
  | bytes size, i => ⟨i / (wordSize / size), i % (wordSize / size) * size⟩
  | words count, i => ⟨i * count, 0⟩

theorem index_zero (space : Space) : space.index 0 = ⟨0, 0⟩ := by
  cases space <;> simp [index]

/-- The last element of a word ends in it. -/
private theorem index_fits {size : Nat} (hpos : 0 < size) (hle : size ≤ wordSize) (i : Nat) :
    i % (wordSize / size) * size + size ≤ wordSize := by
  have hshare : 0 < wordSize / size := Nat.div_pos hle hpos
  calc i % (wordSize / size) * size + size
      = (i % (wordSize / size) + 1) * size := (Nat.succ_mul ..).symm
    _ ≤ wordSize / size * size := Nat.mul_le_mul_right _ (Nat.mod_lt i hshare)
    _ ≤ wordSize := Nat.div_mul_le_self ..

theorem used_index_lt (hsized : space.IsSized) (i : Nat) : (space.index i).used < wordSize := by
  cases space with
  | bytes size =>
    have hfits := index_fits hsized.1 hsized.2 i
    have hpos := hsized.1
    simp only [index]
    omega
  | words count => exact (by decide : 0 < wordSize)

theorem start_index (hsized : space.IsSized) (i : Nat) :
    space.start (space.index i) = space.index i := by
  cases space with
  | bytes size => exact if_pos (index_fits hsized.1 hsized.2 i)
  | words count => rfl

/-- The next element starts behind an element, at the next word if no further one fits. -/
theorem start_behind_index (hsized : space.IsSized) (i : Nat) :
    space.start (space.behind (space.index i)) = space.index (i + 1) := by
  cases space with
  | words count => simp [behind, start, Position.freshWord, index, Nat.succ_mul]
  | bytes size =>
    simp only [behind, start_index hsized]
    obtain ⟨hpos, hle⟩ := hsized
    obtain ⟨share, hshare⟩ : ∃ share, share = wordSize / size := ⟨_, rfl⟩
    have hsharePos : 0 < share := hshare ▸ Nat.div_pos hle hpos
    have hmost : share * size ≤ wordSize := hshare ▸ Nat.div_mul_le_self ..
    have hnext : wordSize < (share + 1) * size := by
      rw [Nat.mul_comm, hshare]
      exact Nat.lt_mul_div_succ wordSize hpos
    have hlt : i % share < share := Nat.mod_lt i hsharePos
    have hwhole := Nat.mod_add_div i share
    simp only [start, index, ← hshare]
    -- An element that is not the last of its word leaves room for one more, the last one does not.
    by_cases hroom : i % share + 1 < share
    · have hfits : i % share * size + size + size ≤ wordSize := by
        have := Nat.mul_le_mul_right size (show i % share + 1 + 1 ≤ share from hroom)
        simp only [Nat.succ_mul] at this
        omega
      have hindex : (i + 1) / share = i / share ∧ (i + 1) % share = i % share + 1 :=
        (Nat.div_mod_unique hsharePos).2 ⟨by omega, hroom⟩
      rw [if_pos hfits, hindex.1, hindex.2, Nat.succ_mul]
    · have hlast : i % share + 1 = share := by omega
      have hfull : ¬i % share * size + size + size ≤ wordSize := by
        rw [← Nat.succ_mul, Nat.succ_eq_add_one, hlast, ← Nat.succ_mul]
        exact Nat.not_le.2 hnext
      have hindex : (i + 1) / share = i / share + 1 ∧ (i + 1) % share = 0 := by
        refine (Nat.div_mod_unique hsharePos).2 ⟨?_, hsharePos⟩
        rw [Nat.mul_succ]
        omega
      rw [if_neg hfull, hindex.1, hindex.2, Nat.zero_mul]

end Space

/-- Where direct indexing puts element `i` of a row of elements from a slot on. -/
inductive Indexed (r : Resolver) (t : Ty) (base : Slot) : Nat → Cursor → Prop
  | first : Indexed r t base 0 (.fresh base)
  | value {size i : Nat} {c : Cursor} (h : t.isPointer = false)
    (hsize : (r.sizeOf t).result = .ok size)
    (hslot : c.slot = base + BitVec.ofNat 256 (i / (wordSize / size)))
    (hfree : c.free = wordSize - i % (wordSize / size) * size) : Indexed r t base i c
  | pointer {count : Nat} (h : Takes r t (.words count)) (i : Nat) :
    Indexed r t base i (.fresh (base + BitVec.ofNat 256 (i * count)))

/-- The number of elements of an array at a slot, and the slot that they start from. -/
inductive Spans (store : Store) (slot : Slot) : Option Int → Nat → Slot → Prop
  | dynamic {w : Bytes} (hw : store.wordAt slot.toNat = .ok w) :
    Spans store slot none w.toNat slot.contents
  | static (count : Nat) : Spans store slot (some count) count slot

/-- The cursor at the position of an element is where direct indexing puts it. -/
theorem Takes.indexed (hspace : Takes r t space) (hsized : space.IsSized)
    (h : (space.index i).At base c) : Indexed r t base i c := by
  cases hpointer : t.isPointer with
  | true =>
    obtain ⟨count, rfl⟩ := hspace.eq_words hpointer
    rw [h.eq_fresh rfl]
    exact .pointer hspace i
  | false =>
    obtain ⟨size, rfl, hsize⟩ := hspace.eq_bytes hpointer
    have hused := Space.used_index_lt hsized i
    have hslot := h.slot_eq
    have hfree := h.free_eq
    rw [Nat.div_eq_of_lt hused, Nat.add_zero] at hslot
    rw [Nat.mod_eq_of_lt hused] at hfree
    exact .value hpointer hsize hslot hfree

theorem Indexed.unique {a b : Cursor} (ha : Indexed r t base i a) (hb : Indexed r t base i b) :
    a = b := by
  have hsame {slot : Slot} {free : Nat} {a b : Cursor} (ha : a.slot = slot) (hb : b.slot = slot)
      (ha' : a.free = free) (hb' : b.free = free) : a = b := by
    obtain ⟨slot, free, _, _⟩ := a
    obtain ⟨slot', free', _, _⟩ := b
    simp only at ha hb ha' hb'
    subst ha ha' hb hb'
    rfl
  have hzero : base + BitVec.ofNat 256 0 = base := BitVec.add_zero base
  cases ha with
  | first => cases hb with
    | first => rfl
    | value _ _ hslot hfree =>
      rw [Nat.zero_div, hzero] at hslot
      rw [Nat.zero_mod, Nat.zero_mul] at hfree
      exact hsame rfl hslot rfl hfree
    | pointer _ _ => rw [Nat.zero_mul, hzero]
  | value h hsize hslot hfree => cases hb with
    | first =>
      rw [Nat.zero_div, hzero] at hslot
      rw [Nat.zero_mod, Nat.zero_mul] at hfree
      exact hsame hslot rfl hfree rfl
    | value _ hsize' hslot' hfree' =>
      rw [hsize, Except.ok.injEq] at hsize'
      subst hsize'
      exact hsame hslot hslot' hfree hfree'
    | pointer h' _ =>
      obtain ⟨_, hbytes, -⟩ := h'.eq_bytes h
      cases hbytes
  | pointer h i => cases hb with
    | first => rw [Nat.zero_mul, hzero]
    | value h' _ _ _ =>
      obtain ⟨_, hbytes, -⟩ := h.eq_bytes h'
      cases hbytes
    | pointer h' _ =>
      have hcount := h.unique h'
      rw [Space.words.injEq] at hcount
      rw [hcount]

namespace Decode

variable {ctx : Context} {nested : Nested}

/-! ## Elements -/

/-- What becomes of element `i` of a row: what decoding comes to where direct indexing puts it. -/
def ElementOutcome (ctx : Context) (nested : Nested) (t : Ty) (base : Slot) (i : Nat)
    (outcome : Except Halt (Decoded Value)) : Prop :=
  ∃ c, Indexed ctx.resolver t base i c ∧ (nested t c).result = outcome

/-- What becomes of an array at a slot with `count` elements from `base` on. It ends at the word
behind the slot. -/
def ArrayOutcome (ctx : Context) (nested : Nested) (t : Ty) (slot base : Slot) (count : Nat) :
    Except Halt (Decoded Value) → Prop :=
  Composed (ElementOutcome ctx nested t base) count fun vs a => a = (.array vs, .fresh (slot + 1))

theorem ElementOutcome.unique {a b : Except Halt (Decoded Value)}
    (ha : ElementOutcome ctx nested t base i a) (hb : ElementOutcome ctx nested t base i b) :
    a = b := by
  obtain ⟨c, hc, rfl⟩ := ha
  obtain ⟨c', hc', rfl⟩ := hb
  rw [hc.unique hc']

/-- One element: what follows it has a place where direct indexing puts the next one. -/
private theorem next_element (hmoves : Moves ctx.resolver nodes nested)
    (hr : ctx.resolver.Resolves nodes) (ht : t.WellFormed nodes) {v : Value} {next : Cursor}
    (h : ∀ {space}, Takes ctx.resolver t space → (space.index i).At base c)
    (hfresh : t.isPointer = true → c.isFresh = true)
    (hv : (nested t c).result = .ok (v, next)) :
    ∃ place, (ctx.resolver.place t next).result = .ok place ∧
      (t.isPointer = true → place.isFresh = true) ∧ Indexed ctx.resolver t base (i + 1) place ∧
      ∀ {space}, Takes ctx.resolver t space → (space.index (i + 1)).At base place := by
  obtain ⟨space, hspace, -⟩ := hmoves t c v next ht hfresh hv
  have hsized := hspace.isSized hr ht
  have hc := h hspace
  rw [← Space.start_index hsized] at hc
  obtain ⟨place, hplace, hat⟩ := hmoves.element hr ht hspace hc hv
  have hfresh' := hspace.isFresh_of_start hat
  rw [Space.start_behind_index hsized] at hat
  refine ⟨place, hplace, hfresh', hspace.indexed hsized hat, ?_⟩
  intro space' hspace'
  rw [hspace'.unique hspace]
  exact hat

/-- The cursor stays where direct indexing puts the elements, element by element. -/
private theorem elements_inOrder (hmoves : Moves ctx.resolver nodes nested)
    (hr : ctx.resolver.Resolves nodes) (ht : t.WellFormed nodes)
    (h : ∀ {space}, Takes ctx.resolver t space → (space.index i).At base c)
    (hfresh : t.isPointer = true → c.isFresh = true) (hc : Indexed ctx.resolver t base i c) :
    InOrder (fun j => ElementOutcome ctx nested t base (i + j)) count
      (elements ctx nested t count [] c).result := by
  induction count generalizing i c with
  | zero => exact .zero
  | succ count ih =>
    have hfirst : ElementOutcome ctx nested t base (i + 0) (nested t c).result := ⟨c, hc, rfl⟩
    rw [result_elements_succ]
    cases hv : (nested t c).result with
    | error halt =>
      rw [hv] at hfirst
      exact .stop hfirst
    | ok found =>
      obtain ⟨v, next⟩ := found
      rw [hv] at hfirst
      obtain ⟨place, hplace, hfresh', hindexed, hplaces⟩ := next_element hmoves hr ht h hfresh hv
      rw [ok_bind, hplace, mapError_ok, ok_bind]
      refine .succ hfirst ((ih hplaces hfresh' hindexed).mono ?_)
      intro j a hj
      rwa [Nat.add_assoc, Nat.add_comm 1 j] at hj

/-! ## Arrays -/

/-- The header of a dynamic array is the number of its elements. -/
theorem result_elementsOf (type : Ty) {length : Option Int}
    (hspans : Spans ctx.store slot length count base) (hlimit : count ≤ ctx.limits.maxLength) :
    (elementsOf ctx type length (.fresh slot)).result = .ok (count, .fresh base) := by
  have hadmits : ctx.limits.length.exceededBy count = false := by
    rw [Bool.eq_false_iff, ne_eq, Bound.exceededBy_iff]
    exact Nat.cast_le.2 hlimit |>.not_gt
  cases hspans with
  | dynamic hw =>
    rename_i w
    have hlength := Store.length_wordAt hw
    have hpos : 0 < w.length := by rw [hlength]; decide
    have hle : w.length ≤ (Cursor.fresh slot).free := Nat.le_of_eq hlength
    have hraw : (w.drop ((Cursor.fresh slot).free - w.length)).take w.length = w := by
      have hfree : (Cursor.fresh slot).free - w.length = 0 := by rw [hlength]; rfl
      rw [hfree, List.drop_zero, List.take_length]
    obtain ⟨next, hpacks⟩ := Store.packs_of_word hpos hle hw hraw
    have hnumber : integerOfBytes .uint256 w = w.toNat := by
      rw [integerOfBytes_eq hlength, if_neg (by simp [IntType.uint256])]
    unfold elementsOf
    simp only [Traced.result_bind, result_stepExcept]
    rw [integer_ok hpacks hlength, mapError_ok, ok_bind, hnumber]
    dsimp only
    rw [if_neg (by simp [hadmits])]
    rfl
  | static =>
    rw [elementsOf, if_neg (by simp [hadmits])]
    rfl

/--
An array is decoded as direct indexing lays it out. Each element is decoded one level deeper at the
place of its index, and the cursor ends at the word behind the slot.
-/
theorem array_outcome_iff (hr : ctx.resolver.Resolves nodes) (ht : t.WellFormed nodes)
    {length : Option Int} (hspans : Spans ctx.store slot length count base)
    (hlimit : count ≤ ctx.limits.maxLength) (typeString : Datum) (origin : Origin) (depth : Int)
    (outcome : Except Halt (Decoded Value)) :
    (array ctx (value ctx (depth + 1)) (.array typeString origin t length) t length
      (.fresh slot)).result = outcome ↔
      ArrayOutcome ctx (value ctx (depth + 1)) t slot base count outcome := by
  have hactual : ArrayOutcome ctx (value ctx (depth + 1)) t slot base count
      (array ctx (value ctx (depth + 1)) (.array typeString origin t length) t length
        (.fresh slot)).result := by
    have hstart : ∀ {space}, Takes ctx.resolver t space →
        (space.index 0).At base (.fresh base) := by
      intro space _
      rw [Space.index_zero]
      exact .fresh base
    have helements : InOrder (ElementOutcome ctx (value ctx (depth + 1)) t base) count
        (elements ctx (value ctx (depth + 1)) t count [] (.fresh base)).result :=
      (elements_inOrder (moves_value hr (depth + 1)) hr ht hstart (fun _ => rfl) .first).mono
        fun j a hj => by rwa [Nat.zero_add] at hj
    rw [result_array, result_elementsOf _ hspans hlimit, ok_bind]
    generalize (elements ctx (value ctx (depth + 1)) t count [] (.fresh base)).result = vs
      at helements ⊢
    cases vs with
    | ok vs => exact .done helements rfl
    | error halt => exact .stopped helements
  constructor
  · rintro rfl
    exact hactual
  · intro h
    exact hactual.unique h (fun _ _ _ => ElementOutcome.unique) fun _ _ _ ha hb => ha.trans hb.symm

/-- A store whose last word and first one hold numbers of ten bytes. -/
def tens : Context where
  store := { words := [((Slot.count - 1 : Nat),
    Bytes.ofNat 10 6 ++ Bytes.ofNat 10 5 ++ Bytes.ofNat 10 4), (0, [7])] }
  resolver := .plain
  limits := {}

/-- Elements of ten bytes share words by threes, and go on at slot zero behind the last slot. -/
theorem array_outcome_past_last_slot :
    ArrayOutcome tens (value tens 1) (.int ⟨false, 10, by decide, by decide⟩) (BitVec.allOnes 256)
      (BitVec.allOnes 256) 4 (.ok (.array [.int 4, .int 5, .int 6, .int 7], .fresh 0)) :=
  (array_outcome_iff tens.resolver.resolves_none (t := .int ⟨false, 10, by decide, by decide⟩)
    trivial (.static 4) (by decide) (.text "uint80[4]") ⟨none, .int 0⟩ 0 _).1 rfl

end Decode

end StorageSnapshot

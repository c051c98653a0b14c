-- SUMMARY: The compiler's packing algorithm, and how cursors follow its positions.
import StorageSnapshot.Proofs.WellFormed

/-!
# Packing

The compiler places values one after another: a value of a value type goes into the word of the
value in front of it if there is room for it, and all else starts at a fresh word. It counts the
used bytes of a word up from the low-order end, where a cursor counts the free bytes down; and a
word whose bytes are all used is left with the next value, where a cursor leaves it with the last
byte.
-/

namespace StorageSnapshot

/-! ## Positions and spaces -/

/-- How far the compiler has come: a slot, counted on past the last one, and the number of bytes of
its word that are used. -/
structure Position where
  slot : Nat
  used : Nat
  deriving DecidableEq

/-- The space that values of a type take: bytes of one word, or whole words. -/
inductive Space where
  | bytes (size : Nat)
  | words (count : Nat)
  deriving DecidableEq

/-- The first fresh word at or behind a position. -/
def Position.freshWord (p : Position) : Position := if p.used = 0 then p else ⟨p.slot + 1, 0⟩

theorem Position.used_freshWord (p : Position) : p.freshWord.used = 0 := by
  unfold freshWord
  split <;> first | assumption | rfl

namespace Space

/-- Where a value starts that comes behind a position. -/
def start : Space → Position → Position
  | bytes size, p => if p.used + size ≤ wordSize then p else ⟨p.slot + 1, 0⟩
  | words _, p => p.freshWord

/-- The position behind a value that comes behind a position. -/
def behind (space : Space) (p : Position) : Position :=
  match space with
  | bytes size => ⟨(space.start p).slot, (space.start p).used + size⟩
  | words count => ⟨(space.start p).slot + count, 0⟩

end Space

/-! ## The space of types -/

mutual

/-- The space that values of a type take. An array takes the word of its slot, whatever it holds. -/
inductive Takes (r : Resolver) : Ty → Space → Prop
  | value {t : Ty} {size : Nat} (h : t.isPointer = false) (hsize : (r.sizeOf t).result = .ok size) :
    Takes r t (.bytes size)
  | bytes : Takes r .bytes (.words 1)
  | string : Takes r .string (.words 1)
  | mapping {typeString : Datum} {origin : Origin} {key value : Ty} :
    Takes r (.mapping typeString origin key value) (.words 1)
  | array {typeString : Datum} {origin : Origin} {element : Ty} {length : Option Int} :
    Takes r (.array typeString origin element length) (.words 1)
  | struct {d : Declaration} {ms : List Member} {q : Position} (h : Ends r ⟨0, 0⟩ ms q) :
    Takes r (.struct d ms) (.words q.freshWord.slot)

/-- The position behind members that follow each other from a position on. -/
inductive Ends (r : Resolver) : Position → List Member → Position → Prop
  | nil {p : Position} : Ends r p [] p
  | cons {p q : Position} {m : Member} {ms : List Member} {t : Ty} {space : Space}
    (ht : (r.memberType m).result = .ok t) (hspace : Takes r t space)
    (hrest : Ends r (space.behind p) ms q) : Ends r p (m :: ms) q

end

/-- Where a value of a type starts that comes behind a position. A value of a pointer type has its
place also if the space that it takes is not known. -/
inductive Starts (r : Resolver) (t : Ty) (p : Position) : Position → Prop
  | value {size : Nat} (h : t.isPointer = false) (hsize : (r.sizeOf t).result = .ok size) :
    Starts r t p ((Space.bytes size).start p)
  | pointer (h : t.isPointer = true) : Starts r t p p.freshWord

/-- The type and the position of member `i` of members that follow each other from a position on. -/
inductive Placed (r : Resolver) : Position → List Member → Nat → Ty → Position → Prop
  | first {p q : Position} {m : Member} {ms : List Member} {t : Ty}
    (ht : (r.memberType m).result = .ok t) (hq : Starts r t p q) : Placed r p (m :: ms) 0 t q
  | later {p q : Position} {m : Member} {ms : List Member} {i : Nat} {t u : Ty} {space : Space}
    (ht : (r.memberType m).result = .ok t) (hspace : Takes r t space)
    (hrest : Placed r (space.behind p) ms i u q) : Placed r p (m :: ms) (i + 1) u q

variable {r : Resolver} {t : Ty} {p q : Position} {base : Slot} {c next : Cursor}

theorem Takes.eq_words (h : t.isPointer = true) {space : Space} (hspace : Takes r t space) :
    ∃ count, space = .words count := by
  cases hspace with
  | value hvalue _ => rw [h] at hvalue; cases hvalue
  | struct _ => exact ⟨_, rfl⟩
  | _ => exact ⟨1, rfl⟩

theorem Takes.eq_bytes (h : t.isPointer = false) {space : Space} (hspace : Takes r t space) :
    ∃ size, space = .bytes size ∧ (r.sizeOf t).result = .ok size := by
  cases hspace with
  | value _ hsize => exact ⟨_, rfl, hsize⟩
  | _ => cases h

/-- What the inductions on the space of a type and on the end of members show together. -/
private theorem unique_of_takes {t : Ty} {a : Space} (ha : Takes r t a) :
    ∀ b, Takes r t b → a = b := by
  refine @Takes.rec r (fun t a _ => ∀ b, Takes r t b → a = b)
    (fun p ms a _ => ∀ b, Ends r p ms b → a = b) ?value ?bytes ?string ?mapping ?array ?struct ?nil
    ?cons t a ha
  case value =>
    intro t size h hsize b hb
    obtain ⟨size', rfl, hsize'⟩ := Takes.eq_bytes h hb
    rw [hsize, Except.ok.injEq] at hsize'
    rw [hsize']
  case bytes =>
    intro b hb
    cases hb with
    | value h _ => cases h
    | bytes => rfl
  case string =>
    intro b hb
    cases hb with
    | value h _ => cases h
    | string => rfl
  case mapping =>
    intro _ _ _ _ b hb
    cases hb with
    | value h _ => cases h
    | mapping => rfl
  case array =>
    intro _ _ _ _ b hb
    cases hb with
    | value h _ => cases h
    | array => rfl
  case struct =>
    intro d ms q _ ih b hb
    cases hb with
    | value h _ => cases h
    | struct h => rw [ih _ h]
  case nil =>
    intro p b hb
    cases hb with
    | nil => rfl
  case cons =>
    intro p q m ms t space ht _ _ ihSpace ihRest b hb
    cases hb with
    | cons ht' hspace' hrest' =>
      rw [ht, Except.ok.injEq] at ht'
      subst ht'
      have heq := ihSpace _ hspace'
      subst heq
      exact ihRest _ hrest'

/-- A type takes one space at most. -/
theorem Takes.unique {a b : Space} (ha : Takes r t a) (hb : Takes r t b) : a = b :=
  unique_of_takes ha b hb

theorem Ends.unique {ms : List Member} {a b : Position} (ha : Ends r p ms a)
    (hb : Ends r p ms b) : a = b := by
  induction ms generalizing p with
  | nil =>
    cases ha
    cases hb
    rfl
  | cons m ms ih =>
    cases ha with
    | cons ht hspace hrest => cases hb with
      | cons ht' hspace' hrest' =>
        rw [ht, Except.ok.injEq] at ht'
        subst ht'
        have heq := hspace.unique hspace'
        subst heq
        exact ih hrest hrest'

theorem Starts.unique {a b : Position} (ha : Starts r t p a) (hb : Starts r t p b) : a = b := by
  cases ha with
  | value h hsize => cases hb with
    | value _ hsize' =>
      rw [hsize, Except.ok.injEq] at hsize'
      rw [hsize']
    | pointer h' => rw [h] at h'; cases h'
  | pointer h => cases hb with
    | value h' _ => rw [h] at h'; cases h'
    | pointer _ => rfl

theorem Placed.unique {ms : List Member} {i : Nat} {u u' : Ty} {a b : Position}
    (ha : Placed r p ms i u a) (hb : Placed r p ms i u' b) : u = u' ∧ a = b := by
  induction ha with
  | first ht hq => cases hb with
    | first ht' hq' =>
      rw [ht, Except.ok.injEq] at ht'
      subst ht'
      exact ⟨rfl, hq.unique hq'⟩
  | later ht hspace _ ih => cases hb with
    | later ht' hspace' hrest' =>
      rw [ht, Except.ok.injEq] at ht'
      subst ht'
      have heq := hspace.unique hspace'
      subst heq
      exact ih hrest'

/-! ## Cursors at positions -/

/-- Whether a cursor stands at a position that is counted from `base` on. At a word whose bytes are
all used it stands at the start of the next one. -/
structure Position.At (base : Slot) (p : Position) (c : Cursor) : Prop where
  used_le : p.used ≤ wordSize
  slot_eq : c.slot = base + BitVec.ofNat 256 (p.slot + p.used / wordSize)
  free_eq : c.free = wordSize - p.used % wordSize

namespace Position.At

/-- The start of the word with a number. -/
theorem ofFresh (base : Slot) (n : Nat) :
    Position.At base ⟨n, 0⟩ (.fresh (base + BitVec.ofNat 256 n)) := by
  refine ⟨Nat.zero_le _, ?_, ?_⟩
  · rw [Nat.zero_div]
    rfl
  · rw [Nat.zero_mod]
    rfl

theorem fresh (slot : Slot) : Position.At slot ⟨0, 0⟩ (.fresh slot) := by
  have h := ofFresh slot 0
  rwa [show (BitVec.ofNat 256 0 : Slot) = 0#256 from rfl, BitVec.add_zero] at h

/-- The slots of a store are positions counted from slot zero on. -/
theorem ofSlot (slot : Slot) : Position.At 0 ⟨slot.toNat, 0⟩ (.fresh slot) := by
  have h := ofFresh 0#256 slot.toNat
  rwa [BitVec.ofNat_toNat, BitVec.setWidth_eq, BitVec.zero_add] at h

private theorem slot_add (base : Slot) (m n : Nat) :
    base + BitVec.ofNat 256 m + BitVec.ofNat 256 n = base + BitVec.ofNat 256 (m + n) := by
  rw [BitVec.add_assoc, BitVec.ofNat_add]

theorem isFresh_iff (h : p.At base c) : c.isFresh = true ↔ p.used % wordSize = 0 := by
  have hpos : 0 < wordSize := by decide
  have hlt := Nat.mod_lt p.used hpos
  rw [Cursor.isFresh, beq_iff_eq, h.free_eq]
  omega

theorem nextWord (h : p.At base c) (hused : p.used < wordSize) :
    Position.At base ⟨p.slot + 1, 0⟩ c.nextWord := by
  have hnext : c.nextWord = .fresh (base + BitVec.ofNat 256 (p.slot + 1)) := by
    rw [Cursor.nextWord, h.slot_eq, Nat.div_eq_of_lt hused, Nat.add_zero, ← slot_add]
    rfl
  rw [hnext]
  exact ofFresh base (p.slot + 1)

/-- A word whose bytes are all used is left. -/
theorem next_of_full (h : p.At base c) (hused : p.used = wordSize) :
    Position.At base ⟨p.slot + 1, 0⟩ c := by
  obtain ⟨-, hslot, hfree⟩ := h
  rw [hused] at hslot hfree
  refine ⟨Nat.zero_le _, ?_, ?_⟩
  · rw [hslot, Nat.div_self (by decide), Nat.zero_div, Nat.add_zero]
  · rw [hfree, Nat.mod_self, Nat.zero_mod]

theorem roundUp (h : p.At base c) : p.freshWord.At base c.roundUp := by
  have hle := h.used_le
  rw [Position.freshWord, Cursor.roundUp]
  by_cases hzero : p.used = 0
  · rw [if_pos hzero, if_pos (h.isFresh_iff.2 (by rw [hzero]; rfl))]
    exact h
  rw [if_neg hzero]
  rcases Nat.lt_or_eq_of_le hle with hlt | hfull
  · have hmid : ¬c.isFresh = true := by
      rw [h.isFresh_iff, Nat.mod_eq_of_lt hlt]
      exact hzero
    rw [if_neg hmid]
    exact h.nextWord hlt
  · rw [if_pos (h.isFresh_iff.2 (by rw [hfull]; rfl))]
    exact h.next_of_full hfull

/-- A value of a value type has room at a cursor if it has room at its position. -/
theorem startBytes (h : p.At base c) {size : Nat} (hpos : 0 < size) (hsize : size ≤ wordSize) :
    ((Space.bytes size).start p).At base (if size ≤ c.free then c else c.nextWord) := by
  have hle := h.used_le
  have hfree := h.free_eq
  have hsmall : wordSize = 32 := rfl
  rw [Space.start]
  rcases Nat.lt_or_eq_of_le hle with hlt | hfull
  · rw [Nat.mod_eq_of_lt hlt] at hfree
    by_cases hroom : p.used + size ≤ wordSize
    · rw [if_pos hroom, if_pos (by omega)]
      exact h
    · rw [if_neg hroom, if_neg (by omega)]
      exact h.nextWord hlt
  · rw [hfull, Nat.mod_self] at hfree
    rw [if_neg (by omega), if_pos (by omega)]
    exact h.next_of_full hfull

theorem advance (h : p.At base c) {size : Nat} (hpos : 0 < size) (hroom : p.used + size ≤ wordSize)
    (hnext : c.advance size = .ok next) : Position.At base ⟨p.slot, p.used + size⟩ next := by
  have hlt : p.used < wordSize := by omega
  have hslot := h.slot_eq
  have hfree := h.free_eq
  rw [Nat.div_eq_of_lt hlt, Nat.add_zero] at hslot
  rw [Nat.mod_eq_of_lt hlt] at hfree
  rcases Cursor.advance_eq_ok.1 hnext with ⟨hsize, rfl⟩ | ⟨hsize, hsame, hrest⟩
  · have hfull : p.used + size = wordSize := by omega
    refine ⟨hroom, ?_, ?_⟩
    · change c.slot + BitVec.ofNat 256 1 = _
      rw [hslot, slot_add, hfull, Nat.div_self (n := wordSize) (by decide)]
    · rw [hfull, Nat.mod_self]
      rfl
  · have hmid : p.used + size < wordSize := by omega
    refine ⟨hroom, ?_, ?_⟩
    · rw [hsame, hslot, Nat.div_eq_of_lt hmid, Nat.add_zero]
    · rw [hrest, Nat.mod_eq_of_lt hmid]
      omega

/-- There is one cursor at the start of a word. -/
theorem eq_fresh (h : p.At base c) (hused : p.used = 0) :
    c = .fresh (base + BitVec.ofNat 256 p.slot) := by
  have hslot := h.slot_eq
  rw [hused, Nat.zero_div, Nat.add_zero] at hslot
  rw [← hslot]
  exact Cursor.eq_fresh_of_isFresh (h.isFresh_iff.2 (by rw [hused]; rfl))

theorem words (h : p.At base c) (hused : p.used = 0) (count : Nat) :
    Position.At base ⟨p.slot + count, 0⟩ (.fresh (c.slot + BitVec.ofNat 256 count)) := by
  rw [h.slot_eq, hused, Nat.zero_div, Nat.add_zero, slot_add]
  exact ofFresh base (p.slot + count)

end Position.At

end StorageSnapshot

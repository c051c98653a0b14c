-- SUMMARY: Reads of a store whose words have the size of words: what they return, and that they do.
import StorageSnapshot.Proofs.Bytes
import StorageSnapshot.Proofs.Outcome

/-!
# Reads of a store

Slots are counted on past the last one, which leads to slot zero. A read of a span returns the bytes
that stand there, byte `i` of a span from slot `n` on being byte `i % 32` of the word at slot
`n + i / 32`. It only fails if a word is longer than words are.
-/

namespace StorageSnapshot

theorem Slot.count_eq : Slot.count = 2 ^ 256 := Bytes.count_eq_two_pow wordSize

theorem Slot.toNat_lt_count (s : Slot) : s.toNat < Slot.count := by
  rw [Slot.count_eq]
  exact s.isLt

@[simp] theorem Slot.toNat_mod_count (s : Slot) : s.toNat % Slot.count = s.toNat :=
  Nat.mod_eq_of_lt s.toNat_lt_count

theorem Slot.toNat_ofNat (n : Nat) : (BitVec.ofNat 256 n : Slot).toNat = n % Slot.count := by
  rw [Slot.count_eq, BitVec.toNat_ofNat]

theorem Slot.toNat_add_ofNat (s : Slot) (n : Nat) :
    (s + BitVec.ofNat 256 n : Slot).toNat = (s.toNat + n) % Slot.count := by
  rw [BitVec.toNat_add, BitVec.toNat_ofNat, Nat.add_mod_mod, Slot.count_eq]

namespace Store

/-! ## Words -/

/-- The word at a slot, where slots are counted on past the last one. -/
def wordAt (s : Store) (n : Nat) : Except Fault Bytes := s.word (n % Slot.count : Nat)

/-- No word is longer than words are. -/
def WordsFit (s : Store) : Prop := ∀ w ∈ s.words, w.2.length ≤ wordSize

instance (s : Store) : Decidable s.WordsFit :=
  inferInstanceAs (Decidable (∀ w ∈ s.words, w.2.length ≤ wordSize))

theorem wordAt_toNat (s : Store) (slot : Slot) : s.wordAt slot.toNat = s.word slot.toNat := by
  rw [wordAt, Slot.toNat_mod_count]

theorem nextSlot_mod (n : Nat) :
    nextSlot ((n % Slot.count : Nat) : Int) = ((n + 1) % Slot.count : Nat) := by
  unfold nextSlot
  have : ((n % Slot.count : Nat) : Int) + 1 = ((n % Slot.count + 1 : Nat) : Int) := rfl
  rw [this, ← Int.natCast_emod, Nat.mod_add_mod]

theorem length_word {s : Store} {slot : Int} {w : Bytes} (h : s.word slot = .ok w) :
    w.length = wordSize := by
  unfold word at h
  cases hget : Fault.lift (s.get? slot) with
  | error e => simp [hget, bind, Except.bind] at h
  | ok found =>
    cases found with
    | none =>
      simp only [hget, bind, Except.bind, pure, Except.pure, Except.ok.injEq] at h
      rw [← h]
      exact List.length_replicate
    | some b =>
      simp only [hget, bind, Except.bind] at h
      split at h
      next => simp [throw, throwThe, MonadExceptOf.throw] at h
      next hle =>
        simp only [pure, Except.pure, Except.ok.injEq] at h
        rw [← h]
        exact Bytes.length_padLeft (by omega)

theorem length_wordAt {s : Store} {n : Nat} {w : Bytes} (h : s.wordAt n = .ok w) :
    w.length = wordSize :=
  length_word h

theorem key_ok (s : Store) (n : Nat) : ∃ key, s.key (n % Slot.count : Nat) = .ok key := by
  have hlt : n % Slot.count < Bytes.count wordSize :=
    Nat.mod_lt n (Bytes.count_pos wordSize)
  unfold key
  split
  · rw [Bytes.ofInt_ofNat hlt]
    exact ⟨_, rfl⟩
  · exact ⟨_, rfl⟩

theorem key_plain {s : Store} (h : s.hashed = false) (x : Slot) :
    s.key x.toNat = .ok (x.toNat : Int) := by
  simp [key, h]
  rfl

theorem get?_ok (s : Store) (n : Nat) : ∃ found, s.get? (n % Slot.count : Nat) = .ok found := by
  obtain ⟨key, hkey⟩ := s.key_ok n
  exact ⟨s.words.lookup key, by rw [get?, hkey]; rfl⟩

/-- What is kept for a slot, if there is anything, is no longer than a word. -/
def FitsAt (s : Store) (n : Nat) : Prop :=
  ∀ b, s.get? (n % Slot.count : Nat) = .ok (some b) → b.length ≤ wordSize

/-- There is a word at every slot for which no more than a word is kept. -/
theorem FitsAt.wordAt_ok {s : Store} {n : Nat} (h : s.FitsAt n) : ∃ w, s.wordAt n = .ok w := by
  obtain ⟨found, hfound⟩ := s.get?_ok n
  rw [wordAt, word, hfound]
  cases found with
  | none => exact ⟨_, rfl⟩
  | some b => exact ⟨_, if_neg (Nat.not_lt.2 (h b hfound))⟩

/-- A store whose words fit has no more than a word for any slot. -/
theorem WordsFit.fitsAt {s : Store} (hs : s.WordsFit) (n : Nat) : s.FitsAt n := by
  intro b hb
  obtain ⟨key, -, hget⟩ := bind_eq_ok.1 hb
  have hfound : s.words.lookup key = some b := Except.ok.inj hget
  have hmem : (key, b) ∈ s.words := by
    obtain ⟨l₁, l₂, heq, -⟩ := List.lookup_eq_some_iff.1 hfound
    exact heq ▸ by simp
  exact hs _ hmem

/-- A store whose words fit has a word at every slot. -/
theorem WordsFit.wordAt_ok {s : Store} (hs : s.WordsFit) (n : Nat) :
    ∃ w, s.wordAt n = .ok w := (hs.fitsAt n).wordAt_ok

/-! ## Words by key -/

section Keys

variable {ws acc : List (Int × Bytes)} {k : Int} {w : Bytes}

theorem lookup_putWord_self (k : Int) (w : Bytes) (ws : List (Int × Bytes)) :
    (putWord k w ws).lookup k = some w := by
  induction ws with
  | nil => simp [putWord]
  | cons entry ws ih =>
    by_cases h : entry.1 = k
    · simp [putWord, h]
    · have h' : (k == entry.1) = false := by simpa using Ne.symm h
      simp only [putWord, if_neg h, List.lookup_cons, h', ih]

theorem lookup_putWord_of_ne {k' : Int} (h : k' ≠ k) (w : Bytes) (ws : List (Int × Bytes)) :
    (putWord k w ws).lookup k' = ws.lookup k' := by
  have hne : (k' == k) = false := by simpa using h
  induction ws with
  | nil => simp only [putWord, List.lookup_cons, hne]
  | cons entry ws ih =>
    obtain ⟨key, word⟩ := entry
    by_cases hkey : key = k
    · subst hkey
      simp only [putWord, if_true, List.lookup_cons, hne]
    · simp only [putWord, if_neg hkey, List.lookup_cons, ih]

/-- A word that is found was put there. -/
theorem mem_of_lookup_foldl
    (h : (ws.foldl (fun acc w => putWord w.1 w.2 acc) acc).lookup k = some w) :
    (k, w) ∈ ws ∨ acc.lookup k = some w := by
  induction ws generalizing acc with
  | nil => exact .inr h
  | cons entry ws ih =>
    rcases ih h with hmem | hacc
    · exact .inl (List.mem_cons_of_mem entry hmem)
    · by_cases hkey : k = entry.1
      · subst hkey
        rw [lookup_putWord_self, Option.some.injEq] at hacc
        exact .inl (by simp [← hacc])
      · exact .inr (lookup_putWord_of_ne hkey entry.2 acc ▸ hacc)

/-- A key that a word was put under has a word. -/
theorem lookup_foldl_ne_none (h : (∃ w, (k, w) ∈ ws) ∨ acc.lookup k ≠ none) :
    (ws.foldl (fun acc w => putWord w.1 w.2 acc) acc).lookup k ≠ none := by
  induction ws generalizing acc with
  | nil => simpa using h
  | cons entry ws ih =>
    apply ih
    by_cases hkey : k = entry.1
    · exact .inr (by rw [hkey, lookup_putWord_self]; simp)
    · rw [lookup_putWord_of_ne hkey]
      rcases h with ⟨w, hw⟩ | hacc
      · rcases List.mem_cons.1 hw with rfl | hw
        · exact absurd rfl hkey
        · exact .inl ⟨w, hw⟩
      · exact .inr hacc

/-- A key that no word is put under keeps its word. -/
theorem lookup_foldl_of_ne (h : ∀ entry ∈ ws, k ≠ entry.1) :
    (ws.foldl (fun acc w => putWord w.1 w.2 acc) acc).lookup k = acc.lookup k := by
  induction ws generalizing acc with
  | nil => rfl
  | cons entry ws ih =>
    obtain ⟨hentry, hws⟩ := List.forall_mem_cons.1 h
    rw [List.foldl_cons, ih hws, lookup_putWord_of_ne hentry]

/-- The last word that is put under a key is found. -/
theorem lookup_foldl_last {back : List (Int × Bytes)} (h : ∀ entry ∈ back, k ≠ entry.1) :
    ((ws ++ (k, w) :: back).foldl (fun acc w => putWord w.1 w.2 acc) acc).lookup k = some w := by
  rw [List.foldl_append, List.foldl_cons, lookup_foldl_of_ne h, lookup_putWord_self]

end Keys

/-! ## Spans -/

/-- Byte `i` behind the first byte of the word at slot `n`, where it runs on into the next words. -/
def HasByte (s : Store) (n i : Nat) (b : UInt8) : Prop :=
  ∃ w, s.wordAt (n + i / wordSize) = .ok w ∧ w[i % wordSize]? = some b

theorem WordsFit.hasByte {s : Store} (hs : s.WordsFit) (n i : Nat) : ∃ b, s.HasByte n i b := by
  obtain ⟨w, hw⟩ := hs.wordAt_ok (n + i / wordSize)
  have hlt : i % wordSize < w.length := by
    rw [length_wordAt hw]
    exact Nat.mod_lt _ (by decide)
  exact ⟨w[i % wordSize], w, hw, List.getElem?_eq_getElem hlt⟩

private theorem take_drop_eq_map {w : Bytes} {offset size : Nat} {f : Nat → UInt8}
    (h : ∀ i < size, offset + i < w.length → w[offset + i]? = some (f i)) :
    (w.drop offset).take size = (List.range (min size (w.length - offset))).map f := by
  apply List.ext_getElem?
  intro i
  by_cases hi : i < min size (w.length - offset)
  · rw [List.getElem?_take_of_lt (by omega), List.getElem?_drop, h i (by omega) (by omega),
      List.getElem?_map, List.getElem?_range hi]
    rfl
  · rw [List.getElem?_eq_none (by simp; omega), List.getElem?_eq_none (by simp; omega)]

/-- Byte `i` behind the first byte of the word at slot `n`, if its word can be read. -/
def byteAt (s : Store) (n i : Nat) : Except Fault UInt8 := do
  let w ← s.wordAt (n + i / wordSize)
  return w.getD (i % wordSize) 0

theorem byteAt_of_lt {s : Store} {n i : Nat} {w : Bytes} (hi : i < wordSize)
    (hw : s.wordAt n = .ok w) : s.byteAt n i = .ok (w.getD i 0) := by
  rw [byteAt, Nat.div_eq_of_lt hi, Nat.mod_eq_of_lt hi, Nat.add_zero, hw]
  rfl

/-- The bytes behind a word are those of the next one. -/
theorem byteAt_next (s : Store) (n i : Nat) : s.byteAt n (wordSize + i) = s.byteAt (n + 1) i := by
  rw [byteAt, byteAt, Nat.add_div_left _ (by decide), Nat.add_mod_left, Nat.add_assoc n 1,
    Nat.add_comm 1]

theorem byteAt_eq_ok_iff {s : Store} {n i : Nat} {b : UInt8} :
    s.byteAt n i = .ok b ↔ s.HasByte n i b := by
  constructor
  · intro h
    obtain ⟨w, hw, hb⟩ := bind_eq_ok.1 h
    have hlt : i % wordSize < w.length := by
      rw [length_wordAt hw]
      exact Nat.mod_lt _ (by decide)
    rw [List.getD_eq_getElem?_getD, List.getElem?_eq_getElem hlt] at hb
    exact ⟨w, hw, by rw [List.getElem?_eq_getElem hlt]; exact congrArg some (Except.ok.inj hb)⟩
  · rintro ⟨w, hw, hb⟩
    rw [byteAt, hw, ok_bind, List.getD_eq_getElem?_getD, hb]
    rfl

/-- Steps by number that each succeed succeed, with their results. -/
theorem mapM_range_eq_ok {ε α : Type} {f : Nat → Except ε α} {g : Nat → α} {n : Nat}
    (h : ∀ i < n, f i = .ok (g i)) : (List.range n).mapM f = .ok ((List.range n).map g) := by
  rw [mapM_eq_ok_iff, List.forall₂_map_right_iff, List.forall₂_same]
  exact fun i hi => h i (List.mem_range.1 hi)

/-- Spans are read byte by byte, up to a word that can't be read. The induction is on the words that
are read: what is left behind the first word is a span from the start of the next one. -/
theorem readWithin_eq_mapM {s : Store} {fuel n offset size : Nat} (hfuel : size < fuel)
    (hoffset : offset < wordSize) :
    s.readWithin fuel (n % Slot.count : Nat) offset size =
      (List.range size).mapM fun i => s.byteAt n (offset + i) := by
  induction fuel generalizing n offset size with
  | zero => omega
  | succ fuel ih =>
    rw [readWithin]
    by_cases hsize : size = 0
    · rw [if_pos hsize, hsize]
      rfl
    rw [if_neg hsize]
    cases hw : s.wordAt n with
    | error e =>
      have hfirst : s.byteAt n (offset + 0) = .error e := by
        rw [byteAt, Nat.add_zero, Nat.div_eq_of_lt hoffset, Nat.add_zero, hw]
        rfl
      obtain ⟨size, rfl⟩ := Nat.exists_eq_succ_of_ne_zero hsize
      rw [wordAt] at hw
      rw [hw, List.range_succ_eq_map, List.mapM_cons, hfirst]
      rfl
    | ok w =>
      have hlength := length_wordAt hw
      obtain ⟨m, hm⟩ : ∃ m, m = min size (w.length - offset) := ⟨_, rfl⟩
      have hsplit : List.range size = List.range m ++ (List.range (size - m)).map (m + ·) := by
        rw [← List.range_add]
        congr 1
        omega
      have hchunk : (w.drop offset).take size =
          (List.range m).map fun i => w.getD (offset + i) 0 := by
        rw [hm]
        apply take_drop_eq_map
        intro i _ hi
        rw [List.getElem?_eq_getElem hi, List.getD_eq_getElem?_getD, List.getElem?_eq_getElem hi]
        rfl
      have hfront : (List.range m).mapM (fun i => s.byteAt n (offset + i)) =
          .ok ((w.drop offset).take size) := by
        rw [hchunk]
        exact mapM_range_eq_ok fun i hi => byteAt_of_lt (by omega) hw
      have hback : ((List.range (size - m)).map (m + ·)).mapM
          (fun i => s.byteAt n (offset + i)) =
          s.readWithin fuel ((n + 1) % Slot.count : Nat) 0 (size - m) := by
        rw [ih (by omega) (by decide), List.mapM_map]
        by_cases hrest : size - m = 0
        · rw [hrest]
          rfl
        · have hend : offset + m = wordSize := by omega
          congr 1
          funext i
          rw [Function.comp_apply, ← Nat.add_assoc, hend, byteAt_next, Nat.zero_add]
      have hsize' : size - ((w.drop offset).take size).length = size - m := by
        rw [hchunk, List.length_map, List.length_range]
      rw [wordAt] at hw
      rw [hw, hsplit, List.mapM_append, hfront, hback, ok_bind, ok_bind]
      dsimp only
      rw [hsize', nextSlot_mod]

/-- The bytes of a span are read in order. -/
theorem readWithin_eq {s : Store} {fuel n offset size : Nat} {f : Nat → UInt8}
    (hfuel : size < fuel) (hoffset : offset < wordSize)
    (h : ∀ i < size, s.HasByte n (offset + i) (f i)) :
    s.readWithin fuel (n % Slot.count : Nat) offset size = .ok ((List.range size).map f) := by
  rw [readWithin_eq_mapM hfuel hoffset]
  exact mapM_range_eq_ok fun i hi => byteAt_eq_ok_iff.2 (h i hi)

/-- Whether a span has a byte in the word that is `j` slots behind its first. -/
def InSpan (offset size j : Nat) : Prop := 0 < size ∧ j ≤ (offset + size - 1) / wordSize

theorem inSpan_of_lt {offset size i : Nat} (h : i < size) :
    InSpan offset size ((offset + i) / wordSize) :=
  ⟨Nat.zero_lt_of_lt h, Nat.div_le_div_right (by omega)⟩

/-- Two stores with the same words in a span have the same span. -/
theorem readWithin_congr {s s' : Store} {fuel n offset size : Nat} (hfuel : size < fuel)
    (hoffset : offset < wordSize)
    (h : ∀ j, InSpan offset size j → s.wordAt (n + j) = s'.wordAt (n + j)) :
    s.readWithin fuel (n % Slot.count : Nat) offset size =
      s'.readWithin fuel (n % Slot.count : Nat) offset size := by
  rw [readWithin_eq_mapM hfuel hoffset, readWithin_eq_mapM hfuel hoffset]
  apply mapM_congr
  intro i hi
  rw [byteAt, byteAt, h _ (inSpan_of_lt (List.mem_range.1 hi))]

/-- A span of a store. -/
theorem read_eq {s : Store} {n size : Nat} {f : Nat → UInt8}
    (h : ∀ i < size, s.HasByte n i (f i)) :
    s.read (n % Slot.count : Nat) 0 size = .ok ((List.range size).map f) := by
  rw [read, if_pos ⟨by omega, by decide⟩]
  apply readWithin_eq (by omega) (by decide)
  intro i hi
  simpa using h i hi

/-- A span of a store, given as the bytes that stand in it. -/
theorem read_span {s : Store} {n : Nat} {raw : Bytes}
    (h : ∀ i b, raw[i]? = some b → s.HasByte n i b) :
    s.read (n % Slot.count : Nat) 0 raw.length = .ok raw := by
  have hspan : ∀ i < raw.length, s.HasByte n i (raw.getD i 0) := by
    intro i hi
    apply h
    simp [hi]
  rw [read_eq hspan]
  congr 1
  apply List.ext_getElem (by simp)
  intro i _ hi
  simp [hi]

/-- Some bytes stand in every span of a store whose words fit. -/
theorem WordsFit.exists_span {s : Store} (hs : s.WordsFit) (n size : Nat) :
    ∃ raw : Bytes, raw.length = size ∧ ∀ i b, raw[i]? = some b → s.HasByte n i b := by
  obtain ⟨f, hf⟩ := Classical.axiomOfChoice (hs.hasByte n)
  refine ⟨(List.range size).map f, by simp, ?_⟩
  intro i b hb
  obtain ⟨hi, rfl⟩ := List.getElem?_eq_some_iff.1 hb
  rw [List.getElem_map, List.getElem_range]
  exact hf i

/-- Spans of a store whose words fit can be read. -/
theorem WordsFit.read_ok {s : Store} (hs : s.WordsFit) (n size : Nat) :
    ∃ raw, s.read (n % Slot.count : Nat) 0 size = .ok raw ∧ raw.length = size := by
  obtain ⟨raw, rfl, hraw⟩ := hs.exists_span n size
  exact ⟨raw, read_span hraw, rfl⟩

/-! ## Bytes of one word -/

/-- The bytes in front of a cursor are the last of those that are free. -/
theorem readBefore_eq {s : Store} {c : Cursor} {size : Nat} {w : Bytes} (hsize : 0 < size)
    (hfree : size ≤ c.free) (hw : s.wordAt c.slot.toNat = .ok w) :
    s.readBefore c size = .ok ((w.drop (c.free - size)).take size) := by
  have hlength := length_wordAt hw
  have hle := c.free_le
  have hsmall : wordSize = 32 := rfl
  have hoffset : ((c.free : Int) - size) = ((c.free - size : Nat) : Int) := by omega
  rw [readBefore, read, hoffset, if_pos (by omega), Int.toNat_natCast, Int.toNat_natCast,
    ← c.slot.toNat_mod_count]
  have hbyte : ∀ i < size, s.HasByte c.slot.toNat (c.free - size + i)
      (((w.drop (c.free - size)).take size).getD i 0) := by
    intro i hi
    have hi' : c.free - size + i < wordSize := by omega
    refine ⟨w, by rwa [Nat.div_eq_of_lt hi', Nat.add_zero], ?_⟩
    rw [Nat.mod_eq_of_lt hi', List.getD_eq_getElem?_getD, List.getElem?_take_of_lt hi,
      List.getElem?_drop, List.getElem?_eq_getElem (by omega), Option.getD_some]
  rw [readWithin_eq (by omega) (by omega) hbyte]
  congr 1
  apply List.ext_getElem?
  intro i
  by_cases hi : i < size
  · rw [List.getElem?_map, List.getElem?_range hi, Option.map_some, List.getD_eq_getElem?_getD,
      List.getElem?_eq_getElem (by simp; omega), Option.getD_some]
  · rw [List.getElem?_eq_none (by simp; omega), List.getElem?_eq_none (by simp; omega)]

end Store

end StorageSnapshot

-- SUMMARY: What a read of a span returns, which word ends it, and that it can be made in two parts.
import StorageSnapshot.Proofs.Store

/-!
# Spans

A read returns as many bytes as were asked for, each from the word that it stands in. Only a word
that is longer than words are ends it, and the first of them does. A word that has no byte of the
span is not looked at. So a span is read in two parts as it is read at once, the second part from
where the first one ends.
-/

namespace StorageSnapshot

/-! ## Steps by number -/

section

variable {ε α : Type} {f : Nat → Except ε α} {m n : Nat} {e : ε}

theorem mapM_range_eq_error (hm : m < n) (hfails : f m = .error e)
    (hbefore : ∀ i < m, ∃ a, f i = .ok a) : (List.range n).mapM f = .error e := by
  obtain ⟨k, rfl⟩ := Nat.exists_eq_add_of_lt hm
  rw [Nat.add_assoc, List.range_add, List.range_succ_eq_map, List.map_cons]
  exact mapM_eq_error (fun i hi => hbefore i (List.mem_range.1 hi)) hfails

end

namespace Store

variable {s s' : Store} {slot : Slot} {n offset size j : Nat} {b : Bytes}

/-! ## Words -/

/-- A word that is too long can't be read. -/
theorem wordAt_of_long (hb : s.get? (n % Slot.count : Nat) = .ok (some b))
    (hlong : wordSize < b.length) :
    s.wordAt n = .error (.layout (.longWord (n % Slot.count : Nat) b.length)) := by
  rw [wordAt, word, hb]
  exact if_pos hlong

/-- The first of the words of a span that is too long. -/
theorem exists_first_long (h : ¬∀ j, InSpan offset size j → s.FitsAt (n + j)) :
    ∃ j b, InSpan offset size j ∧ s.get? ((n + j) % Slot.count : Nat) = .ok (some b) ∧
      wordSize < b.length ∧ ∀ k < j, s.FitsAt (n + k) := by
  have hlong : ∃ j, InSpan offset size j ∧ ¬s.FitsAt (n + j) := by
    simpa only [not_forall, exists_prop] using h
  classical
  obtain ⟨j, ⟨hj, hnot⟩, hleast⟩ := Nat.findX hlong
  obtain ⟨b, hb, hlength⟩ : ∃ b, s.get? ((n + j) % Slot.count : Nat) = .ok (some b) ∧
      ¬b.length ≤ wordSize := by
    simpa only [FitsAt, not_forall, exists_prop] using hnot
  refine ⟨j, b, hj, hb, Nat.not_le.1 hlength, fun k hk => ?_⟩
  by_contra hnot'
  exact hleast k hk ⟨⟨hj.1, Nat.le_trans (Nat.le_of_lt hk) hj.2⟩, hnot'⟩

/-! ## Reads -/

/-- Spans are read byte by byte. -/
theorem read_eq_mapM (s : Store) (slot : Slot) (hoffset : offset < wordSize) (size : Nat) :
    s.read slot.toNat offset size =
      (List.range size).mapM fun i => s.byteAt slot.toNat (offset + i) := by
  have hspan := @readWithin_eq_mapM s (size + 1) slot.toNat offset size (Nat.lt_succ_self _) hoffset
  rw [slot.toNat_mod_count] at hspan
  rw [read, if_pos ⟨by omega, by exact_mod_cast hoffset⟩]
  exact hspan

/-- A span whose words are not too long is read, each byte of it from its word. -/
theorem read_of_fits (hoffset : offset < wordSize)
    (hfits : ∀ j, InSpan offset size j → s.FitsAt (slot.toNat + j)) :
    ∃ raw, s.read slot.toNat offset size = .ok raw ∧ raw.length = size ∧
      ∀ i < size, ∃ x, raw[i]? = some x ∧ s.HasByte slot.toNat (offset + i) x := by
  have heach : ∀ i ∈ List.range size, ∃ x, s.byteAt slot.toNat (offset + i) = .ok x := by
    intro i hi
    obtain ⟨w, hw⟩ := (hfits _ (inSpan_of_lt (List.mem_range.1 hi))).wordAt_ok
    exact ⟨_, by rw [byteAt, hw, ok_bind]; rfl⟩
  obtain ⟨raw, hraw, -⟩ := mapM_eq_ok heach
  have hbytes := mapM_eq_ok_iff.1 hraw
  have hlength : raw.length = size := by rw [← hbytes.length_eq, List.length_range]
  refine ⟨raw, by rw [read_eq_mapM s slot hoffset, hraw], hlength, ?_⟩
  intro i hi
  have hbyte := hbytes.get (i := i) (by rwa [List.length_range]) (by rwa [hlength])
  refine ⟨_, List.getElem?_eq_getElem (by rwa [hlength]), ?_⟩
  simpa using byteAt_eq_ok_iff.1 hbyte

/-- A read ends at the first word of the span that is too long. -/
theorem read_of_long (hoffset : offset < wordSize) (hj : InSpan offset size j)
    (hb : s.get? ((slot.toNat + j) % Slot.count : Nat) = .ok (some b)) (hlong : wordSize < b.length)
    (hbefore : ∀ k < j, s.FitsAt (slot.toNat + k)) :
    s.read slot.toNat offset size =
      .error (.layout (.longWord ((slot.toNat + j) % Slot.count : Nat) b.length)) := by
  obtain ⟨hpos, hle⟩ := hj
  have hsmall : wordSize = 32 := rfl
  rw [hsmall] at hoffset hle
  rw [read_eq_mapM s slot hoffset]
  -- The first byte of the span that is in this word.
  refine mapM_range_eq_error (m := 32 * j - offset) (by omega) ?_ ?_
  · have hindex : (offset + (32 * j - offset)) / wordSize = j := by
      rw [hsmall]
      omega
    rw [byteAt, hindex, wordAt_of_long hb hlong]
    rfl
  · intro i hi
    have hindex : (offset + i) / wordSize < j := by
      rw [hsmall]
      omega
    obtain ⟨w, hw⟩ := (hbefore _ hindex).wordAt_ok
    exact ⟨_, by rw [byteAt, hw, ok_bind]; rfl⟩

/-- Nothing but the words of a span matters to a read of it. -/
theorem read_eq_of_get?_eq (hoffset : offset < wordSize)
    (h : ∀ j, InSpan offset size j → s'.get? ((slot.toNat + j) % Slot.count : Nat) =
      s.get? ((slot.toNat + j) % Slot.count : Nat)) :
    s'.read slot.toNat offset size = s.read slot.toNat offset size := by
  rw [read_eq_mapM s' slot hoffset, read_eq_mapM s slot hoffset]
  apply mapM_congr
  intro i hi
  rw [byteAt, byteAt, wordAt, wordAt, word, word, h _ (inSpan_of_lt (List.mem_range.1 hi))]

/-- The bytes behind a place in a span are those behind the word and the offset of this place. -/
theorem byteAt_add (s : Store) (slot : Slot) (n i : Nat) :
    s.byteAt slot.toNat (n + i) =
      s.byteAt (slot + BitVec.ofNat 256 (n / wordSize) : Slot).toNat (n % wordSize + i) := by
  have hplace : n + i = wordSize * (n / wordSize) + (n % wordSize + i) := by
    have := Nat.div_add_mod n wordSize
    omega
  have hindex : slot.toNat + (n + i) / wordSize =
      slot.toNat + n / wordSize + (n % wordSize + i) / wordSize := by
    rw [hplace, Nat.mul_add_div (by decide)]
    omega
  rw [byteAt, byteAt, wordAt, wordAt, hindex, slot.toNat_add_ofNat, Nat.mod_add_mod,
    Nat.mod_add_mod]

/-- A span is read in two parts as it is read at once. -/
theorem read_append (s : Store) (slot : Slot) (hoffset : offset < wordSize) (size more : Nat) :
    s.read slot.toNat offset (size + more : Nat) = do
      let front ← s.read slot.toNat offset size
      let back ← s.read (slot + BitVec.ofNat 256 ((offset + size) / wordSize) : Slot).toNat
        ((offset + size) % wordSize : Nat) more
      return front ++ back := by
  have hbehind : (offset + size) % wordSize < wordSize := Nat.mod_lt _ (by decide)
  rw [read_eq_mapM s slot hoffset, read_eq_mapM s slot hoffset, read_eq_mapM s _ hbehind,
    List.range_add, List.mapM_append, List.mapM_map]
  congr 1
  funext front
  congr 2
  funext i
  rw [Function.comp_apply, ← Nat.add_assoc, byteAt_add]

/--
If no word of a span is too long, a read of the span returns as many bytes as were asked for, byte
`i` of them from the place `offset + i` behind the first byte of the first word; and otherwise it
ends at the first word that is too long. What is kept for slots outside of the span does not matter.
So a span is read in two parts as it is read at once, the second part from where the first one ends.
-/
theorem read_exact_span (s : Store) (slot : Slot) (hoffset : offset < wordSize) (size : Nat) :
    ((∀ j, InSpan offset size j → s.FitsAt (slot.toNat + j)) →
      ∃ raw, s.read slot.toNat offset size = .ok raw ∧ raw.length = size ∧
        ∀ i < size, ∃ x, raw[i]? = some x ∧ s.HasByte slot.toNat (offset + i) x) ∧
    (¬(∀ j, InSpan offset size j → s.FitsAt (slot.toNat + j)) →
      ∃ j b, InSpan offset size j ∧
        s.get? ((slot.toNat + j) % Slot.count : Nat) = .ok (some b) ∧ wordSize < b.length ∧
        (∀ k < j, s.FitsAt (slot.toNat + k)) ∧ s.read slot.toNat offset size =
          .error (.layout (.longWord ((slot.toNat + j) % Slot.count : Nat) b.length))) ∧
    (∀ s' : Store, (∀ j, InSpan offset size j →
        s'.get? ((slot.toNat + j) % Slot.count : Nat) =
          s.get? ((slot.toNat + j) % Slot.count : Nat)) →
      s'.read slot.toNat offset size = s.read slot.toNat offset size) ∧
    ∀ more : Nat, s.read slot.toNat offset (size + more : Nat) = do
      let front ← s.read slot.toNat offset size
      let back ← s.read (slot + BitVec.ofNat 256 ((offset + size) / wordSize) : Slot).toNat
        ((offset + size) % wordSize : Nat) more
      return front ++ back := by
  refine ⟨read_of_fits hoffset, fun h => ?_, fun s' => read_eq_of_get?_eq hoffset,
    read_append s slot hoffset size⟩
  obtain ⟨j, b, hj, hb, hlong, hbefore⟩ := exists_first_long h
  exact ⟨j, b, hj, hb, hlong, hbefore, read_of_long hoffset hj hb hlong hbefore⟩

/-! ## A span behind which a word is too long -/

namespace Torn

/-- The words around the end of storage: that of slot one is too long. -/
def store : Store where
  words := [(2 ^ 256 - 1, [1, 2, 3]), (0, 7 :: Bytes.zeros 31), (1, Bytes.zeros 33)]

def last : Slot := BitVec.allOnes 256

theorem fitsAt_last : store.FitsAt last.toNat := by
  rintro b ⟨⟩
  decide

theorem fitsAt_first : store.FitsAt (last.toNat + 1) := by
  rintro b ⟨⟩
  decide

theorem fits : ∀ j, InSpan 30 3 j → store.FitsAt (last.toNat + j) := by
  rintro j ⟨-, hj⟩
  obtain rfl | rfl : j = 0 ∨ j = 1 := by
    change j ≤ 1 at hj
    omega
  · exact fitsAt_last
  · exact fitsAt_first

theorem not_fitsAt_second : ¬store.FitsAt (last.toNat + 2) :=
  fun h => absurd (h (Bytes.zeros 33) rfl) (by decide)

end Torn

/-- A span of three bytes runs from the last slot on into slot zero, as its two parts do. One of 35
bytes reaches the word that is too long. -/
theorem read_exact_span_torn :
    (∃ raw, Torn.store.read Torn.last.toNat 30 3 = .ok raw ∧ raw.length = 3) ∧
      Torn.store.read Torn.last.toNat 30 (2 + 1 : Nat) = .ok [2, 3, 7] ∧
      ∃ e, Torn.store.read Torn.last.toNat 30 35 = .error (.layout e) := by
  obtain ⟨hread, -, -, -⟩ := @read_exact_span 30 Torn.store Torn.last (by decide) 3
  obtain ⟨-, -, -, hparts⟩ := @read_exact_span 30 Torn.store Torn.last (by decide) 2
  obtain ⟨-, hlong, -, -⟩ := @read_exact_span 30 Torn.store Torn.last (by decide) 35
  refine ⟨?_, hparts 1, ?_⟩
  · obtain ⟨raw, hraw, hlength, -⟩ := hread Torn.fits
    exact ⟨raw, hraw, hlength⟩
  · have hnot : ¬∀ j, InSpan 30 35 j → Torn.store.FitsAt (Torn.last.toNat + j) := fun h =>
      Torn.not_fitsAt_second (h 2 ⟨by decide, by decide⟩)
    obtain ⟨j, b, -, -, -, -, herror⟩ := hlong hnot
    exact ⟨_, herror⟩

end Store

end StorageSnapshot

-- SUMMARY: Which entry of a dump a slot has its word from: the last one that gives it a word.
import StorageSnapshot.Proofs.Numerals

/-!
# Words of dumps

An entry of a dump gives a slot a word, and one slot has many spellings: a dump may give a slot two
words. It is then read with the later one, as it is read with each word that is given once. So no
entry is lost from a dump whose entries agree wherever they are about the same slot.
-/

namespace StorageSnapshot

/-- What passes as a word is hexadecimal text of at most a word, with the bytes that it writes. -/
theorem Check.word_eq_ok_iff {given : Datum} {raw : Bytes} :
    word given = .ok raw ↔
      ∃ s, given = .text s ∧ Text.WritesBytes s raw ∧ raw.length ≤ wordSize := by
  constructor
  · intro h
    have hlength := length_of_word h
    cases given with
    | text s =>
      refine ⟨s, rfl, ?_, hlength⟩
      unfold word at h
      dsimp only at h
      split at h
      next => cases h
      next b hb =>
        split at h
        next =>
          cases h
          exact Bytes.ofHex_eq_ok_iff.1 hb
        next => cases h
    | _ => cases h
  · rintro ⟨s, rfl, hs, hlength⟩
    simp only [word, Bytes.ofHex_eq_ok_iff.2 hs, if_pos hlength]

namespace Store

variable {dump : List (String × Datum)} {entry : String × Datum} {x : Slot} {raw : Bytes}

/-! ## Entries -/

/-- Whether an entry of a dump gives a slot a word, as a numeral of the slot and hexadecimal text of
the word without some of the zeros in front. -/
structure Gives (entry : String × Datum) (x : Slot) (raw : Bytes) : Prop where
  slot : Text.IsNumeral entry.1 x.toNat
  word : ∃ s, entry.2 = .text s ∧ Text.WritesBytes s raw
  fits : raw.length ≤ wordSize

/-- An entry is read as the slot and the word that it gives. -/
theorem entryOfDump_eq_ok_iff {e : Int × Bytes} :
    entryOfDump entry = .ok e ↔ ∃ x raw, Gives entry x raw ∧ e = ((x.toNat : Int), raw) := by
  constructor
  · intro h
    obtain ⟨x, hx, h⟩ := bind_eq_ok.1 h
    obtain ⟨raw, hraw, h⟩ := bind_eq_ok.1 h
    cases h
    obtain ⟨s, hs, hwrites, hlength⟩ := Check.word_eq_ok_iff.1 hraw
    exact ⟨x, raw, ⟨Check.slot_eq_ok_iff.1 hx, ⟨s, hs, hwrites⟩, hlength⟩, rfl⟩
  · rintro ⟨x, raw, h, rfl⟩
    obtain ⟨s, hs, hwrites⟩ := h.word
    have hword := Check.word_eq_ok_iff.2 ⟨s, hs, hwrites, h.fits⟩
    rw [entryOfDump, Check.slot_eq_ok_iff.2 h.slot, ok_bind, hword]
    rfl

theorem Gives.entryOfDump_eq (h : Gives entry x raw) :
    entryOfDump entry = .ok ((x.toNat : Int), raw) := entryOfDump_eq_ok_iff.2 ⟨x, raw, h, rfl⟩

theorem Gives.of_entryOfDump (h : entryOfDump entry = .ok ((x.toNat : Int), raw)) :
    Gives entry x raw := by
  obtain ⟨x', raw', h', he⟩ := entryOfDump_eq_ok_iff.1 h
  rw [Prod.mk.injEq, Int.ofNat_inj] at he
  obtain ⟨hx, rfl⟩ := he
  rwa [BitVec.eq_of_toNat_eq hx]

/-! ## Dumps -/

/-- A dump is read if all of its entries give words. -/
theorem ofDump_eq_ok_iff {hashed : Bool} :
    (∃ s, ofDump dump hashed = .ok s) ↔ ∀ entry ∈ dump, ∃ x raw, Gives entry x raw := by
  constructor
  · rintro ⟨s, h⟩ entry hentry
    obtain ⟨ws, hws, -⟩ := bind_eq_ok.1 h
    obtain ⟨e, -, he⟩ := (exists_of_mapM_eq_ok hws).1 entry hentry
    obtain ⟨x, raw, hgives, -⟩ := entryOfDump_eq_ok_iff.1 he
    exact ⟨x, raw, hgives⟩
  · intro h
    have hentries : ∀ entry ∈ dump, ∃ e, entryOfDump entry = .ok e := by
      intro entry hentry
      obtain ⟨x, raw, hgives⟩ := h entry hentry
      exact ⟨_, hgives.entryOfDump_eq⟩
    obtain ⟨ws, hws, -⟩ := mapM_eq_ok hentries
    exact ⟨ofWords ws hashed, by rw [ofDump, hws]; rfl⟩

/-! ## Words by slot -/

section

variable {s : Store} {front back : List (String × Datum)}

theorem get?_plain (h : s.hashed = false) (x : Slot) :
    Fault.lift (s.get? x.toNat) = .ok (s.words.lookup (x.toNat : Int)) := by
  rw [get?, key_plain h]
  rfl

theorem word_of_lookup_none (hs : s.hashed = false) (h : s.words.lookup (x.toNat : Int) = none) :
    s.word x.toNat = .ok (Bytes.zeros wordSize) := by
  rw [word, get?_plain hs, ok_bind, h]
  rfl

theorem word_of_lookup_some (hs : s.hashed = false)
    (h : s.words.lookup (x.toNat : Int) = some raw) (hfits : raw.length ≤ wordSize) :
    s.word x.toNat = .ok (raw.padLeft wordSize) := by
  rw [word, get?_plain hs, ok_bind, h]
  dsimp only
  rw [if_neg (Nat.not_lt.2 hfits)]
  rfl

/-- Entries that are read give the words that they are read as. -/
theorem gives_of_mapM {ws : List (Int × Bytes)} (h : dump.mapM entryOfDump = .ok ws)
    (hw : ((x.toNat : Int), raw) ∈ ws) : ∃ entry ∈ dump, Gives entry x raw := by
  obtain ⟨entry, hentry, he⟩ := (exists_of_mapM_eq_ok h).2 _ hw
  exact ⟨entry, hentry, .of_entryOfDump he⟩

/-- A slot is read with the word of the last entry that gives it one. -/
theorem word_of_last (h : ofDump (front ++ entry :: back) false = .ok s)
    (hentry : Gives entry x raw) (hback : ∀ later ∈ back, ∀ w, ¬Gives later x w) :
    s.word x.toNat = .ok (raw.padLeft wordSize) := by
  obtain ⟨ws, hws, hs⟩ := bind_eq_ok.1 h
  cases hs
  rw [List.mapM_append, List.mapM_cons, hentry.entryOfDump_eq, ok_bind] at hws
  obtain ⟨ws₁, -, hws⟩ := bind_eq_ok.1 hws
  obtain ⟨rest, hrest, hws⟩ := bind_eq_ok.1 hws
  obtain ⟨ws₂, hws₂, hrest⟩ := bind_eq_ok.1 hrest
  cases hrest
  cases hws
  refine word_of_lookup_some rfl (lookup_foldl_last ?_) hentry.fits
  rintro ⟨k, w⟩ hw rfl
  obtain ⟨later, hlater, hgives⟩ := gives_of_mapM hws₂ hw
  exact hback later hlater w hgives

/-- A slot that no entry gives a word holds zeros. -/
theorem word_of_none (h : ofDump dump false = .ok s)
    (hdump : ∀ entry ∈ dump, ∀ w, ¬Gives entry x w) :
    s.word x.toNat = .ok (Bytes.zeros wordSize) := by
  obtain ⟨ws, hws, hs⟩ := bind_eq_ok.1 h
  cases hs
  refine word_of_lookup_none rfl ((lookup_foldl_of_ne ?_).trans List.lookup_nil)
  rintro ⟨k, w⟩ hw rfl
  obtain ⟨entry, hentry, hgives⟩ := gives_of_mapM hws hw
  exact hdump entry hentry w hgives

/-- Of the entries that give a slot a word one is the last. -/
theorem exists_last (hentry : entry ∈ dump) (h : Gives entry x raw) :
    ∃ front last back w, dump = front ++ last :: back ∧ Gives last x w ∧
      ∀ later ∈ back, ∀ w, ¬Gives later x w := by
  induction dump generalizing entry raw with
  | nil => cases hentry
  | cons first dump ih =>
    by_cases hlater : ∃ later ∈ dump, ∃ w, Gives later x w
    · -- The last one is behind the first entry.
      obtain ⟨later, hmem, w, hw⟩ := hlater
      obtain ⟨front, last, back, w, rfl, hlast⟩ := ih hmem hw
      exact ⟨first :: front, last, back, w, rfl, hlast⟩
    · rcases List.mem_cons.1 hentry with rfl | hmem
      · exact ⟨[], entry, dump, raw, rfl, h, fun later hmem w hw => hlater ⟨later, hmem, w, hw⟩⟩
      · exact absurd ⟨entry, hmem, raw, h⟩ hlater

end

/--
A dump is read if all of its entries give words, and then a slot has the word of the last entry that
gives it one, or zeros if none does. So every entry is read back unless it is contradicted: where
the entries about a slot agree on its word, it is the word of each of them.
-/
theorem ofDump_reads_last (dump : List (String × Datum)) :
    ((∃ s, ofDump dump false = .ok s) ↔ ∀ entry ∈ dump, ∃ x raw, Gives entry x raw) ∧
    ∀ s, ofDump dump false = .ok s →
      (∀ front entry back x raw, dump = front ++ entry :: back → Gives entry x raw →
        (∀ later ∈ back, ∀ w, ¬Gives later x w) → s.word x.toNat = .ok (raw.padLeft wordSize)) ∧
      (∀ x : Slot, (∀ entry ∈ dump, ∀ w, ¬Gives entry x w) →
        s.word x.toNat = .ok (Bytes.zeros wordSize)) ∧
      ∀ x : Slot, (∀ entry ∈ dump, ∀ entry' ∈ dump, ∀ w w', Gives entry x w → Gives entry' x w' →
          w.padLeft wordSize = w'.padLeft wordSize) →
        ∀ entry ∈ dump, ∀ raw, Gives entry x raw →
          s.word x.toNat = .ok (raw.padLeft wordSize) := by
  refine ⟨ofDump_eq_ok_iff, fun s hs => ⟨?last, fun x => word_of_none hs, ?agree⟩⟩
  case last =>
    rintro front entry back x raw rfl
    exact word_of_last hs
  case agree =>
    intro x hagree entry hentry raw hgives
    obtain ⟨front, last, back, w, rfl, hlast, hback⟩ := exists_last hentry hgives
    have hmem : last ∈ front ++ last :: back := List.mem_append_right _ List.mem_cons_self
    rw [word_of_last hs hlast hback, hagree last hmem entry hentry w raw hlast hgives]

theorem Gives.word_eq {w : Bytes} (h : Gives entry x raw) (hw : Gives entry x w) : w = raw := by
  have he := hw.entryOfDump_eq
  rw [h.entryOfDump_eq, Except.ok.injEq, Prod.mk.injEq] at he
  exact he.2.symm

/-! ## A slot that is spelled twice -/

namespace Twice

/-- Two spellings of one slot, and of one word. -/
def agreeing : List (String × Datum) := [("0x1F", .text "0x2a"), (" 31 ", .text "002A")]

theorem gives_first : Gives ("0x1F", .text "0x2a") 31 [0x2a] := .of_entryOfDump rfl

theorem gives_second : Gives (" 31 ", .text "002A") 31 [0, 0x2a] := .of_entryOfDump rfl

/-- Two spellings of one slot, with different words. -/
def contradicting : List (String × Datum) := [("0x0", .text "0x01"), ("0", .text "0x02")]

end Twice

/-- Both entries are read back where they agree, and other slots hold zeros. -/
theorem ofDump_reads_last_twice :
    ∃ s, ofDump Twice.agreeing false = .ok s ∧
      s.word (31 : Slot).toNat = .ok (Bytes.zeros 31 ++ [0x2a]) ∧
      s.word (1 : Slot).toNat = .ok (Bytes.zeros 32) := by
  obtain ⟨hread, hwords⟩ := ofDump_reads_last Twice.agreeing
  have hentries : ∀ entry ∈ Twice.agreeing, ∃ w, Gives entry 31 w ∧
      w.padLeft wordSize = Bytes.zeros 31 ++ [0x2a] := by
    intro entry hentry
    rcases List.mem_cons.1 hentry with rfl | hentry
    · exact ⟨_, Twice.gives_first, rfl⟩
    · rw [List.mem_singleton.1 hentry]
      exact ⟨_, Twice.gives_second, rfl⟩
  have hagree : ∀ entry ∈ Twice.agreeing, ∀ w, Gives entry 31 w →
      w.padLeft wordSize = Bytes.zeros 31 ++ [0x2a] := by
    intro entry hentry w hw
    obtain ⟨w', hw', hpad⟩ := hentries entry hentry
    rw [hw'.word_eq hw, hpad]
  obtain ⟨s, hs⟩ := hread.2 fun entry hentry => ⟨31, (hentries entry hentry).imp fun _ h => h.1⟩
  obtain ⟨-, hzeros, hback⟩ := hwords s hs
  refine ⟨s, hs, ?_, hzeros 1 ?_⟩
  · refine hback 31 ?_ _ List.mem_cons_self _ Twice.gives_first
    intro entry hentry entry' hentry' w w' hw hw'
    rw [hagree entry hentry w hw, hagree entry' hentry' w' hw']
  · intro entry hentry w hw
    obtain ⟨w', hw', -⟩ := hentries entry hentry
    have hslot := hw.entryOfDump_eq
    rw [hw'.entryOfDump_eq, Except.ok.injEq, Prod.mk.injEq] at hslot
    exact absurd hslot.1 (by decide)

/-- Of two entries that contradict each other the first is lost without an error. -/
theorem ofDump_loses_first :
    ∃ s, ofDump Twice.contradicting false = .ok s ∧ Gives ("0x0", .text "0x01") 0 [1] ∧
      s.word (0 : Slot).toNat = .ok (Bytes.zeros 31 ++ [2]) ∧
      Bytes.zeros 31 ++ [2] ≠ Bytes.padLeft wordSize [1] :=
  ⟨_, rfl, .of_entryOfDump rfl, rfl, by decide⟩

end Store

end StorageSnapshot

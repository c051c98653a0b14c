-- SUMMARY: A snapshot by digests of slots has the words, and the values, of a snapshot by slots.
import StorageSnapshot.Proofs.Footprint
import StorageSnapshot.Proofs.Spelling

/-!
# Hashed snapshots

The words of storage may be listed under their slots, or under the digests of their slots. As long
as no two slots that matter have the same digest, both snapshots have the same word at every slot,
whatever way the slots, the digests and the words are spelled. So both have the same values: it
matters which slots hold words, and which are read.
-/

namespace StorageSnapshot

/-! ## Snapshots -/

/-- Whether an entry of a dump writes a word and the number of its key, in any spelling. -/
structure Spells (entry : String × Datum) (key : Nat) (word : Bytes) : Prop where
  key : Text.IsNumeral entry.1 key
  word : ∃ s, entry.2 = .text s ∧ Text.IsHex s wordSize word.toNat

/-- Whether a dump lists the words that slots hold, each under the number that its slot has as a
key. -/
structure Lists (keyOf : Slot → Nat) (words : Slot → Option Bytes) (dump : List (String × Datum)) :
    Prop where
  of_entry : ∀ entry ∈ dump, ∃ x w, words x = some w ∧ Spells entry (keyOf x) w
  of_word : ∀ x w, words x = some w → ∃ entry ∈ dump, Spells entry (keyOf x) w

/-- The word at a slot with the zeros in front. A slot that holds no word holds zeros. -/
def wordIn (words : Slot → Option Bytes) (x : Slot) : Bytes :=
  match words x with
  | some w => Bytes.padLeft wordSize w
  | none => Bytes.zeros wordSize

/-- The number that the digest of a slot spells. -/
def Slot.digestNumber (x : Slot) : Nat := (Keccak.digest x.toBytes).toNat

theorem Slot.digestNumber_lt (x : Slot) : x.digestNumber < Slot.count := by
  have hlt := Bytes.toNat_lt (Keccak.digest x.toBytes)
  rwa [Keccak.length_digest] at hlt

/-- Digests are told apart by their numbers. -/
theorem Slot.digest_eq_of_digestNumber_eq {x y : Slot} (h : x.digestNumber = y.digestNumber) :
    Keccak.digest x.toBytes = Keccak.digest y.toBytes :=
  Bytes.toNat_inj (by rw [Keccak.length_digest, Keccak.length_digest]) h

namespace Store

variable {keyOf : Slot → Nat} {words : Slot → Option Bytes} {dump : List (String × Datum)}

/-- An entry is read as the word that it writes, apart from zeros in front. -/
theorem entryOfDump_of_spells {entry : String × Datum} {key : Nat} {word : Bytes}
    (h : Spells entry key word) (hkey : key < Slot.count) (hword : word.length ≤ wordSize) :
    ∃ raw, entryOfDump entry = .ok ((key : Int), raw) ∧ raw.length ≤ wordSize ∧
      Bytes.padLeft wordSize raw = Bytes.padLeft wordSize word := by
  obtain ⟨text, datum⟩ := entry
  obtain ⟨s, rfl, hs⟩ := h.word
  obtain ⟨x, hx, rfl⟩ := Check.slot_of_isNumeral hkey h.key
  obtain ⟨raw, hraw, hlength, hnumber⟩ := Check.word_of_isHex hs
  refine ⟨raw, ?_, hlength, Bytes.padLeft_eq_of_toNat_eq hlength hword hnumber⟩
  rw [entryOfDump, hx, ok_bind, hraw]
  rfl

theorem key_hashed {s : Store} (h : s.hashed = true) (x : Slot) :
    s.key x.toNat = .ok (x.digestNumber : Int) := by
  simp only [key, h, if_true, Bytes.ofInt_ofNat x.toNat_lt_count]
  rfl

/-- A dump is read as a store with the words that it lists, at all slots whose key is the key of no
other slot that holds a word. -/
theorem ofDump_of_lists (hlists : Lists keyOf words dump) (hkeys : ∀ x, keyOf x < Slot.count)
    (hwords : ∀ x w, words x = some w → w.length ≤ wordSize) {hashed : Bool}
    (hkey : ∀ s : Store, s.hashed = hashed → ∀ x : Slot, s.key x.toNat = .ok (keyOf x : Int)) :
    ∃ s, ofDump dump hashed = .ok s ∧
      ∀ x, (∀ y w, words y = some w → keyOf y = keyOf x → y = x) →
        s.word x.toNat = .ok (wordIn words x) := by
  have hentries : ∀ entry ∈ dump, ∃ e, entryOfDump entry = .ok e := by
    intro entry hentry
    obtain ⟨y, w, hw, hspells⟩ := hlists.of_entry entry hentry
    obtain ⟨raw, hraw, -⟩ := entryOfDump_of_spells hspells (hkeys y) (hwords y w hw)
    exact ⟨_, hraw⟩
  obtain ⟨ws, hws, hto, hfrom⟩ := mapM_eq_ok hentries
  refine ⟨ofWords ws hashed, by rw [ofDump, hws]; rfl, ?_⟩
  intro x hx
  have hget : Fault.lift ((ofWords ws hashed).get? x.toNat) =
      .ok ((ofWords ws hashed).words.lookup (keyOf x : Int)) := by
    rw [get?, hkey (ofWords ws hashed) rfl x]
    rfl
  rw [word, hget, ok_bind]
  cases hfound : (ofWords ws hashed).words.lookup (keyOf x : Int) with
  | none =>
    have hnone : words x = none := by
      cases hword : words x with
      | none => rfl
      | some w =>
        -- A word that is listed is found.
        obtain ⟨entry, hentry, hspells⟩ := hlists.of_word x w hword
        obtain ⟨raw, hraw, -⟩ := entryOfDump_of_spells hspells (hkeys x) (hwords x w hword)
        obtain ⟨e, he, hread⟩ := hto entry hentry
        rw [hraw, Except.ok.injEq] at hread
        exact absurd hfound (lookup_foldl_ne_none (.inl ⟨raw, hread ▸ he⟩))
    simp only [wordIn, hnone]
    rfl
  | some raw =>
    have hmem : ((keyOf x : Int), raw) ∈ ws := by
      rcases mem_of_lookup_foldl hfound with hmem | hempty
      · exact hmem
      · cases hempty
    obtain ⟨entry, hentry, hread⟩ := hfrom _ hmem
    obtain ⟨y, w, hw, hspells⟩ := hlists.of_entry entry hentry
    obtain ⟨raw', hraw', hlength, hpad⟩ := entryOfDump_of_spells hspells (hkeys y) (hwords y w hw)
    rw [hread, Except.ok.injEq, Prod.mk.injEq] at hraw'
    obtain ⟨hsame, rfl⟩ := hraw'
    have hslot : y = x := hx y w hw (Int.ofNat_inj.1 hsame.symm)
    subst hslot
    have hfits : ¬raw.length > wordSize := Nat.not_lt.2 hlength
    simp only [wordIn, hw, if_neg hfits, hpad]
    rfl

end Store

namespace Decode

/--
A snapshot by digests and a snapshot by slots have the same word at every slot that matters, if no
two of these slots have the same digest and all slots that hold words matter. So they have the same
value, with the same records, wherever no slot is read that does not matter; and they have the same
values for keys of mappings. If no slots at all have the same digest, every slot may matter.
-/
theorem hashed_snapshot_agrees {matters : Slot → Prop}
    (hdigest : ∀ x y, matters x → matters y →
      Keccak.digest x.toBytes = Keccak.digest y.toBytes → x = y)
    {words : Slot → Option Bytes}
    (hwords : ∀ x w, words x = some w → matters x ∧ w.length ≤ wordSize)
    {plain hashed : List (String × Datum)} (hplain : Lists BitVec.toNat words plain)
    (hhashed : Lists Slot.digestNumber words hashed) :
    ∃ p h, Store.ofDump plain false = .ok p ∧ Store.ofDump hashed true = .ok h ∧
      (∀ x, p.word x.toNat = .ok (wordIn words x)) ∧
      (∀ x, matters x → h.word x.toNat = .ok (wordIn words x)) ∧
      ∀ resolver limits,
        (∀ depth t c, (∀ x, Touches ⟨p, resolver, limits⟩ depth t c x → matters x) →
          value ⟨p, resolver, limits⟩ depth t c = value ⟨h, resolver, limits⟩ depth t c) ∧
        ∀ t c keys, (∀ x, TouchesEntry ⟨p, resolver, limits⟩ t c keys x → matters x) →
          mappingPath ⟨p, resolver, limits⟩ t c keys =
            mappingPath ⟨h, resolver, limits⟩ t c keys := by
  have hfits : ∀ x w, words x = some w → w.length ≤ wordSize := fun x w hw => (hwords x w hw).2
  obtain ⟨p, hp, hpword⟩ := Store.ofDump_of_lists hplain Slot.toNat_lt_count hfits
    fun s => Store.key_plain
  obtain ⟨h, hh, hhword⟩ := Store.ofDump_of_lists hhashed Slot.digestNumber_lt hfits
    fun s => Store.key_hashed
  have hplainWord (x : Slot) : p.word x.toNat = .ok (wordIn words x) :=
    hpword x fun y w hw hy => BitVec.eq_of_toNat_eq hy
  have hhashedWord (x : Slot) (hx : matters x) : h.word x.toNat = .ok (wordIn words x) :=
    hhword x fun y w hw hy =>
      hdigest y x (hwords y w hw).1 hx (Slot.digest_eq_of_digestNumber_eq hy)
  have hsame (x : Slot) (hx : matters x) : p.word x.toNat = h.word x.toNat :=
    (hplainWord x).trans (hhashedWord x hx).symm
  refine ⟨p, h, hp, hh, hplainWord, hhashedWord, fun resolver limits => ⟨?_, ?_⟩⟩
  · intro depth t c htouches
    exact value_congr depth t c fun x hx => hsame x (htouches x hx)
  · intro t c keys htouches
    exact mappingPath_congr t c keys fun x hx => hsame x (htouches x hx)

/-! ## Two numbers in two slots -/

namespace Pair

def type : Ty :=
  .struct ⟨⟨none, .int 1⟩, .text "Pair", .text "Pair"⟩
    [.attached (.text "first") (.int .uint256), .attached (.text "second") (.int .uint256)]

/-- Only the first number was ever written. -/
def words (x : Slot) : Option Bytes := if x = 0 then some [0, 9, 7] else none

def plain : List (String × Datum) := [("0", .text "0x907")]

/-- The digits of the digest of the first slot. -/
def digits : List Char :=
  "290DECD9548b62a8d60345a988386fc84ba6bc95484008f6362f93160ef3e563".toList

def hashed : List (String × Datum) :=
  [("0x290DECD9548b62a8d60345a988386fc84ba6bc95484008f6362f93160ef3e563", .text " 0907")]

def store : Store := { words := [(0, [9, 7])] }

theorem ofDump_plain : Store.ofDump plain false = .ok store := rfl

set_option maxRecDepth 100000 in
theorem digestNumber_zero : Slot.digestNumber 0 =
    0x290decd9548b62a8d60345a988386fc84ba6bc95484008f6362f93160ef3e563 := by
  decide +kernel

set_option maxRecDepth 100000 in
theorem digestNumber_one : Slot.digestNumber 1 =
    0xb10e2d527612073b26eecdfd717e6a320cf44b4afac2b0732d9fcbe2b7fa0cf6 := by
  decide +kernel

theorem digest_ne : Keccak.digest (Slot.toBytes 0) ≠ Keccak.digest (Slot.toBytes 1) := by
  intro h
  have hnumber : Slot.digestNumber 0 = Slot.digestNumber 1 := congrArg Bytes.toNat h
  rw [digestNumber_zero, digestNumber_one] at hnumber
  exact absurd hnumber (by decide)

theorem digest_inj (x y : Slot) (hx : x = 0 ∨ x = 1) (hy : y = 0 ∨ y = 1)
    (h : Keccak.digest x.toBytes = Keccak.digest y.toBytes) : x = y := by
  rcases hx with rfl | rfl <;> rcases hy with rfl | rfl
  · rfl
  · exact absurd h digest_ne
  · exact absurd h.symm digest_ne
  · rfl

theorem words_eq_some {x : Slot} {w : Bytes} (h : words x = some w) : x = 0 ∧ w = [0, 9, 7] := by
  unfold words at h
  split at h
  next hx => exact ⟨hx, (Option.some.inj h).symm⟩
  next => cases h

theorem lists_entry {keyOf : Slot → Nat} {entry : String × Datum}
    (h : Spells entry (keyOf 0) [0, 9, 7]) : Lists keyOf words [entry] where
  of_entry entry' hentry := by
    rw [List.mem_singleton.1 hentry]
    exact ⟨0, [0, 9, 7], rfl, h⟩
  of_word x w hw := by
    obtain ⟨rfl, rfl⟩ := words_eq_some hw
    exact ⟨entry, List.mem_singleton_self entry, h⟩

theorem lists_plain : Lists BitVec.toNat words plain := by
  refine lists_entry ⟨?_, "0x907", rfl, ['0', 'x'], ['9', '0', '7'], .inr (.inl rfl), ?_⟩
  · exact .decimal ⟨[], [], by simp, by simp, rfl⟩ (by decide) (by decide)
      ⟨[0], .cons rfl .nil, rfl⟩
  · exact ⟨⟨[], [], by simp, by simp, rfl⟩, by decide,
      [9, 0, 7], .cons rfl (.cons rfl (.cons rfl .nil)), rfl⟩

theorem lists_hashed : Lists Slot.digestNumber words hashed := by
  refine lists_entry ⟨?_, " 0907", rfl, [], ['0', '9', '0', '7'], .inl rfl, ?_⟩
  · have hdigits : Text.AreDigits 16 hexValue? digits _ := Text.areDigits_of_all rfl
    rw [digestNumber_zero]
    exact .hexadecimal (.inl rfl) ⟨[], [], by simp, by simp, rfl⟩ (by decide) hdigits
  · exact ⟨⟨[' '], [], by simp [Text.isBlank], by simp, rfl⟩, by decide,
      [0, 9, 0, 7], .cons rfl (.cons rfl (.cons rfl (.cons rfl .nil))), rfl⟩

theorem touches {x : Slot} (h : Touches ⟨store, .plain, {}⟩ 0 type (.fresh 0) x) :
    x = 0 ∨ x = 1 := by
  cases h with
  | slot hdepth ht => cases ht
  | contents hdepth ht => rcases ht with ht | ht <;> cases ht
  | member hdepth hplace h =>
    cases hplace with
    | first ht hplace =>
      cases ht
      cases hplace
      cases h with
      | slot => exact .inl rfl
      | contents hdepth ht => rcases ht with ht | ht <;> cases ht
    | later ht hplace hv hlater =>
      cases ht
      cases hplace
      cases hv
      cases hlater with
      | first ht hplace =>
        cases ht
        cases hplace
        cases h with
        | slot => exact .inr rfl
        | contents hdepth ht => rcases ht with ht | ht <;> cases ht
      | later ht hplace hv hnone => cases hnone

end Pair

/-- Both snapshots have the same two numbers, of which the second was never written. -/
theorem hashed_snapshot_agrees_pair :
    ∃ h, Store.ofDump Pair.hashed true = .ok h ∧
      (∀ x, x = 0 ∨ x = 1 → h.word x.toNat = .ok (wordIn Pair.words x)) ∧
      (value ⟨h, .plain, {}⟩ 0 Pair.type (.fresh 0)).result =
        .ok (.struct [(.text "first", .int 0x907), (.text "second", .int 0)], .fresh 2) := by
  obtain ⟨p, h, hp, hh, -, hwords, hvalue⟩ := hashed_snapshot_agrees Pair.digest_inj
    (fun x w hw => ⟨.inl (Pair.words_eq_some hw).1, by rw [(Pair.words_eq_some hw).2]; decide⟩)
    Pair.lists_plain Pair.lists_hashed
  have hstore : p = Pair.store := Except.ok.inj (hp.symm.trans Pair.ofDump_plain)
  subst hstore
  refine ⟨h, hh, hwords, ?_⟩
  rw [← (hvalue .plain {}).1 0 Pair.type (.fresh 0) fun x => Pair.touches]
  rfl

end Decode

end StorageSnapshot

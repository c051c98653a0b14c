-- SUMMARY: What decoding makes of every header of a byte string, and why no two are confused.
import StorageSnapshot.Proofs.HashedSnapshot
import StorageSnapshot.Proofs.RoundTrip

/-!
# Headers of byte strings

The word in the slot of a byte string is its header. The last byte tells two forms of headers apart:
an even one is twice the number of bytes in front of it, an odd one is the end of a number that says
how many bytes stand elsewhere. Every word is a header, also one that the compiler never writes, and
decoding makes of it either bytes or nothing.
-/

namespace StorageSnapshot

variable {ctx : Context} {s : Store} {limits : Limits} {slot : Slot} {t : Ty} {c : Cursor}

/-! ## Words and spans -/

/-- The last byte of a number is what it leaves modulo 256. -/
theorem Bytes.toNat_mod_of_getLast? {b : Bytes} {low : UInt8} (h : b.getLast? = some low) :
    b.toNat % 256 = low.toNat := by
  obtain ⟨front, rfl⟩ := List.getLast?_eq_some_iff.1 h
  have hlow : Bytes.toNat [low] = low.toNat := by simp [Bytes.toNat]
  have hcount : Bytes.count [low].length = 256 := rfl
  have hlt := low.toNat_lt
  rw [Bytes.toNat_append, hlow, hcount]
  omega

namespace Store

/-- A word has a last byte. -/
theorem exists_getLast? {n : Nat} {w : Bytes} (h : s.wordAt n = .ok w) :
    ∃ low, w.getLast? = some low := by
  have hlength := length_wordAt h
  cases hlast : w.getLast? with
  | some low => exact ⟨low, rfl⟩
  | none =>
    rw [List.getLast?_eq_none_iff.1 hlast] at hlength
    cases hlength

/-- Whether a slot is the header of a byte string as the compiler encodes it. -/
def HoldsBytes (s : Store) (slot : Slot) (raw : Bytes) : Prop :=
  s.HoldsShort slot.toNat raw ∨ s.HoldsLong slot.toNat raw

end Store

namespace Decode

/-! ## Headers -/

/-- What a header in a slot makes of a byte string: its bytes, or none if it is given up. -/
inductive Unpacks (s : Store) (limits : Limits) (slot : Slot) : Option Bytes → Prop
  /-- The bytes stand in the header. -/
  | short {header : Bytes} {low : UInt8} (hheader : s.wordAt slot.toNat = .ok header)
      (hlow : header.getLast? = some low) (heven : low.toNat % 2 = 0) (hle : low.toNat ≤ 62) :
      Unpacks s limits slot (some (header.take (low.toNat / 2)))
  /-- The header has no room for so many bytes. -/
  | overfull {header : Bytes} {low : UInt8} (hheader : s.wordAt slot.toNat = .ok header)
      (hlow : header.getLast? = some low) (heven : low.toNat % 2 = 0) (hlt : 62 < low.toNat) :
      Unpacks s limits slot none
  /-- There are more bytes elsewhere than the limits admit. -/
  | unadmitted {header : Bytes} {low : UInt8} (hheader : s.wordAt slot.toNat = .ok header)
      (hlow : header.getLast? = some low) (hodd : low.toNat % 2 = 1)
      (hlt : limits.maxLength < (header.toNat - 1) / 2) : Unpacks s limits slot none
  /-- The bytes stand elsewhere. -/
  | long {header raw : Bytes} {low : UInt8} (hheader : s.wordAt slot.toNat = .ok header)
      (hlow : header.getLast? = some low) (hodd : low.toNat % 2 = 1)
      (hle : (header.toNat - 1) / 2 ≤ limits.maxLength)
      (hlength : raw.length = (header.toNat - 1) / 2)
      (hbytes : ∀ i b, raw[i]? = some b → s.HasByte slot.contents.toNat i b) :
      Unpacks s limits slot (some raw)

variable {header raw : Bytes} {low : UInt8} {outcome : Option Bytes}

namespace Unpacks

/-- Every header makes something of a byte string, if no word is too long. -/
theorem total (hs : s.WordsFit) (limits : Limits) (slot : Slot) :
    ∃ outcome, Unpacks s limits slot outcome := by
  obtain ⟨header, hheader⟩ := hs.wordAt_ok slot.toNat
  obtain ⟨low, hlow⟩ := Store.exists_getLast? hheader
  rcases Nat.mod_two_eq_zero_or_one low.toNat with heven | hodd
  · rcases Nat.lt_or_ge 62 low.toNat with hlt | hle
    · exact ⟨_, .overfull hheader hlow heven hlt⟩
    · exact ⟨_, .short hheader hlow heven hle⟩
  · rcases Nat.lt_or_ge limits.maxLength ((header.toNat - 1) / 2) with hlt | hle
    · exact ⟨_, .unadmitted hheader hlow hodd hlt⟩
    · obtain ⟨raw, hlength, hraw⟩ := hs.exists_span slot.contents.toNat ((header.toNat - 1) / 2)
      exact ⟨some raw, .long hheader hlow hodd hle hlength hraw⟩

end Unpacks

/-- What decoding comes to with these bytes, or with none. -/
def unpacked (c : Cursor) : Option Bytes → Except Halt (Decoded Bytes)
  | some raw => .ok (raw, c.nextWord)
  | none => .error .abort

theorem unpacked_inj {a b : Option Bytes} (h : unpacked c a = unpacked c b) : a = b := by
  cases a <;> cases b <;> simp_all [unpacked]

/-- Decoding looks at the last byte of the header first. -/
theorem result_byteString (hc : c.isFresh = true)
    (hheader : ctx.store.wordAt c.slot.toNat = .ok header) (hlow : header.getLast? = some low) :
    (byteString ctx t c).result =
      if low.toNat % 2 = 0 then
        if 31 < low.toNat / 2 then .error .abort
        else .ok (header.take (low.toNat / 2), c.nextWord)
      else if ctx.limits.maxLength < (header.toNat - 1) / 2 then .error .abort
      else do
        let raw ← (ctx.store.read c.slot.contents.toNat 0 ((header.toNat - 1) / 2 : Nat)).mapError
          Halt.fault
        return (raw, c.nextWord) := by
  have hfresh : checkFresh t c = .ok () := if_pos hc
  have hmod := Bytes.toNat_mod_of_getLast? hlow
  rw [Store.wordAt_toNat] at hheader
  unfold byteString
  simp only [Traced.result_bind, result_stepExcept, hfresh, hheader, mapError_ok, ok_bind, hmod]
  split
  next => split <;> rfl
  next =>
    by_cases hlt : ctx.limits.maxLength < (header.toNat - 1) / 2
    · rw [if_pos ((Bound.exceededBy_iff ..).2 (Int.ofNat_lt.2 hlt)), if_pos hlt]
      rfl
    · rw [if_neg (fun h => hlt (Int.ofNat_lt.1 ((Bound.exceededBy_iff ..).1 h))), if_neg hlt,
        Traced.result_bind, result_stepExcept]
      rfl

/-- Decoding comes to what the header makes of the byte string. -/
theorem Unpacks.result (hc : c.isFresh = true)
    (h : Unpacks ctx.store ctx.limits c.slot outcome) :
    (byteString ctx t c).result = unpacked c outcome := by
  cases h with
  | short hheader hlow heven hle =>
    rw [result_byteString hc hheader hlow, if_pos heven, if_neg (by omega)]
    rfl
  | overfull hheader hlow heven hlt =>
    rw [result_byteString hc hheader hlow, if_pos heven, if_pos (by omega)]
    rfl
  | unadmitted hheader hlow hodd hlt =>
    rw [result_byteString hc hheader hlow, if_neg (by omega), if_pos hlt]
    rfl
  | long hheader hlow hodd hle hlength hbytes =>
    have hread := Store.read_span hbytes
    rw [Slot.toNat_mod_count, hlength] at hread
    rw [result_byteString hc hheader hlow, if_neg (by omega), if_neg (by omega), hread]
    rfl

/-! ## Encodings -/

/-- What the compiler encodes is unpacked again, or given up if the limits do not admit it. -/
theorem Unpacks.of_holdsBytes (h : s.HoldsBytes slot raw) :
    (limits.AdmitsBytes raw.length → Unpacks s limits slot (some raw)) ∧
      (¬limits.AdmitsBytes raw.length → Unpacks s limits slot none) := by
  rcases h with ⟨hshort, w, hw, htake, hheader⟩ | ⟨hlong, ⟨w, hw, hheader⟩, hbytes⟩
  · obtain ⟨low, hlow⟩ := Store.exists_getLast? hw
    have hmod := Bytes.toNat_mod_of_getLast? hlow
    have hlength : low.toNat / 2 = raw.length := by omega
    refine ⟨fun _ => ?_, fun hadmits => absurd (.inl hshort) hadmits⟩
    have hunpacks : Unpacks s limits slot (some (w.take (low.toNat / 2))) :=
      .short hw hlow (by omega) (by omega)
    rwa [hlength, htake] at hunpacks
  · obtain ⟨low, hlow⟩ := Store.exists_getLast? hw
    have hmod := Bytes.toNat_mod_of_getLast? hlow
    have hodd : low.toNat % 2 = 1 := by omega
    have hlength : (w.toNat - 1) / 2 = raw.length := by omega
    rw [← Store.toNat_contents] at hbytes
    constructor
    · rintro (hle | hle)
      · omega
      · exact .long hw hlow hodd (hlength ▸ hle) hlength.symm hbytes
    · intro hadmits
      exact .unadmitted hw hlow hodd (hlength ▸ Nat.lt_of_not_le fun hle => hadmits (.inr hle))

/-- What an encoding is decoded to is the byte string that is encoded, whatever the limits. -/
theorem eq_of_holdsBytes (hc : c.isFresh = true) (h : ctx.store.HoldsBytes c.slot raw)
    {found : Bytes} {next : Cursor} (hfound : (byteString ctx t c).result = .ok (found, next)) :
    found = raw := by
  by_cases hadmits : ctx.limits.AdmitsBytes raw.length
  · rw [((Unpacks.of_holdsBytes h).1 hadmits).result hc] at hfound
    exact (congrArg Prod.fst (Except.ok.inj hfound)).symm
  · rw [((Unpacks.of_holdsBytes h).2 hadmits).result hc] at hfound
    cases hfound

/--
Decoding a byte string at a fresh place comes to what its header makes of it, for every header: it
ends with the bytes and the next word, or gives the byte string up, and never fails. So what the
compiler encodes is decoded to itself, if the limits admit it, and what it encodes differently is
never decoded to the same bytes.
-/
theorem byteString_iff_unpacks (hs : ctx.store.WordsFit) (hc : c.isFresh = true) :
    (∃ outcome, (byteString ctx t c).result = unpacked c outcome) ∧
      (∀ outcome, (byteString ctx t c).result = unpacked c outcome ↔
        Unpacks ctx.store ctx.limits c.slot outcome) ∧
      (∀ raw, ctx.store.HoldsBytes c.slot raw →
        (ctx.limits.AdmitsBytes raw.length →
          (byteString ctx t c).result = .ok (raw, c.nextWord)) ∧
        (¬ctx.limits.AdmitsBytes raw.length → (byteString ctx t c).result = .error .abort)) ∧
      ∀ (ctx' : Context) (t' : Ty) (c' : Cursor) (raw raw' : Bytes), c'.isFresh = true →
        ctx.store.HoldsBytes c.slot raw → ctx'.store.HoldsBytes c'.slot raw' → raw ≠ raw' →
        ∀ found found' next next', (byteString ctx t c).result = .ok (found, next) →
          (byteString ctx' t' c').result = .ok (found', next') → found ≠ found' := by
  obtain ⟨outcome, hunpacks⟩ := Unpacks.total hs ctx.limits c.slot
  refine ⟨⟨outcome, hunpacks.result hc⟩, ?_, ?_, ?_⟩
  · intro other
    constructor
    · intro hother
      rw [hunpacks.result hc] at hother
      exact unpacked_inj hother ▸ hunpacks
    · exact Unpacks.result hc
  · intro raw hraw
    obtain ⟨hadmitted, hunadmitted⟩ := Unpacks.of_holdsBytes hraw
    exact ⟨fun h => (hadmitted h).result hc, fun h => (hunadmitted h).result hc⟩
  · intro ctx' t' c' raw raw' hc' hraw hraw' hne found found' next next' hfound hfound' heq
    apply hne
    rw [← eq_of_holdsBytes hc hraw hfound, heq, eq_of_holdsBytes hc' hraw' hfound']

/-! ## A note of 33 bytes -/

namespace Memo

/-- It does not fit into one word. -/
def text : Bytes := (List.range 33).map fun i => UInt8.ofNat (65 + i)

/-- The number of the slot where the text starts whose header is in slot zero. -/
def start : Nat := 0x290decd9548b62a8d60345a988386fc84ba6bc95484008f6362f93160ef3e563

def store : Store where
  words := [(0, [67]), (start, text.take 32), (start + 1, Bytes.padRight 32 [97])]

def context : Context := ⟨store, .plain, {}⟩

theorem contentsOf_zero : Store.contentsOf 0 = start := by
  rw [Store.contentsOf]
  exact Pair.digestNumber_zero

theorem holdsBytes : store.HoldsBytes 0 text := by
  refine .inr ⟨by decide, ⟨Bytes.padLeft 32 [67], rfl, by decide⟩, ?_⟩
  intro i b hb
  obtain ⟨hlt, -⟩ := List.getElem?_eq_some_iff.1 hb
  have hlength : text.length = 33 := rfl
  have hzero : (0 : Slot).toNat = 0 := rfl
  rw [hzero, contentsOf_zero]
  by_cases hi : i < 32
  · refine ⟨text.take 32, ?_, ?_⟩
    · rw [show i / wordSize = 0 from Nat.div_eq_of_lt hi]
      rfl
    · rwa [Nat.mod_eq_of_lt (show i < wordSize from hi), List.getElem?_take_of_lt hi]
  · obtain rfl : i = 32 := by omega
    exact ⟨Bytes.padRight 32 [97], rfl, hb⟩

end Memo

/-- The note is decoded to its 33 bytes, and to nothing if no more than 32 are admitted. -/
theorem byteString_iff_unpacks_memo :
    Memo.store.WordsFit ∧
      (byteString Memo.context .bytes (.fresh 0)).result = .ok (Memo.text, .fresh 1) ∧
      (byteString { Memo.context with limits := ⟨.ofNat 32, .ofNat 1⟩ } .bytes (.fresh 0)).result =
        .error .abort :=
  ⟨by decide,
    ((byteString_iff_unpacks (by decide) rfl).2.2.1 Memo.text Memo.holdsBytes).1
      (.inr (by decide)),
    ((byteString_iff_unpacks (by decide) rfl).2.2.1 Memo.text Memo.holdsBytes).2 (by
      rintro (hle | hle)
      · exact absurd hle (by decide)
      · exact absurd hle (by decide))⟩

end Decode

end StorageSnapshot

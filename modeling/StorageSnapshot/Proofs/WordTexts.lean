-- SUMMARY: Which values pass as storage words, and that every text of a word is read as this word.
import StorageSnapshot.Proofs.DumpWords
import StorageSnapshot.Proofs.HexText
import StorageSnapshot.Proofs.Writable

/-!
# Texts of words

A storage word is given as hexadecimal text of its bytes: behind a marker or without one, in either
case, and without a zero in front of all digits if there would be one. All texts of this kind are
read as what they write, unless that is longer than a word. Besides them there are texts with ASCII
blanks between the digits of two bytes, and they pass as words too. Whether they miss a zero in
front is then seen from the number of characters: `0x 12 34` is read as two bytes, and `12 34` is
refused.
-/

namespace StorageSnapshot

variable {s : String} {cs : List Char} {raw : Bytes} {n : Nat}

/-! ## Digits -/

theorem hexValue?_toLower (ch : Char) : hexValue? ch.toLower = hexValue? ch := by
  have hall : ∀ n < 91, hexValue? (Char.ofNat n).toLower = hexValue? (Char.ofNat n) := by decide
  by_cases hch : ch.toNat < 91
  · have hlower := hall ch.toNat hch
    rwa [Char.ofNat_toNat] at hlower
  · have hcapital : ¬('A'.val ≤ ch.val ∧ ch.val ≤ 'Z'.val) := by
      rintro ⟨-, hle⟩
      exact hch (Nat.lt_succ_of_le (UInt32.le_iff_toNat_le.1 hle))
    have hsame : ch.toLower = ch := dif_neg hcapital
    rw [hsame]

namespace Text

/-- The case of digits does not matter. -/
theorem areDigits_map_toLower :
    AreDigits 16 hexValue? (cs.map Char.toLower) n ↔ AreDigits 16 hexValue? cs n := by
  simp only [AreDigits, List.forall₂_map_left_iff, hexValue?_toLower]

/-- Pairs of digits are the digits of their bytes, the blanks between them left out. -/
theorem ArePairs.areDigits (h : ArePairs cs raw) :
    (cs.filter fun ch => !isAsciiBlank ch).length = 2 * raw.length ∧
      AreDigits 16 hexValue? (cs.filter fun ch => !isAsciiBlank ch) raw.toNat := by
  induction h with
  | nil => exact ⟨rfl, [], .nil, rfl⟩
  | blank hblank _ ih =>
    rw [List.filter_cons_of_neg (by simp [hblank])]
    exact ih
  | pair hd hd' _ ih =>
    obtain ⟨hlength, hdigits⟩ := ih
    rw [List.filter_cons_of_pos (by simp [isAsciiBlank_of_hexValue? hd]),
      List.filter_cons_of_pos (by simp [isAsciiBlank_of_hexValue? hd'])]
    refine ⟨?_, Bytes.areDigits_pair hd hd' hlength hdigits⟩
    simp only [List.length_cons, hlength]
    omega

/-- Whether there is an ASCII blank in a text, other than the blanks around it. -/
def HasInnerBlank (s : String) : Prop := ∃ ch ∈ trim s.toList, isAsciiBlank ch = true

instance (s : String) : Decidable (HasInnerBlank s) :=
  decidable_of_iff ((trim s.toList).any isAsciiBlank = true) List.any_eq_true

/-- Whether a text writes bytes in pairs of hexadecimal digits that have ASCII blanks between
them. -/
def IsSpacedHexOf (s : String) (raw : Bytes) : Prop := HasInnerBlank s ∧ WritesBytes s raw

theorem IsHexOf.writesBytes (h : IsHexOf s raw) : WritesBytes s raw :=
  Bytes.ofHex_eq_ok_iff.1 (Bytes.ofHex_of_isHexOf h)

theorem IsHexOf.not_hasInnerBlank (h : IsHexOf s raw) : ¬HasInnerBlank s := by
  obtain ⟨marker, cs, hmarker, hs, -, hcs⟩ := h
  have hnone := hcs.isBlank_marked hmarker
  rintro ⟨ch, hch, hblank⟩
  rw [hs.trim_eq hnone] at hch
  have hfalse := hnone ch hch
  rw [isBlank_of_isAsciiBlank hblank] at hfalse
  cases hfalse

/-- Where there are no blanks between them, characters are digits of a byte each two. -/
theorem areDigits_of_evened (hcs : ∀ ch ∈ cs, isAsciiBlank ch = false)
    (h : ArePairs (evened cs) raw) :
    (cs.length + 1) / 2 = raw.length ∧ AreDigits 16 hexValue? cs raw.toNat := by
  obtain ⟨hlength, hdigits⟩ := h.areDigits
  have hall : (evened cs).filter (fun ch => !isAsciiBlank ch) = evened cs := by
    rw [List.filter_eq_self]
    intro ch hch
    unfold evened at hch
    split at hch
    · rcases List.mem_cons.1 hch with rfl | hch
      · rfl
      · rw [hcs ch hch]
        rfl
    · rw [hcs ch hch]
      rfl
  rw [hall] at hlength hdigits
  unfold evened at hlength hdigits
  split at hlength
  next hodd =>
    rw [if_pos hodd] at hdigits
    rw [List.length_cons] at hlength
    exact ⟨by omega, areDigits_zero_cons.1 hdigits⟩
  next heven =>
    rw [if_neg heven] at hdigits
    exact ⟨by omega, hdigits⟩

theorem WritesBytes.isHexOf (h : WritesBytes s raw) (hs : ¬HasInnerBlank s) : IsHexOf s raw := by
  obtain ⟨marker, cs, hmarker, htrim, hpairs⟩ := h
  have hcs : ∀ ch ∈ cs, isAsciiBlank ch = false := by
    intro ch hch
    by_contra hblank
    exact hs ⟨ch, htrim ▸ List.mem_append_right marker hch, by simpa using hblank⟩
  obtain ⟨hlength, hdigits⟩ := areDigits_of_evened hcs hpairs
  exact ⟨marker, cs, hmarker, htrim ▸ surrounds_trim s, hlength, hdigits⟩

/-- The texts that are read as bytes are of two kinds. -/
theorem writesBytes_iff : WritesBytes s raw ↔ IsHexOf s raw ∨ IsSpacedHexOf s raw := by
  constructor
  · intro h
    by_cases hs : HasInnerBlank s
    · exact .inr ⟨hs, h⟩
    · exact .inl (h.isHexOf hs)
  · rintro (h | h)
    · exact h.writesBytes
    · exact h.2

/-- Whether a text is the hexadecimal text of bytes, in either case, behind a marker or without one,
or the rest of this text behind a zero. -/
def IsTextOf (s : String) (raw : Bytes) : Prop :=
  ∃ marker cs, (marker = [] ∨ IsMarker marker) ∧ Surrounds s (marker ++ cs) ∧
    (cs.map Char.toLower = Bytes.hexChars raw ∨ ('0' :: cs).map Char.toLower = Bytes.hexChars raw)

theorem IsTextOf.isHexOf (h : IsTextOf s raw) : IsHexOf s raw := by
  obtain ⟨marker, cs, hmarker, hs, hcs⟩ := h
  have hdigits := Bytes.areDigits_hexChars raw
  have hlength := Bytes.length_hexChars raw
  refine ⟨marker, cs, hmarker, hs, ?_⟩
  rcases hcs with hcs | hcs
  · rw [← hcs, areDigits_map_toLower] at hdigits
    rw [← hcs, List.length_map] at hlength
    exact ⟨by omega, hdigits⟩
  · rw [← hcs, areDigits_map_toLower, areDigits_zero_cons] at hdigits
    rw [← hcs, List.length_map, List.length_cons] at hlength
    exact ⟨by omega, hdigits⟩

end Text

/-! ## Words -/

namespace Check

/-- What becomes of a value that is given as a word: a text of at most a word is read as its bytes,
and every other value is refused, which takes its text. -/
inductive ReadAsWord : Datum → Except Fault Bytes → Prop
  | bytes {s : String} {raw : Bytes} (h : Text.IsHexOf s raw ∨ Text.IsSpacedHexOf s raw)
    (hlength : raw.length ≤ wordSize) : ReadAsWord (.text s) (.ok raw)
  | tooLong {s : String} {raw : Bytes} (h : Text.IsHexOf s raw ∨ Text.IsSpacedHexOf s raw)
    (hlength : wordSize < raw.length) : ReadAsWord (.text s) (.error (.input (.wordTooLong s)))
  | notHexadecimal {s : String} (h : ∀ raw, ¬(Text.IsHexOf s raw ∨ Text.IsSpacedHexOf s raw)) :
    ReadAsWord (.text s) (.error (.input (.wordNotHexadecimal s)))
  | notText {given : Datum} (h : ∀ s, given ≠ .text s) (hwritable : given.isWritable = true) :
    ReadAsWord given (.error (.input (.wordNotText given)))
  | unwritable {given : Datum} (h : ∀ s, given ≠ .text s) (hwritable : given.isWritable = false) :
    ReadAsWord given (.error (.data .unwritable))

/-- What is no text is refused. -/
theorem lift_word_of_ne_text {given : Datum} (h : ∀ s, given ≠ .text s) :
    Fault.lift (word given) =
      .error (if given.isWritable then .input (.wordNotText given) else .data .unwritable) := by
  have hword : word given = .error (.wordNotText given) := by
    cases given with
    | text s => exact absurd rfl (h s)
    | _ => rfl
  rw [hword, ← Fault.raised_checkText]
  rfl

theorem readAsWord_lift (given : Datum) : ReadAsWord given (Fault.lift (word given)) := by
  by_cases htext : ∃ s, given = .text s
  · obtain ⟨s, rfl⟩ := htext
    unfold word
    dsimp only
    split
    next e he =>
      refine .notHexadecimal fun raw hraw => ?_
      rw [Bytes.ofHex_eq_ok_iff.2 (Text.writesBytes_iff.2 hraw)] at he
      cases he
    next raw hraw =>
      have hs := Text.writesBytes_iff.1 (Bytes.ofHex_eq_ok_iff.1 hraw)
      split
      next hlength => exact .bytes hs hlength
      next hlength => exact .tooLong hs (Nat.lt_of_not_le hlength)
  · have hgiven : ∀ s, given ≠ .text s := fun s hs => htext ⟨s, hs⟩
    rw [lift_word_of_ne_text hgiven]
    cases hwritable : given.isWritable with
    | true => exact .notText hgiven hwritable
    | false => exact .unwritable hgiven hwritable

theorem ReadAsWord.lift_eq {given : Datum} {outcome : Except Fault Bytes}
    (h : ReadAsWord given outcome) : Fault.lift (word given) = outcome := by
  cases h with
  | bytes hs hlength =>
    rw [word_eq_ok_iff.2 ⟨_, rfl, Text.writesBytes_iff.2 hs, hlength⟩]
    rfl
  | tooLong hs hlength =>
    rw [word, Bytes.ofHex_eq_ok_iff.2 (Text.writesBytes_iff.2 hs)]
    dsimp only
    rw [if_neg (Nat.not_le_of_lt hlength)]
    rfl
  | @notHexadecimal s hs =>
    rw [word]
    cases hraw : Bytes.ofHex s with
    | error => rfl
    | ok raw => exact absurd (Text.writesBytes_iff.1 (Bytes.ofHex_eq_ok_iff.1 hraw)) (hs raw)
  | notText hgiven hwritable => rw [lift_word_of_ne_text hgiven, if_pos hwritable]
  | unwritable hgiven hwritable =>
    rw [lift_word_of_ne_text hgiven, if_neg (Bool.eq_false_iff.1 hwritable)]

/-- A text that has no blank inside passes as a word exactly if it writes at most a word of bytes in
hexadecimal, and is read as these bytes. Every hexadecimal text of a word is of this kind. Nothing
else passes but texts of pairs of digits with blanks between them. All else is refused, if it can be
shown: a value with an integer of too many digits in it can't. -/
theorem word_reads_hex (s : String) (raw : Bytes) :
    (¬Text.HasInnerBlank s →
      (Fault.lift (word (.text s)) = .ok raw ↔ Text.IsHexOf s raw ∧ raw.length ≤ wordSize)) ∧
    (raw.length ≤ wordSize → Text.IsTextOf s raw → Fault.lift (word (.text s)) = .ok raw) ∧
    ∀ given outcome, Fault.lift (word given) = outcome ↔ ReadAsWord given outcome := by
  refine ⟨fun hs => ⟨fun h => ?_, fun h => ?_⟩, fun hlength h => ?_, fun given outcome => ⟨?_, ?_⟩⟩
  · have hread := readAsWord_lift (.text s)
    rw [h] at hread
    obtain ⟨hhex | hspaced, hlength⟩ := hread
    · exact ⟨hhex, hlength⟩
    · exact absurd hspaced.1 hs
  · exact (ReadAsWord.bytes (.inl h.1) h.2).lift_eq
  · exact (ReadAsWord.bytes (.inl h.isHexOf) hlength).lift_eq
  · rintro rfl
    exact readAsWord_lift given
  · exact ReadAsWord.lift_eq

/-- Digits of both cases behind a marker, where the zero in front of the first one is left out. -/
theorem word_reads_hex_short :
    ¬Text.HasInnerBlank " 0XaB0\n" ∧
      Fault.lift (word (.text " 0XaB0\n")) = .ok [0x0a, 0xb0] ∧
      Text.IsHexOf " 0XaB0\n" [0x0a, 0xb0] := by
  obtain ⟨hexact, hread, -⟩ := word_reads_hex " 0XaB0\n" [0x0a, 0xb0]
  have hblank : ¬Text.HasInnerBlank " 0XaB0\n" := by decide
  have hword := hread (by decide) ⟨['0', 'X'], ['a', 'B', '0'], .inr (.inr rfl),
    ⟨[' '], ['\n'], List.forall_mem_singleton.2 rfl, List.forall_mem_singleton.2 rfl, rfl⟩,
    .inr rfl⟩
  exact ⟨hblank, hword, ((hexact hblank).1 hword).1⟩

/-- Text with blanks between the bytes passes as a word, though it is no hexadecimal text of one. -/
theorem word_reads_spaced :
    Fault.lift (word (.text "0x 12 34")) = .ok [0x12, 0x34] ∧ ∀ raw, ¬Text.IsHexOf "0x 12 34" raw :=
  ⟨rfl, fun _ h => h.not_hasInnerBlank (by decide)⟩

end Check

end StorageSnapshot

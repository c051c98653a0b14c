-- SUMMARY: Every way of writing a slot or a word is read as what it writes.
import Mathlib.Data.List.Forall2
import Mathlib.Data.Nat.Digits.Defs
import StorageSnapshot.Proofs.Outcome
import StorageSnapshot.Proofs.Store

/-!
# Spellings of slots and words

A slot is written in decimal digits of any script or in hexadecimal digits behind `0x`, and a word
in hexadecimal digits with or without `0x` in front. Digits may be of either case, there may be any
number of zeros in front as long as a word has no more than 32 bytes, and blanks may stand around.
All spellings of a slot are read as this slot, and all spellings of a word as this word, apart from
zeros in front.
-/

namespace StorageSnapshot

namespace Text

/-! ## Spellings -/

/-- Whether characters are the digits of a number, the most significant first. -/
def AreDigits (base : Nat) (value? : Char → Option Nat) (cs : List Char) (n : Nat) : Prop :=
  ∃ ds, List.Forall₂ (fun ch d => value? ch = some d) cs ds ∧ Nat.ofDigits base ds.reverse = n

/-- Whether a text is these characters with blanks around them. -/
def Surrounds (s : String) (cs : List Char) : Prop :=
  ∃ front back, (∀ ch ∈ front, isBlank ch = true) ∧ (∀ ch ∈ back, isBlank ch = true) ∧
    s.toList = front ++ cs ++ back

theorem surrounds_self (s : String) : Surrounds s s.toList := ⟨[], [], by simp, by simp, by simp⟩

/-- The characters that mark a hexadecimal number. -/
def IsMarker (marker : List Char) : Prop := marker = ['0', 'x'] ∨ marker = ['0', 'X']

/-- Whether a text writes a number in decimal or, behind a marker, in hexadecimal digits. -/
inductive IsNumeral (s : String) (n : Nat) : Prop
  | decimal {cs : List Char} (hs : Surrounds s cs) (hne : cs ≠ []) (hlength : cs.length ≤ maxDigits)
    (hcs : AreDigits 10 decimalValue? cs n)
  | hexadecimal {marker cs : List Char} (hmarker : IsMarker marker)
    (hs : Surrounds s (marker ++ cs)) (hne : cs ≠ []) (hcs : AreDigits 16 hexValue? cs n)

/-- Whether a text writes a number in the hexadecimal digits of at most `size` bytes, behind a
marker or without one. -/
def IsHex (s : String) (size n : Nat) : Prop :=
  ∃ marker cs, (marker = [] ∨ IsMarker marker) ∧ Surrounds s (marker ++ cs) ∧
    cs.length ≤ 2 * size ∧ AreDigits 16 hexValue? cs n

/-! ## Characters -/

theorem hexValue?_eq_some {ch : Char} {d : Nat} (h : hexValue? ch = some d) :
    d < 16 ∧ (48 ≤ ch.toNat ∧ ch.toNat ≤ 57 ∨ 65 ≤ ch.toNat ∧ ch.toNat ≤ 70 ∨
      97 ≤ ch.toNat ∧ ch.toNat ≤ 102) := by
  have hle (a b : Char) : a ≤ b ↔ a.toNat ≤ b.toNat := UInt32.le_iff_toNat_le
  simp only [hexValue?, hle, Char.reduceToNat] at h
  split at h
  next =>
    rw [Option.some.injEq] at h
    omega
  next =>
    split at h
    next =>
      rw [Option.some.injEq] at h
      omega
    next =>
      split at h
      next =>
        rw [Option.some.injEq] at h
        omega
      next => cases h

theorem isBlank_of_hexValue? {ch : Char} {d : Nat} (h : hexValue? ch = some d) :
    isBlank ch = false := by
  have hrange := (hexValue?_eq_some h).2
  simp only [isBlank, Bool.or_eq_false_iff, Bool.and_eq_false_iff, decide_eq_false_iff_not,
    beq_eq_false_iff_ne]
  omega

theorem isAsciiBlank_of_hexValue? {ch : Char} {d : Nat} (h : hexValue? ch = some d) :
    isAsciiBlank ch = false := by
  by_contra hblank
  have hfalse := isBlank_of_hexValue? h
  rw [isBlank_of_isAsciiBlank (by simpa using hblank)] at hfalse
  cases hfalse

/-- No digit of any script is a blank. -/
theorem isBlank_of_decimalValue? {ch : Char} {d : Nat} (h : decimalValue? ch = some d) :
    isBlank ch = false := by
  have hdigits : ∀ z ∈ zeroDigits, ∀ k < 10, isBlank (Char.ofNat (z + k)) = false := by
    decide +kernel
  unfold decimalValue? at h
  split at h
  next hascii =>
    have hrange : 48 ≤ ch.toNat ∧ ch.toNat ≤ 57 := by
      simpa [Char.isDigit, UInt32.le_iff_toNat_le] using hascii
    simp only [isBlank, Bool.or_eq_false_iff, Bool.and_eq_false_iff, decide_eq_false_iff_not,
      beq_eq_false_iff_ne]
    omega
  next =>
    obtain ⟨z, hz, -⟩ := Option.map_eq_some_iff.1 h
    have hrange := List.find?_some hz
    simp only [Bool.and_eq_true, decide_eq_true_eq] at hrange
    have hch := hdigits z (List.mem_of_find?_eq_some hz) (ch.toNat - z) (by omega)
    rwa [Nat.add_sub_cancel' hrange.1, Char.ofNat_toNat] at hch

/-- Digits write a number. -/
theorem areDigits_of_all {base : Nat} {value? : Char → Option Nat} {cs : List Char}
    (h : (cs.all fun ch => (value? ch).isSome) = true) :
    AreDigits base value? cs
      (Nat.ofDigits base (cs.map fun ch => (value? ch).getD 0).reverse) := by
  refine ⟨_, ?_, rfl⟩
  rw [List.forall₂_map_right_iff, List.forall₂_same]
  intro ch hch
  obtain ⟨d, hd⟩ := Option.isSome_iff_exists.1 (List.all_eq_true.1 h ch hch)
  rw [hd]
  rfl

/-- A zero in front of hexadecimal digits changes no number. -/
theorem areDigits_zero_cons {cs : List Char} {n : Nat} :
    AreDigits 16 hexValue? ('0' :: cs) n ↔ AreDigits 16 hexValue? cs n := by
  have hzero (ds : List Nat) : Nat.ofDigits 16 (0 :: ds).reverse = Nat.ofDigits 16 ds.reverse := by
    rw [List.reverse_cons, Nat.ofDigits_append]
    simp
  constructor
  · rintro ⟨_, hd | ⟨hd, hds⟩, hn⟩
    cases hd
    exact ⟨_, hds, (hzero _).symm.trans hn⟩
  · rintro ⟨ds, hds, hn⟩
    exact ⟨0 :: ds, .cons (by decide) hds, (hzero ds).trans hn⟩

theorem AreDigits.exists_value {base n : Nat} {value? : Char → Option Nat} {cs : List Char}
    (h : AreDigits base value? cs n) : ∀ ch ∈ cs, ∃ d, value? ch = some d := by
  obtain ⟨ds, hds, -⟩ := h
  induction hds with
  | nil => simp
  | cons hd _ ih =>
    intro ch hch
    rcases List.mem_cons.1 hch with rfl | hch
    · exact ⟨_, hd⟩
    · exact ih ch hch

theorem AreDigits.isBlank {base n : Nat} {value? : Char → Option Nat} {cs : List Char}
    (h : AreDigits base value? cs n)
    (hvalue : ∀ ch d, value? ch = some d → Text.isBlank ch = false) :
    ∀ ch ∈ cs, Text.isBlank ch = false := by
  intro ch hch
  obtain ⟨d, hd⟩ := h.exists_value ch hch
  exact hvalue ch d hd

theorem AreDigits.toNat_le {n : Nat} {cs : List Char} (h : AreDigits 16 hexValue? cs n) :
    ∀ ch ∈ cs, ch.toNat ≤ 102 := by
  intro ch hch
  obtain ⟨d, hd⟩ := h.exists_value ch hch
  have hrange := (hexValue?_eq_some hd).2
  omega

/-- Hexadecimal digits stand for themselves. -/
theorem AreDigits.pointCount {n : Nat} {cs : List Char} (h : AreDigits 16 hexValue? cs n) :
    Text.pointCount cs = cs.length := by
  have hle := h.toNat_le
  clear h
  induction cs with
  | nil => rfl
  | cons ch cs ih =>
    have hch : isReserved ch = false := by
      have hsmall := hle ch List.mem_cons_self
      have hgap : ch.toNat - standInGap = 0 := by
        unfold standInGap
        omega
      have hshift : ch ≠ shift := by
        rintro rfl
        exact absurd hsmall (by decide)
      rw [isReserved, hgap, Bool.or_eq_false_iff]
      exact ⟨rfl, by simpa using hshift⟩
    rw [Text.pointCount, codePoints_cons hch, List.length_cons, List.length_cons]
    exact congrArg (· + 1) (ih fun c hc => hle c (List.mem_cons_of_mem ch hc))

theorem IsMarker.isBlank {marker : List Char} (h : IsMarker marker) :
    ∀ ch ∈ marker, Text.isBlank ch = false := by
  rcases h with rfl | rfl <;> simp [Text.isBlank]

/-- There is no blank in hexadecimal digits, nor in the marker in front. -/
theorem AreDigits.isBlank_marked {n : Nat} {marker cs : List Char}
    (h : AreDigits 16 hexValue? cs n) (hmarker : marker = [] ∨ IsMarker marker) :
    ∀ ch ∈ marker ++ cs, Text.isBlank ch = false := by
  intro ch hch
  rcases List.mem_append.1 hch with hch | hch
  · rcases hmarker with rfl | hmarker
    · cases hch
    · exact hmarker.isBlank ch hch
  · exact h.isBlank (fun _ _ => isBlank_of_hexValue?) ch hch

/-- What has no blanks in it is what is left without the blanks around it. -/
theorem Surrounds.trim_eq {s : String} {cs : List Char} (h : Surrounds s cs)
    (hcs : ∀ ch ∈ cs, Text.isBlank ch = false) : trim s.toList = cs := by
  obtain ⟨front, back, hfront, hback, hs⟩ := h
  have hdrop (a b : List Char) (ha : ∀ ch ∈ a, Text.isBlank ch = true)
      (hb : ∀ ch ∈ b.head?, Text.isBlank ch = false) : (a ++ b).dropWhile Text.isBlank = b := by
    rw [List.dropWhile_append_of_pos ha]
    cases b with
    | nil => rfl
    | cons ch b => exact List.dropWhile_cons_of_neg (by simp [hb ch rfl])
  have hfirst : ∀ ch ∈ cs.head?, Text.isBlank ch = false := fun ch hch =>
    hcs ch (List.mem_of_mem_head? hch)
  have hlast : ∀ ch ∈ cs.reverse.head?, Text.isBlank ch = false := fun ch hch =>
    hcs ch (List.mem_reverse.1 (List.mem_of_mem_head? hch))
  cases cs with
  | nil =>
    have hblank : (front ++ (back ++ [])).dropWhile Text.isBlank = [] := by
      rw [List.dropWhile_append_of_pos hfront]
      exact hdrop back [] hback (by simp)
    rw [hs, trim, List.append_nil, ← List.append_nil back, hblank]
    rfl
  | cons ch cs =>
    have hfront' : (front ++ (ch :: cs ++ back)).dropWhile Text.isBlank = ch :: cs ++ back :=
      hdrop front _ hfront hfirst
    have hback' :
        (back.reverse ++ (ch :: cs).reverse).dropWhile Text.isBlank = (ch :: cs).reverse :=
      hdrop back.reverse _ (fun ch hch => hback ch (List.mem_reverse.1 hch)) hlast
    rw [hs, trim, List.append_assoc, hfront', List.reverse_append, hback', List.reverse_reverse]

/-! ## Numbers -/

/-- Digits are read as the number that they write. -/
theorem number?_eq_some {base n : Nat} {value? : Char → Option Nat} {cs : List Char} (hne : cs ≠ [])
    (h : AreDigits base value? cs n) : number? base value? cs = some n := by
  obtain ⟨ds, hds, rfl⟩ := h
  have hfold (m : Nat) :
      cs.foldl (fun n c => do return base * (← n) + (← value? c)) (some m) =
        some (m * base ^ ds.length + Nat.ofDigits base ds.reverse) := by
    clear hne
    induction hds generalizing m with
    | nil => simp
    | @cons ch d cs ds hd _ ih =>
      rw [List.foldl_cons, hd]
      change List.foldl _ (some (base * m + d)) cs = _
      rw [ih, List.reverse_cons, Nat.ofDigits_append, List.length_reverse, List.length_cons,
        Nat.ofDigits_singleton]
      congr 1
      ring
  rw [number?, if_neg (by simpa using hne), hfold, Nat.zero_mul, Nat.zero_add]

theorem hexDigits?_marker {marker cs : List Char} (h : IsMarker marker) :
    hexDigits? (marker ++ cs) = some cs := by
  rcases h with rfl | rfl <;> rfl

/-- Digits of a numeral have no marker in front of them. -/
theorem AreDigits.hexDigits? {base n : Nat} {value? : Char → Option Nat} {cs : List Char}
    (h : AreDigits base value? cs n) (hx : value? 'x' = none) (hX : value? 'X' = none) :
    hexDigits? cs = none := by
  obtain ⟨ds, hds, -⟩ := h
  unfold Text.hexDigits?
  split
  next =>
    obtain - | ⟨-, - | ⟨hd, -⟩⟩ := hds
    rw [hx] at hd
    cases hd
  next =>
    obtain - | ⟨-, - | ⟨hd, -⟩⟩ := hds
    rw [hX] at hd
    cases hd
  next => rfl

/-- A numeral is read as the number that it writes. -/
theorem toInteger_of_isNumeral {s : String} {n : Nat} (h : IsNumeral s n) :
    (Datum.text s).toInteger = .ok n := by
  cases h with
  | @decimal cs hs hne hlength hcs =>
    have htrim := hs.trim_eq (hcs.isBlank fun _ _ => isBlank_of_decimalValue?)
    have hdigits := hcs.hexDigits? (by decide) (by decide)
    have hnatural : natural? s = some n := by
      simp only [natural?, htrim, hdigits]
      exact number?_eq_some hne hcs
    have hshort : ¬decimalLength s > maxDigits := by
      simp only [decimalLength, htrim, hdigits]
      omega
    simp only [Datum.toInteger, hnatural, if_neg hshort]
  | @hexadecimal marker cs hmarker hs hne hcs =>
    have htrim := hs.trim_eq (hcs.isBlank_marked (.inr hmarker))
    have hnatural : natural? s = some n := by
      simp only [natural?, htrim, hexDigits?_marker hmarker]
      exact number?_eq_some hne hcs
    have hshort : ¬decimalLength s > maxDigits := by
      simp only [decimalLength, htrim, hexDigits?_marker hmarker]
      decide
    simp only [Datum.toInteger, hnatural, if_neg hshort]

end Text

/-! ## Bytes -/

namespace Bytes

theorem count_eq_sixteen_pow (size : Nat) : count size = 16 ^ (2 * size) := by
  rw [Nat.pow_mul]
  rfl

/-- Two digits in front of those of a byte string are the digits of one more byte. -/
theorem toNat_pair {d d' : Nat} {ds : List Nat} {raw : Bytes} (hd : d < 16) (hd' : d' < 16)
    (hlength : ds.length = 2 * raw.length) (hraw : raw.toNat = Nat.ofDigits 16 ds.reverse) :
    toNat (UInt8.ofNat (16 * d + d') :: raw) = Nat.ofDigits 16 (d :: d' :: ds).reverse := by
  have hbyte : (UInt8.ofNat (16 * d + d')).toNat = 16 * d + d' :=
    UInt8.toNat_ofNat_of_lt' (by show 16 * d + d' < 256; omega)
  rw [toNat_cons, hbyte, hraw, count_eq_sixteen_pow, List.reverse_cons, List.reverse_cons,
    List.append_assoc, List.singleton_append, Nat.ofDigits_append, Nat.ofDigits_cons,
    Nat.ofDigits_singleton, List.length_reverse, hlength]
  ring

/-- Two hexadecimal digits are one byte. -/
theorem ofHexPairs_eq_ok (position : Nat) {cs : List Char} {ds : List Nat}
    (h : List.Forall₂ (fun ch d => hexValue? ch = some d) cs ds) (heven : cs.length % 2 = 0) :
    ∃ raw, ofHexPairs position cs = .ok raw ∧ 2 * raw.length = cs.length ∧
      raw.toNat = Nat.ofDigits 16 ds.reverse := by
  match cs, ds, h with
  | [], _, .nil => exact ⟨[], rfl, rfl, rfl⟩
  | [_], _, .cons _ .nil => cases heven
  | ch :: ch' :: cs, d :: d' :: ds, .cons hd (.cons hd' htail) =>
    have hlength : cs.length % 2 = 0 := by
      simp only [List.length_cons] at heven
      omega
    obtain ⟨raw, hraw, hsize, hnumber⟩ := ofHexPairs_eq_ok (position + 2) htail hlength
    refine ⟨UInt8.ofNat (16 * d + d') :: raw, ?_, ?_, ?_⟩
    · have hblank := Bool.eq_false_iff.1 (Text.isAsciiBlank_of_hexValue? hd)
      simp only [ofHexPairs, if_neg hblank, hd, hd', hraw]
      rfl
    · simp only [List.length_cons]
      omega
    · exact toNat_pair (Text.hexValue?_eq_some hd).1 (Text.hexValue?_eq_some hd').1
        (htail.length_eq.symm.trans hsize.symm) hnumber

/-- The digits of hexadecimal text, with a zero in front of an odd number of them. -/
theorem digitsOfText_of_areDigits {s : String} {marker cs : List Char} {n : Nat}
    (hmarker : marker = [] ∨ Text.IsMarker marker) (hs : Text.Surrounds s (marker ++ cs))
    (hcs : Text.AreDigits 16 hexValue? cs n) :
    (digitsOfText s).length = 2 * ((cs.length + 1) / 2) ∧
      Text.AreDigits 16 hexValue? (digitsOfText s) n := by
  have hdigits : (Text.hexDigits? (marker ++ cs)).getD (marker ++ cs) = cs := by
    rcases hmarker with rfl | hmarker
    · rw [List.nil_append, hcs.hexDigits? (by decide) (by decide)]
      rfl
    · rw [Text.hexDigits?_marker hmarker]
      rfl
  simp only [digitsOfText, hs.trim_eq (hcs.isBlank_marked hmarker), hdigits, hcs.pointCount]
  split
  next hodd =>
    exact ⟨by simp only [List.length_cons]; omega, Text.areDigits_zero_cons.2 hcs⟩
  next heven => exact ⟨by omega, hcs⟩

/-- Hexadecimal text is read as bytes of its number, one for two digits. -/
theorem ofHex_of_areDigits {s : String} {marker cs : List Char} {n : Nat}
    (hmarker : marker = [] ∨ Text.IsMarker marker) (hs : Text.Surrounds s (marker ++ cs))
    (hcs : Text.AreDigits 16 hexValue? cs n) :
    ∃ raw, ofHex s = .ok raw ∧ raw.length = (cs.length + 1) / 2 ∧ raw.toNat = n := by
  obtain ⟨hlength, hdigits⟩ := digitsOfText_of_areDigits hmarker hs hcs
  have hascii : (digitsOfText s).findIdx? (fun ch => ch.toNat ≥ 128) = none := by
    rw [List.findIdx?_eq_none_iff]
    intro ch hch
    have := hdigits.toNat_le ch hch
    simp only [decide_eq_false_iff_not]
    omega
  obtain ⟨ds, hds, hn⟩ := hdigits
  obtain ⟨raw, hraw, hsize, hnumber⟩ := ofHexPairs_eq_ok 0 hds (by omega)
  exact ⟨raw, by rw [ofHex, hascii, hraw], by omega, hnumber.trans hn⟩

/-- Hexadecimal text of at most `size` bytes is read as no more of them. -/
theorem ofHex_of_isHex {s : String} {size n : Nat} (h : Text.IsHex s size n) :
    ∃ raw, ofHex s = .ok raw ∧ raw.length ≤ size ∧ raw.toNat = n := by
  obtain ⟨marker, cs, hmarker, hs, hlength, hcs⟩ := h
  obtain ⟨raw, hraw, hsize, hnumber⟩ := ofHex_of_areDigits hmarker hs hcs
  exact ⟨raw, hraw, by omega, hnumber⟩

end Bytes

/-! ## Checks -/

namespace Check

/-- Every spelling of the number of a slot passes as this slot. -/
theorem slot_of_isNumeral {s : String} {n : Nat} (hn : n < Slot.count) (h : Text.IsNumeral s n) :
    ∃ x, slot (.text s) = .ok x ∧ x.toNat = n := by
  have hnumber : nonNegative (.text s) = .ok n := by
    rw [nonNegative, Text.toInteger_of_isNumeral h]
  refine ⟨BitVec.ofNat 256 n, ?_, by rw [Slot.toNat_ofNat, Nat.mod_eq_of_lt hn]⟩
  rw [slot, hnumber, ok_bind, if_pos hn]
  rfl

/-- Every spelling of a word passes as bytes of this word. -/
theorem word_of_isHex {s : String} {n : Nat} (h : Text.IsHex s wordSize n) :
    ∃ raw, word (.text s) = .ok raw ∧ raw.length ≤ wordSize ∧ raw.toNat = n := by
  obtain ⟨raw, hraw, hlength, hnumber⟩ := Bytes.ofHex_of_isHex h
  refine ⟨raw, ?_, hlength, hnumber⟩
  simp only [word, hraw, if_pos hlength]

end Check

end StorageSnapshot

-- SUMMARY: Which texts are read as numbers, slots and byte strings: those that write one.
import Mathlib.Data.List.TakeWhile
import StorageSnapshot.Proofs.Spelling

/-!
# Texts that are read

Every numeral is read as its number and every hexadecimal text as its bytes. Here is the way back:
what is read as a number is a numeral, and what is read as bytes is made of pairs of hexadecimal
digits, between which ASCII blanks may stand. So each reader accepts the texts of one grammar.
-/

namespace StorageSnapshot

variable {s : String} {cs : List Char} {raw : Bytes}

namespace Text

/-! ## Blanks around a text -/

theorem exists_dropWhile_isBlank (cs : List Char) :
    ∃ front, (∀ ch ∈ front, isBlank ch = true) ∧ cs = front ++ cs.dropWhile isBlank :=
  ⟨cs.takeWhile isBlank, fun _ h => List.mem_takeWhile_imp h,
    (List.takeWhile_append_dropWhile).symm⟩

/-- A text is what is left of it with the blanks around. -/
theorem surrounds_trim (s : String) : Surrounds s (trim s.toList) := by
  obtain ⟨front, hfront, hs⟩ := exists_dropWhile_isBlank s.toList
  obtain ⟨back, hback, hrest⟩ := exists_dropWhile_isBlank (s.toList.dropWhile isBlank).reverse
  refine ⟨front, back.reverse, hfront, fun ch hch => hback ch (List.mem_reverse.1 hch), ?_⟩
  have hmiddle := congrArg List.reverse hrest
  rw [List.reverse_reverse, List.reverse_append] at hmiddle
  rw [trim, List.append_assoc, ← hmiddle]
  exact hs

/-! ## Numbers -/

/-- Characters that spell a number are digits. -/
theorem all_isSome_of_number? {base n : Nat} {value? : Char → Option Nat}
    (h : number? base value? cs = some n) : (cs.all fun ch => (value? ch).isSome) = true := by
  have hstep : ∀ (start : Option Nat),
      cs.foldl (fun n c => do return base * (← n) + (← value? c)) start = some n →
        start.isSome = true ∧ (cs.all fun ch => (value? ch).isSome) = true := by
    clear h
    induction cs with
    | nil =>
      rintro start rfl
      exact ⟨rfl, rfl⟩
    | cons ch cs ih =>
      intro start hfold
      obtain ⟨hhead, htail⟩ := ih _ hfold
      cases start with
      | none => cases hhead
      | some m =>
        cases hch : value? ch with
        | none =>
          simp only [hch] at hhead
          cases hhead
        | some d => exact ⟨rfl, by rw [List.all_cons, hch, htail]; rfl⟩
  unfold number? at h
  split at h
  · cases h
  · exact (hstep _ h).2

/-- Digits are read as the number that they write, and nothing else is. -/
theorem number?_eq_some_iff {base n : Nat} {value? : Char → Option Nat} :
    number? base value? cs = some n ↔ cs ≠ [] ∧ AreDigits base value? cs n := by
  constructor
  · intro h
    have hne : cs ≠ [] := by
      rintro rfl
      cases h
    have hdigits := @areDigits_of_all base _ _ (all_isSome_of_number? h)
    rw [number?_eq_some hne hdigits, Option.some.injEq] at h
    exact ⟨hne, h ▸ hdigits⟩
  · rintro ⟨hne, hdigits⟩
    exact number?_eq_some hne hdigits

theorem hexDigits?_eq_some_iff {digits : List Char} :
    hexDigits? cs = some digits ↔ ∃ marker, IsMarker marker ∧ cs = marker ++ digits := by
  constructor
  · intro h
    unfold hexDigits? at h
    split at h
    · cases h
      exact ⟨['0', 'x'], .inl rfl, rfl⟩
    · cases h
      exact ⟨['0', 'X'], .inr rfl, rfl⟩
    · cases h
  · rintro ⟨marker, hmarker, rfl⟩
    exact hexDigits?_marker hmarker

/-- Numerals are read as the numbers that they write, and no other texts are. -/
theorem toInteger_eq_ok_iff {n : Int} :
    (Datum.text s).toInteger = .ok n ↔ ∃ m : Nat, n = m ∧ IsNumeral s m := by
  constructor
  · intro h
    simp only [Datum.toInteger] at h
    split at h
    case h_2 => cases h
    case h_1 m hm =>
      split at h
      case isTrue => cases h
      case isFalse hshort =>
        cases h
        refine ⟨m, rfl, ?_⟩
        have htrim := surrounds_trim s
        unfold natural? at hm
        unfold decimalLength at hshort
        dsimp only at hm hshort
        split at hm
        next digits hhex =>
          obtain ⟨marker, hmarker, hcs⟩ := hexDigits?_eq_some_iff.1 hhex
          obtain ⟨hne, hdigits⟩ := number?_eq_some_iff.1 hm
          exact .hexadecimal hmarker (hcs ▸ htrim) hne hdigits
        next hhex =>
          rw [hhex] at hshort
          obtain ⟨hne, hdigits⟩ := number?_eq_some_iff.1 hm
          exact .decimal htrim hne (Nat.not_lt.1 hshort) hdigits
  · rintro ⟨m, rfl, hs⟩
    exact toInteger_of_isNumeral hs

/-! ## Pairs of digits -/

/-- Whether characters are pairs of hexadecimal digits, one for each byte, with ASCII blanks in
front of pairs and behind the last one. -/
inductive ArePairs : List Char → Bytes → Prop
  | nil : ArePairs [] []
  | blank {ch : Char} {cs : List Char} {raw : Bytes} (hblank : isAsciiBlank ch = true)
    (h : ArePairs cs raw) : ArePairs (ch :: cs) raw
  | pair {ch ch' : Char} {d d' : Nat} {cs : List Char} {raw : Bytes} (hd : hexValue? ch = some d)
    (hd' : hexValue? ch' = some d') (h : ArePairs cs raw) :
    ArePairs (ch :: ch' :: cs) (UInt8.ofNat (16 * d + d') :: raw)

/-- Characters with a zero in front if there is an odd number of them. -/
def evened (cs : List Char) : List Char := if cs.length % 2 = 1 then '0' :: cs else cs

/-- Whether a text writes bytes in hexadecimal, behind a marker or without one, in pairs of digits
after a zero was put in front of an odd number of characters. Blanks may stand around it. -/
def WritesBytes (s : String) (raw : Bytes) : Prop :=
  ∃ marker cs, (marker = [] ∨ IsMarker marker) ∧ trim s.toList = marker ++ cs ∧
    ArePairs (evened cs) raw

theorem ArePairs.toNat_lt (h : ArePairs cs raw) : ∀ ch ∈ cs, ch.toNat < 128 := by
  have hdigit : ∀ {ch d}, hexValue? ch = some d → ch.toNat < 128 := by
    intro ch d hd
    have hrange := (hexValue?_eq_some hd).2
    omega
  induction h with
  | nil => simp
  | @blank ch cs raw hblank _ ih =>
    have hch : ch.toNat < 128 := by
      simp only [isAsciiBlank, Bool.or_eq_true, Bool.and_eq_true, decide_eq_true_eq,
        beq_iff_eq] at hblank
      rcases hblank with hblank | rfl
      · omega
      · decide
    exact List.forall_mem_cons.2 ⟨hch, ih⟩
  | pair hd hd' _ ih =>
    exact List.forall_mem_cons.2 ⟨hdigit hd, List.forall_mem_cons.2 ⟨hdigit hd', ih⟩⟩

/-- ASCII characters stand for themselves. -/
theorem pointCount_of_toNat_lt (h : ∀ ch ∈ cs, ch.toNat < 128) : pointCount cs = cs.length := by
  induction cs with
  | nil => rfl
  | cons ch cs ih =>
    obtain ⟨hch, hcs⟩ := List.forall_mem_cons.1 h
    have hreserved : isReserved ch = false := by
      have hgap : ch.toNat - standInGap = 0 := by
        unfold standInGap
        omega
      have hshift : ch ≠ shift := by
        rintro rfl
        exact absurd hch (by decide)
      rw [isReserved, hgap]
      simpa [isLoneUnit, isHighUnit, isLowUnit] using hshift
    rw [pointCount, codePoints_cons hreserved, List.length_cons, List.length_cons]
    exact congrArg (· + 1) (ih hcs)

/-- There is no marker in front of pairs of digits. -/
theorem ArePairs.hexDigits?_eq_none (h : ArePairs (evened cs) raw) : hexDigits? cs = none := by
  -- The `x` would be a digit of a pair, or the blank in front of one.
  have hx : ∀ {ch : Char} {rest : List Char} {raw : Bytes}, hexValue? ch = none →
      isAsciiBlank ch = false → ¬ArePairs (ch :: rest) raw := by
    intro ch rest raw hvalue hblank h
    cases h with
    | blank h => simp [h] at hblank
    | pair hd => simp [hd] at hvalue
  have hmarked : ∀ {ch : Char} {rest : List Char}, hexValue? ch = none →
      isAsciiBlank ch = false → cs ≠ '0' :: ch :: rest := by
    rintro ch rest hvalue hblank rfl
    unfold evened at h
    split at h
    · cases h with
      | blank h => cases h
      | pair _ _ h => exact hx hvalue hblank h
    · cases h with
      | blank h => cases h
      | pair _ hd => simp [hvalue] at hd
  unfold hexDigits?
  split
  · exact absurd rfl (hmarked (by decide) (by decide))
  · exact absurd rfl (hmarked (by decide) (by decide))
  · rfl

end Text

/-! ## Bytes -/

namespace Bytes

theorem ofHexPairs_eq_ok_iff (position : Nat) :
    ofHexPairs position cs = .ok raw ↔ Text.ArePairs cs raw := by
  fun_induction ofHexPairs position cs generalizing raw with
  | case1 =>
    constructor
    · rintro ⟨⟩
      exact .nil
    · rintro ⟨⟩
      rfl
  | case2 position ch hblank =>
    constructor
    · rintro ⟨⟩
      exact .blank hblank .nil
    · rintro (_ | ⟨_, ⟨⟩⟩)
      rfl
  | case3 position ch hblank =>
    constructor
    · intro h
      cases h
    · rintro (_ | ⟨hblank', -⟩)
      exact absurd hblank' hblank
  | case4 position ch ch' cs hblank ih =>
    rw [ih]
    constructor
    · exact .blank hblank
    · rintro (_ | ⟨-, h⟩ | ⟨hd, -, -⟩)
      · exact h
      · rw [Text.isAsciiBlank_of_hexValue? hd] at hblank
        cases hblank
  | case5 position ch ch' cs hblank d d' hd' hd ih =>
    constructor
    · intro h
      obtain ⟨rest, hrest, hraw⟩ := bind_eq_ok.1 h
      cases hraw
      exact .pair hd hd' (ih.1 hrest)
    · intro h
      cases h with
      | blank h => exact absurd h hblank
      | pair he he' h =>
        rw [ih.2 h]
        cases hd.symm.trans he
        cases hd'.symm.trans he'
        rfl
  | case6 position ch ch' cs hblank d hd' hd =>
    constructor
    · intro h
      cases h
    · intro h
      cases h with
      | blank h => exact absurd h hblank
      | pair _ he' => cases hd'.symm.trans he'
  | case7 position ch ch' cs hblank hd =>
    constructor
    · intro h
      cases h
    · intro h
      cases h with
      | blank h => exact absurd h hblank
      | pair he => cases hd.symm.trans he

theorem ofHex_eq_ok_iff_arePairs :
    ofHex s = .ok raw ↔ Text.ArePairs (digitsOfText s) raw := by
  unfold ofHex
  dsimp only
  split
  next position hposition =>
    constructor
    · intro h
      cases h
    intro h
    have hascii : (digitsOfText s).findIdx? (fun ch => ch.toNat ≥ 128) = none := by
      rw [List.findIdx?_eq_none_iff]
      intro ch hch
      simpa using h.toNat_lt ch hch
    cases hascii.symm.trans hposition
  next => exact ofHexPairs_eq_ok_iff 0

/-- Hexadecimal text is read as the bytes that it writes, and no other text is. -/
theorem ofHex_eq_ok_iff : ofHex s = .ok raw ↔ Text.WritesBytes s raw := by
  rw [ofHex_eq_ok_iff_arePairs]
  unfold digitsOfText
  dsimp only
  constructor
  · intro h
    obtain ⟨marker, cs, hmarker, htrim, hcs⟩ : ∃ marker cs,
        (marker = [] ∨ Text.IsMarker marker) ∧ Text.trim s.toList = marker ++ cs ∧
          (Text.hexDigits? (Text.trim s.toList)).getD (Text.trim s.toList) = cs := by
      cases hhex : Text.hexDigits? (Text.trim s.toList) with
      | none => exact ⟨[], _, .inl rfl, rfl, rfl⟩
      | some digits =>
        obtain ⟨marker, hmarker, htrim⟩ := Text.hexDigits?_eq_some_iff.1 hhex
        exact ⟨marker, digits, .inr hmarker, htrim, rfl⟩
    refine ⟨marker, cs, hmarker, htrim, ?_⟩
    rw [hcs] at h
    have hascii : ∀ ch ∈ cs, ch.toNat < 128 := by
      intro ch hch
      apply h.toNat_lt
      split
      · exact List.mem_cons_of_mem _ hch
      · exact hch
    rwa [Text.pointCount_of_toNat_lt hascii] at h
  · rintro ⟨marker, cs, hmarker, htrim, h⟩
    have hdigits : (Text.hexDigits? (marker ++ cs)).getD (marker ++ cs) = cs := by
      rcases hmarker with rfl | hmarker
      · rw [List.nil_append, h.hexDigits?_eq_none]
        rfl
      · rw [Text.hexDigits?_marker hmarker]
        rfl
    have hascii : ∀ ch ∈ cs, ch.toNat < 128 := by
      intro ch hch
      apply h.toNat_lt
      unfold Text.evened
      split
      · exact List.mem_cons_of_mem _ hch
      · exact hch
    rw [htrim, hdigits, Text.pointCount_of_toNat_lt hascii]
    exact h

end Bytes

/-! ## Slots -/

/-- A text is given as a slot if it is a numeral of the slot's number. -/
theorem Check.slot_eq_ok_iff {x : Slot} : slot (.text s) = .ok x ↔ Text.IsNumeral s x.toNat := by
  constructor
  · intro h
    obtain ⟨n, hn, hslot⟩ := bind_eq_ok.1 h
    split at hslot
    case isFalse => cases hslot
    case isTrue hlt =>
      cases hslot
      rw [Slot.toNat_ofNat, Nat.mod_eq_of_lt hlt]
      unfold nonNegative at hn
      split at hn
      next m hm =>
        cases hn
        obtain ⟨m', hm', hs⟩ := Text.toInteger_eq_ok_iff.1 hm
        cases hm'
        exact hs
      next => cases hn
  · intro h
    obtain ⟨y, hy, hxy⟩ := slot_of_isNumeral x.toNat_lt_count h
    rw [hy, BitVec.eq_of_toNat_eq hxy]

end StorageSnapshot

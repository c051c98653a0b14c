-- SUMMARY: Code points of texts, among them code units of UTF-16 that stand alone.

/-!
# Code points

A text is a list of code points: characters, and code units of UTF-16 that stand alone, outside of a
pair. In a string a character stands for itself, and a lone unit is spelled by its stand-in, the
character `standInGap` above it. Stand-ins are characters, too: one that is meant itself is spelled
behind the `shift`, and so is the shift. Every list of code points has a spelling of its own, which
`codePoints` reads back, and texts on end are spelled by their spellings on end.
-/

namespace StorageSnapshot.Text

/-! ## Code units -/

def isHighUnit (n : Nat) : Bool := 0xd800 ≤ n && n < 0xdc00

def isLowUnit (n : Nat) : Bool := 0xdc00 ≤ n && n < 0xe000

/-- Whether a code point is a lone unit. -/
def isLoneUnit (n : Nat) : Bool := isHighUnit n || isLowUnit n

/-- The code point that a high and a low unit stand for together. -/
def ofPair (high low : Nat) : Nat := 0x10000 + (high - 0xd800) * 0x400 + (low - 0xdc00)

/-! ## Spelling -/

/-- The distance of a lone unit to its stand-in. -/
def standInGap : Nat := 0xd0000

/-- The character behind which every character stands for itself. -/
def shift : Char := Char.ofNat 0xde000

/-- Whether a character stands for itself only behind the shift. -/
def isReserved (c : Char) : Bool := isLoneUnit (c.toNat - standInGap) || c == shift

/-- The spelling of a code point. -/
def spell (n : Nat) : List Char :=
  if isLoneUnit n then [Char.ofNat (standInGap + n)]
  else if isReserved (Char.ofNat n) then [shift, Char.ofNat n]
  else [Char.ofNat n]

/-- The spelling of a text in which every character stands for itself. -/
def spelled (s : String) : String := String.ofList (s.toList.flatMap fun c => spell c.toNat)

/-! ## Reading a spelling -/

/-- The code point of a character with no shift in front of it. -/
def unshifted (c : Char) : Nat :=
  if isLoneUnit (c.toNat - standInGap) then c.toNat - standInGap else c.toNat

/-- The code points that are spelled. -/
def codePoints : List Char → List Nat
  | [] => []
  | [c] => [unshifted c]
  | c :: d :: cs =>
    if c = shift then d.toNat :: codePoints cs else unshifted c :: codePoints (d :: cs)

/-- The number of code points that are spelled. -/
def pointCount (cs : List Char) : Nat := (codePoints cs).length

/-- The text itself, with the replacement character for every lone unit. -/
def plain (s : String) : String :=
  String.ofList ((codePoints s.toList).map fun n =>
    if isLoneUnit n then '\ufffd' else Char.ofNat n)

/-! ## Small laws -/

theorem toNat_ofNat {n : Nat} (h : n < 0xd800 ∨ 0xdfff < n ∧ n < 0x110000) :
    (Char.ofNat n).toNat = n := by
  have hv : n.isValidChar := h
  rw [show Char.ofNat n = Char.ofNatAux n hv from dif_pos hv]
  rfl

theorem isLoneUnit_iff {n : Nat} : isLoneUnit n = true ↔ 0xd800 ≤ n ∧ n < 0xe000 := by
  simp only [isLoneUnit, isHighUnit, isLowUnit, Bool.or_eq_true, Bool.and_eq_true,
    decide_eq_true_eq]
  omega

/-- A character that is not reserved is its own code point. -/
theorem codePoints_cons {c : Char} (h : isReserved c = false) (cs : List Char) :
    codePoints (c :: cs) = c.toNat :: codePoints cs := by
  simp only [isReserved, Bool.or_eq_false_iff, beq_eq_false_iff_ne] at h
  cases cs <;> simp [codePoints, unshifted, h.1, h.2]

/-- A spelling is read back, whatever follows it. -/
theorem codePoints_spell_append {n : Nat} (h : n < 0x110000) (cs : List Char) :
    codePoints (spell n ++ cs) = n :: codePoints cs := by
  unfold spell
  split
  next hu =>
    have hr := isLoneUnit_iff.1 hu
    have hn : (Char.ofNat (standInGap + n)).toNat = standInGap + n :=
      toNat_ofNat (by unfold standInGap; omega)
    have hs : Char.ofNat (standInGap + n) ≠ shift := by
      intro he
      have : standInGap + n = 0xde000 := by rw [← hn, he]; decide
      unfold standInGap at this; omega
    cases cs <;> simp [codePoints, unshifted, hn, hs, hu]
  next hu =>
    have hr := mt isLoneUnit_iff.2 hu
    have hn : (Char.ofNat n).toNat = n := toNat_ofNat (by omega)
    split
    next => simp [codePoints, hn]
    next hv => rw [List.singleton_append, codePoints_cons (by simpa using hv), hn]

/-- Every list of code points is read back from its spelling. -/
theorem codePoints_spelling {ns : List Nat} (h : ∀ n ∈ ns, n < 0x110000) :
    codePoints (ns.flatMap spell) = ns := by
  induction ns with
  | nil => rfl
  | cons n ns ih =>
    rw [List.flatMap_cons, codePoints_spell_append (h n (by simp)),
      ih fun m hm => h m (by simp [hm])]

end StorageSnapshot.Text

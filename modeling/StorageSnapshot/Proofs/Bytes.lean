-- SUMMARY: Byte strings and numbers spell one another, and two's complement is exact.
import Mathlib.Tactic.Ring
import StorageSnapshot.Decode.Packed

/-!
# Numbers of bytes

Reading a byte string as a number and writing a number with a given number of bytes undo each other.
On top of them two's complement spells every integer of a type with the bytes of the type, and every
byte string of that size spells one.
-/

namespace StorageSnapshot

namespace Bytes

/-! ## Counting -/

theorem count_succ (size : Nat) : count (size + 1) = 256 * count size :=
  Nat.mul_comm (count size) 256

theorem count_pos (size : Nat) : 0 < count size := by
  induction size with
  | zero => exact Nat.one_pos
  | succ size ih => rw [count_succ]; omega

theorem count_eq_two_pow (size : Nat) : count size = 2 ^ (8 * size) := by
  induction size with
  | zero => rfl
  | succ size ih => rw [count_succ, ih, Nat.mul_succ, Nat.pow_add]; ring

/-- The numbers of at least one byte come in two halves. -/
theorem count_eq_two_mul_half {size : Nat} (h : 0 < size) : count size = 2 * (count size / 2) := by
  obtain ⟨n, rfl⟩ := Nat.exists_eq_succ_of_ne_zero (Nat.ne_of_gt h)
  rw [Nat.succ_eq_add_one, count_succ]
  omega

/-! ## Reading -/

private theorem foldl_eq (b : Bytes) (n : Nat) :
    b.foldl (fun n x => 256 * n + x.toNat) n = n * count b.length + b.toNat := by
  induction b generalizing n with
  | nil => exact (Nat.mul_one n).symm
  | cons x b ih =>
    have hx : toNat (x :: b) = x.toNat * count b.length + toNat b := by
      rw [toNat, List.foldl_cons, ih]
      ring
    rw [List.foldl_cons, ih, hx, List.length_cons, count_succ]
    ring

theorem toNat_cons (x : UInt8) (b : Bytes) :
    toNat (x :: b) = x.toNat * count b.length + b.toNat := by
  rw [toNat, List.foldl_cons, foldl_eq]
  ring

theorem toNat_append (a b : Bytes) : toNat (a ++ b) = toNat a * count b.length + toNat b := by
  rw [toNat, List.foldl_append, foldl_eq, ← toNat]

theorem toNat_lt (b : Bytes) : b.toNat < count b.length := by
  induction b with
  | nil => exact Nat.one_pos
  | cons x b ih =>
    have hx : x.toNat < 256 := x.toNat_lt
    rw [toNat_cons, List.length_cons, count_succ]
    calc x.toNat * count b.length + toNat b
        < x.toNat * count b.length + count b.length := Nat.add_lt_add_left ih _
      _ = (x.toNat + 1) * count b.length := by ring
      _ ≤ 256 * count b.length := Nat.mul_le_mul_right _ hx

/-! ## Writing -/

theorem toNat_ofNat (size n : Nat) : toNat (ofNat size n) = n % count size := by
  induction size with
  | zero => exact (Nat.mod_one n).symm
  | succ size ih =>
    have hx : (UInt8.ofNat (n / count size)).toNat = n / count size % 256 := UInt8.toNat_ofNat'
    rw [ofNat, toNat_cons, length_ofNat, ih, hx, count_succ, Nat.mul_comm 256, Nat.mod_mul]
    ring

theorem toNat_ofNat_of_lt {size n : Nat} (h : n < count size) : toNat (ofNat size n) = n := by
  rw [toNat_ofNat, Nat.mod_eq_of_lt h]

/-- A number that fits is not refused. -/
theorem ofInt_ofNat {size n : Nat} (h : n < count size) : ofInt size n = .ok (ofNat size n) := by
  have hn : ¬(n : Int) < 0 := by omega
  have hc : ¬(n : Int) ≥ count size := by omega
  rw [ofInt, if_neg hn, if_neg hc, Int.toNat_natCast]

/-! ## Numbers and sizes -/

/-- Byte strings of one size are told apart by their numbers. -/
theorem toNat_inj {a b : Bytes} (hlength : a.length = b.length) (h : a.toNat = b.toNat) :
    a = b := by
  induction a generalizing b with
  | nil => exact (List.length_eq_zero_iff.1 hlength.symm).symm
  | cons x a ih =>
    cases b with
    | nil => cases hlength
    | cons y b =>
      have hsize : a.length = b.length := Nat.succ_inj.1 hlength
      have ha := toNat_lt a
      have hb := toNat_lt b
      rw [← hsize] at hb
      rw [toNat_cons, toNat_cons, ← hsize, Nat.mul_comm x.toNat, Nat.mul_comm y.toNat] at h
      have hx : x.toNat = y.toNat := by
        have hdiv := congrArg (· / count a.length) h
        simpa only [Nat.mul_add_div (count_pos a.length), Nat.div_eq_of_lt ha, Nat.div_eq_of_lt hb,
          Nat.add_zero] using hdiv
      rw [hx] at h
      rw [UInt8.toNat_inj.1 hx, ih hsize (Nat.add_left_cancel h)]

theorem toNat_zeros (size : Nat) : (zeros size).toNat = 0 := by
  induction size with
  | zero => rfl
  | succ size ih =>
    have hzeros : zeros (size + 1) = 0 :: zeros size := rfl
    rw [hzeros, toNat_cons, ih]
    simp

/-- Zeros in front change no number. -/
theorem toNat_padLeft (size : Nat) (b : Bytes) : (padLeft size b).toNat = b.toNat := by
  rw [padLeft, toNat_append, toNat_zeros, Nat.zero_mul, Nat.zero_add]

/-- Words are the same with all their zeros in front if they are the same number. -/
theorem padLeft_eq_of_toNat_eq {size : Nat} {a b : Bytes} (ha : a.length ≤ size)
    (hb : b.length ≤ size) (h : a.toNat = b.toNat) : padLeft size a = padLeft size b := by
  apply toNat_inj
  · rw [length_padLeft ha, length_padLeft hb]
  · rw [toNat_padLeft, toNat_padLeft, h]

end Bytes

/-! ## Two's complement -/

namespace IntType

/-- The bytes of an integer in two's complement. -/
def encode (t : IntType) (n : Int) : Bytes := Bytes.ofNat t.size (n % (t.count : Int)).toNat

@[simp] theorem length_encode (t : IntType) (n : Int) : (t.encode n).length = t.size := by
  simp [encode]

theorem count_pos (t : IntType) : 0 < t.count := Bytes.count_pos t.size

theorem count_eq_two_mul_half (t : IntType) : t.count = 2 * (t.count / 2) :=
  Bytes.count_eq_two_mul_half t.size_pos

theorem fits_iff (t : IntType) (n : Int) :
    t.fits n = true ↔ t.minValue ≤ n ∧ n ≤ t.maxValue := by
  simp [fits]

theorem toNat_encode (t : IntType) (n : Int) :
    ((t.encode n).toNat : Int) = n % (t.count : Int) := by
  have hpos : (0 : Int) < t.count := by exact_mod_cast t.count_pos
  have hnonneg := Int.emod_nonneg n (Int.ne_of_gt hpos)
  have hlt := Int.emod_lt_of_pos n hpos
  have hfits : (n % (t.count : Int)).toNat < Bytes.count t.size := by
    have : (Bytes.count t.size : Int) = t.count := rfl
    omega
  rw [encode, Bytes.toNat_ofNat_of_lt hfits, Int.toNat_of_nonneg hnonneg]

/-- The sign bit of a number of the type's size parts it into halves. -/
theorem testBit_sign {t : IntType} {n : Nat} (h : n < t.count) :
    n.testBit (t.bits - 1) = decide (t.count / 2 ≤ n) := by
  have hbits : t.bits = t.bits - 1 + 1 := by
    have := t.size_pos
    simp only [bits]
    omega
  have hcount : t.count = 2 ^ (t.bits - 1) * 2 := by
    rw [← Nat.pow_succ, Nat.succ_eq_add_one, ← hbits, count, Bytes.count_eq_two_pow, bits]
  have hhalf : t.count / 2 = 2 ^ (t.bits - 1) := by omega
  have hpos : 0 < 2 ^ (t.bits - 1) := Nat.two_pow_pos _
  have hdiv : n / 2 ^ (t.bits - 1) < 2 := Nat.div_lt_of_lt_mul (by omega)
  rw [Nat.testBit_eq_decide_div_mod_eq, hhalf, decide_eq_decide, Nat.mod_eq_of_lt hdiv,
    ← Nat.one_le_div_iff hpos]
  omega

end IntType

namespace Decode

/-- A number of the type's size stands for itself, or for itself less the number of all of them. -/
theorem integerOfBytes_eq {t : IntType} {raw : Bytes} (h : raw.length = t.size) :
    integerOfBytes t raw =
      if t.signed ∧ t.count / 2 ≤ raw.toNat then (raw.toNat : Int) - t.count else raw.toNat := by
  have hlt : raw.toNat < t.count := by
    have := raw.toNat_lt
    rwa [h] at this
  simp only [integerOfBytes, IntType.testBit_sign hlt, Nat.mod_eq_of_lt hlt, decide_eq_true_eq]
  by_cases hneg : t.signed = true ∧ t.count / 2 ≤ raw.toNat
  · rw [if_pos hneg, if_pos hneg]
    omega
  · rw [if_neg hneg, if_neg hneg]

/-- Every byte string of the type's size stands for an integer of the type. -/
theorem fits_integerOfBytes {t : IntType} {raw : Bytes} (h : raw.length = t.size) :
    t.fits (integerOfBytes t raw) = true := by
  have hlt : raw.toNat < t.count := by
    have := raw.toNat_lt
    rwa [h] at this
  have hhalf := t.count_eq_two_mul_half
  rw [integerOfBytes_eq h, IntType.fits_iff, IntType.minValue, IntType.maxValue]
  cases t.signed with
  | false => simp; omega
  | true =>
    simp only [true_and, if_true]
    split <;> omega

/-- An integer of the type is read back from its two's complement. -/
theorem integerOfBytes_encode {t : IntType} {n : Int} (h : t.fits n = true) :
    integerOfBytes t (t.encode n) = n := by
  have hnum := t.toNat_encode n
  have hpos : (0 : Int) < t.count := by exact_mod_cast t.count_pos
  have hhalf := t.count_eq_two_mul_half
  rw [IntType.fits_iff, IntType.minValue, IntType.maxValue] at h
  rw [integerOfBytes_eq (t.length_encode n), hnum]
  -- The remainder is the integer itself, or the integer moved up by the number of all of them.
  by_cases hneg : n < 0
  · have hmod : n % (t.count : Int) = n + t.count := by
      rw [← Int.add_emod_right, Int.emod_eq_of_lt (by split at h <;> omega) (by omega)]
    cases hs : t.signed with
    | false => simp [hs] at h; omega
    | true =>
      simp only [hs, if_true] at h
      rw [if_pos ⟨rfl, by omega⟩]
      omega
  · have hmod : n % (t.count : Int) = n :=
      Int.emod_eq_of_lt (by omega) (by split at h <;> omega)
    cases hs : t.signed with
    | false => simp [hmod]
    | true =>
      simp only [hs, if_true] at h
      rw [if_neg (fun hc => by omega), hmod]

end Decode

end StorageSnapshot

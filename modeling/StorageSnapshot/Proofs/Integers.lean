-- SUMMARY: Integers are decoded from two's complement, at every place of every word.
import Mathlib.Data.Int.ModEq
import StorageSnapshot.Proofs.Failure
import StorageSnapshot.Proofs.Packed

/-!
# Integers in a word

A packed value is read from a span of one word, the bytes that end where the free bytes of its
cursor end. An integer is the number that the span spells in two's complement: reading it and
spelling it again gives the same bytes, and an integer that is written over the span is the one that
is read. What is read is always in the range of the type, so the check of the range refuses nothing.
-/

namespace StorageSnapshot

/-! ## Spans of a word -/

namespace Cursor

variable {c : Cursor} {size : Nat} {raw w : Bytes}

/-- The bytes of a word that end where the free bytes of the cursor end. -/
def span (c : Cursor) (size : Nat) (w : Bytes) : Bytes := (w.drop (c.free - size)).take size

/-- A word with other bytes that end where the free bytes of the cursor end. -/
def overwrite (c : Cursor) (raw w : Bytes) : Bytes :=
  w.take (c.free - raw.length) ++ raw ++ w.drop c.free

theorem length_span (hfree : size ≤ c.free) (hw : w.length = wordSize) :
    (c.span size w).length = size := by
  have hle : c.free ≤ wordSize := c.free_le
  simp only [span, List.length_take, List.length_drop]
  omega

theorem length_overwrite (hfree : raw.length ≤ c.free) (hw : w.length = wordSize) :
    (c.overwrite raw w).length = wordSize := by
  have hle : c.free ≤ wordSize := c.free_le
  simp only [overwrite, List.length_append, List.length_take, List.length_drop]
  omega

/-- What is written over a span is what the span holds. -/
theorem span_overwrite (hw : w.length = wordSize) :
    c.span raw.length (c.overwrite raw w) = raw := by
  have hle : c.free ≤ wordSize := c.free_le
  have hfront : (w.take (c.free - raw.length)).length = c.free - raw.length := by
    simp only [List.length_take]
    omega
  simp only [span, overwrite, List.append_assoc]
  rw [List.drop_left' hfront, List.take_left' rfl]

end Cursor

namespace Store

variable {s : Store} {c : Cursor} {size : Nat} {raw : Bytes}

/-- Reading in front of a cursor reads one word, and a span of it. -/
theorem readBefore_eq_span (hpos : 0 < size) (hfree : size ≤ c.free) :
    s.readBefore c size = s.word c.slot.toNat >>= fun w => .ok (c.span size w) := by
  cases hword : s.word c.slot.toNat with
  | ok w => exact readBefore_eq hpos hfree (by rw [wordAt_toNat, hword])
  | error e =>
    have hle : c.free ≤ wordSize := c.free_le
    have hpos' : size ≠ 0 := Nat.ne_of_gt hpos
    rw [readBefore, read, if_pos (by omega)]
    simp only [Int.toNat_natCast, readWithin, if_neg hpos', hword, error_bind]

/-- The store in which the word of a cursor has other bytes in front of it. -/
def overwrite (s : Store) (c : Cursor) (raw : Bytes) : Except Fault Store := do
  let w ← s.word c.slot.toNat
  let key ← Fault.lift (s.key c.slot.toNat)
  return { s with words := putWord key (c.overwrite raw w) s.words }

/-- Every store whose words fit can be written over, and has the word that was written. -/
theorem WordsFit.overwrite_ok (hs : s.WordsFit) (hfree : raw.length ≤ c.free) :
    ∃ s' w, s.overwrite c raw = .ok s' ∧ w.length = wordSize ∧
      s'.word c.slot.toNat = .ok (c.overwrite raw w) := by
  obtain ⟨w, hw⟩ := hs.wordAt_ok c.slot.toNat
  obtain ⟨key, hkey⟩ := s.key_ok c.slot.toNat
  rw [wordAt_toNat] at hw
  rw [Slot.toNat_mod_count] at hkey
  have hlength : w.length = wordSize := length_word hw
  have hwritten : (c.overwrite raw w).length = wordSize := Cursor.length_overwrite hfree hlength
  have hoverwrite : s.overwrite c raw =
      .ok { s with words := putWord key (c.overwrite raw w) s.words } := by
    simp only [overwrite, hw, hkey, Fault.lift, ok_bind]
    rfl
  refine ⟨_, w, hoverwrite, hlength, ?_⟩
  have hget : (Store.mk (putWord key (c.overwrite raw w) s.words) s.hashed).get? c.slot.toNat =
      .ok (some (c.overwrite raw w)) := by
    have hkey' : (Store.mk (putWord key (c.overwrite raw w) s.words) s.hashed).key c.slot.toNat =
        .ok key := hkey
    rw [get?, hkey', ← lookup_putWord_self key (c.overwrite raw w) s.words]
    rfl
  have hfits : ¬(c.overwrite raw w).length > wordSize := by omega
  simp only [word, hget, Fault.lift, ok_bind]
  rw [if_neg hfits, Bytes.padLeft, hwritten, Nat.sub_self]
  rfl

end Store

/-! ## Two's complement -/

namespace IntType

theorem count_eq_two_pow (t : IntType) : t.count = 2 ^ t.bits :=
  Bytes.count_eq_two_pow t.size

end IntType

namespace Decode

variable {t : IntType} {raw : Bytes} {store : Store} {c : Cursor} {size : Nat}

/-- The integer of a byte string has the same remainder as the number that the string spells. -/
theorem integerOfBytes_modEq (h : raw.length = t.size) :
    integerOfBytes t raw ≡ raw.toNat [ZMOD t.count] := by
  rw [integerOfBytes_eq h]
  split
  · exact Int.sub_modulus_modEq_iff.2 rfl
  · rfl

/-- The integer of a byte string is spelled by that byte string. -/
theorem encode_integerOfBytes (h : raw.length = t.size) :
    t.encode (integerOfBytes t raw) = raw := by
  apply Bytes.toNat_inj
  · rw [t.length_encode, h]
  · have hlt : raw.toNat < t.count := by
      have hraw := raw.toNat_lt
      rwa [h] at hraw
    have hnumber : ((t.encode (integerOfBytes t raw)).toNat : Int) = raw.toNat := by
      calc ((t.encode (integerOfBytes t raw)).toNat : Int)
          = integerOfBytes t raw % t.count := t.toNat_encode _
        _ = raw.toNat % t.count := integerOfBytes_modEq h
        _ = raw.toNat := Int.emod_eq_of_lt (by omega) (by omega)
    exact_mod_cast hnumber

/-! ## Reading -/

/-- Packed bytes are a span of one word, behind which the cursor goes on. -/
theorem packedBytes_eq_span (type : Ty) (hpos : 0 < size) (hfree : size ≤ c.free) :
    packedBytes store type size c = store.word c.slot.toNat >>= fun w =>
      Fault.place (c.advance size) >>= fun next => .ok (c.span size w, next) := by
  rw [packedBytes, if_neg (Nat.not_lt.2 hfree), Store.readBefore_eq_span hpos hfree]
  cases store.word c.slot.toNat <;> rfl

/-- The integer in a span of a word. -/
theorem integer_of_word {w : Bytes} {next : Cursor} (hw : store.word c.slot.toNat = .ok w)
    (hfree : t.size ≤ c.free) (hnext : c.advance t.size = .ok next) :
    integer store t c = .ok (integerOfBytes t (c.span t.size w), next) := by
  have hlength : (c.span t.size w).length = t.size :=
    Cursor.length_span hfree (Store.length_word hw)
  have hfits : t.fits (integerOfBytes t (c.span t.size w)) = true := fits_integerOfBytes hlength
  simp only [integer, packedBytes_eq_span _ t.size_pos hfree, hw, hnext, Fault.place, ok_bind,
    hfits, if_true]
  rfl

/-- Whether a fault is not that an integer is out of range. -/
def NotOutOfRange (f : Fault) : Prop := ∀ type n place, f ≠ .layout (.outOfRange type n place)

theorem ends_word (s : Store) (slot : Int) :
    EndsIn NotOutOfRange (fun w => w.length = wordSize) (s.word slot) := by
  cases hword : s.word slot with
  | ok w => exact Store.length_word hword
  | error e =>
    unfold Store.word at hword
    intro type n place he
    subst he
    cases hget : s.get? slot with
    | error e' =>
      rw [hget] at hword
      cases hword
    | ok found =>
      simp only [hget, Fault.lift, ok_bind] at hword
      cases found with
      | none => cases hword
      | some b =>
        dsimp only at hword
        split at hword <;> cases hword

theorem ends_packedBytes (type : Ty) (hpos : 0 < size) :
    EndsIn NotOutOfRange (fun r => r.1.length = size) (packedBytes store type size c) := by
  by_cases hfree : size ≤ c.free
  · rw [packedBytes_eq_span type hpos hfree]
    refine (ends_word store c.slot.toNat).bind fun w hw => ?_
    obtain ⟨next, hnext⟩ := Cursor.advance_ok hfree
    rw [hnext]
    exact Cursor.length_span hfree hw
  · rw [packedBytes, if_pos (Nat.lt_of_not_le hfree)]
    rintro _ _ _ ⟨⟩

/-- No integer is ever out of the range of its type, whatever the store holds. -/
theorem ends_integer (store : Store) (t : IntType) (c : Cursor) :
    EndsIn NotOutOfRange (fun r => t.fits r.1 = true) (integer store t c) := by
  refine (ends_packedBytes (.int t) t.size_pos).bind fun r hlength => ?_
  have hfits : t.fits (integerOfBytes t r.1) = true := fits_integerOfBytes hlength
  dsimp only
  rw [if_pos hfits]
  exact hfits

/--
Decoding an integer is decoding two's complement. Wherever there is room for it in a word, it is
decoded, to an integer of the type that has the remainder of the number that the span spells and
that the span spells again. An integer of the type that is written over the span is decoded. No
store and no place ever lead to an integer that is out of range.
-/
theorem integer_is_twosComplement (t : IntType) :
    (∀ (store : Store) (c : Cursor), store.WordsFit → t.size ≤ c.free →
      ∃ w v next, store.word c.slot.toNat = .ok w ∧ c.advance t.size = .ok next ∧
        integer store t c = .ok (v, next) ∧ t.minValue ≤ v ∧ v ≤ t.maxValue ∧
        v ≡ (c.span t.size w).toNat [ZMOD 2 ^ t.bits] ∧ t.encode v = c.span t.size w) ∧
    (∀ (store : Store) (c : Cursor) (v : Int), store.WordsFit → t.size ≤ c.free →
      t.minValue ≤ v → v ≤ t.maxValue →
      ∃ written next, store.overwrite c (t.encode v) = .ok written ∧
        c.advance t.size = .ok next ∧ integer written t c = .ok (v, next)) ∧
    ∀ (store : Store) (c : Cursor) (type : Ty) (n : Int) (place : Cursor),
      integer store t c ≠ .error (.layout (.outOfRange type n place)) := by
  refine ⟨?_, ?_, ?_⟩
  · intro store c hs hfree
    obtain ⟨w, hw⟩ := hs.wordAt_ok c.slot.toNat
    obtain ⟨next, hnext⟩ := Cursor.advance_ok hfree
    rw [Store.wordAt_toNat] at hw
    have hlength : (c.span t.size w).length = t.size :=
      Cursor.length_span hfree (Store.length_word hw)
    obtain ⟨hmin, hmax⟩ := (t.fits_iff _).1 (fits_integerOfBytes hlength)
    have hmod : integerOfBytes t (c.span t.size w) ≡ (c.span t.size w).toNat [ZMOD 2 ^ t.bits] := by
      simpa [t.count_eq_two_pow] using integerOfBytes_modEq hlength
    exact ⟨w, _, next, hw, hnext, integer_of_word hw hfree hnext, hmin, hmax, hmod,
      encode_integerOfBytes hlength⟩
  · intro store c v hs hfree hmin hmax
    have hencoded : (t.encode v).length ≤ c.free := by rwa [t.length_encode]
    obtain ⟨written, w, hwritten, hlength, hw⟩ := hs.overwrite_ok hencoded
    obtain ⟨next, hnext⟩ := Cursor.advance_ok hfree
    have hspan : c.span t.size (c.overwrite (t.encode v) w) = t.encode v := by
      rw [← t.length_encode v]
      exact Cursor.span_overwrite hlength
    refine ⟨written, next, hwritten, hnext, ?_⟩
    rw [integer_of_word hw hfree hnext, hspan,
      integerOfBytes_encode ((t.fits_iff v).2 ⟨hmin, hmax⟩)]
  · intro store c type n place houtOfRange
    exact (ends_integer store t c).of_error houtOfRange type n place rfl

/-! ## A negative number in the middle of a word -/

namespace Signed

def int24 : IntType := ⟨true, 3, by decide, by decide⟩

/-- A store with the bytes of `-2` between others. -/
def stored : Store where
  words := [(0, [7, 7, 0xff, 0xff, 0xfe, 9])]

def place : Cursor := ⟨0, 31, by decide, by decide⟩

theorem word_place : stored.word place.slot.toNat =
    .ok (Bytes.zeros 26 ++ [7, 7, 0xff, 0xff, 0xfe, 9]) := rfl

end Signed

/-- A number is read with its sign, and the least number of its type can take its place. -/
theorem integer_is_twosComplement_int24 :
    (∃ next, integer Signed.stored Signed.int24 Signed.place = .ok (-2, next)) ∧
      ∃ written next, Signed.stored.overwrite Signed.place (Signed.int24.encode (-8388608)) =
        .ok written ∧ integer written Signed.int24 Signed.place = .ok (-8388608, next) := by
  obtain ⟨hread, hwrite, -⟩ := integer_is_twosComplement Signed.int24
  refine ⟨?_, ?_⟩
  · obtain ⟨w, v, next, hw, -, hv, hmin, hmax, -, hencode⟩ :=
      hread Signed.stored Signed.place (by decide) (by decide)
    rw [Signed.word_place, Except.ok.injEq] at hw
    have hspan : Signed.int24.encode v = Signed.int24.encode (-2) := by
      rw [hencode, ← hw]
      decide
    have hv' : v = -2 := by
      rw [← integerOfBytes_encode ((Signed.int24.fits_iff v).2 ⟨hmin, hmax⟩), hspan]
      decide
    exact ⟨next, hv' ▸ hv⟩
  · obtain ⟨written, next, hwritten, -, hv⟩ :=
      hwrite Signed.stored Signed.place (-8388608) (by decide) (by decide) (by decide) (by decide)
    exact ⟨written, next, hwritten, hv⟩

end Decode

end StorageSnapshot

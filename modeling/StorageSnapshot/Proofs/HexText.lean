-- SUMMARY: Byte strings and addresses are read from hexadecimal text, checksums included.
import StorageSnapshot.Proofs.Spelling
import StorageSnapshot.Value.Text

/-!
# Hexadecimal text of bytes

Bytes are written with two hexadecimal digits each. Digits may be of either case, and the checksum
of an address is in their case alone. So the text of an address is read as any other text of its
bytes.
-/

namespace StorageSnapshot

/-- Whether a text writes bytes in hexadecimal, behind a marker or without one, where a zero in
front of all digits may be left out. -/
def Text.IsHexOf (s : String) (raw : Bytes) : Prop :=
  ∃ marker cs, (marker = [] ∨ IsMarker marker) ∧ Surrounds s (marker ++ cs) ∧
    (cs.length + 1) / 2 = raw.length ∧ AreDigits 16 hexValue? cs raw.toNat

namespace Bytes

/-- Hexadecimal text of bytes is read as these bytes. -/
theorem ofHex_of_isHexOf {s : String} {raw : Bytes} (h : Text.IsHexOf s raw) :
    ofHex s = .ok raw := by
  obtain ⟨marker, cs, hmarker, hs, hlength, hcs⟩ := h
  obtain ⟨found, hfound, hsize, hnumber⟩ := ofHex_of_areDigits hmarker hs hcs
  rw [hfound, toNat_inj (hsize.trans hlength) hnumber]

/-! ## Writing -/

theorem hexValue?_hexDigit {d : Nat} (h : d < 16) : hexValue? (hexDigit d) = some d := by
  have hall : ∀ d < 16, hexValue? (hexDigit d) = some d := by decide
  exact hall d h

theorem length_hexChars (raw : Bytes) : (hexChars raw).length = 2 * raw.length := by
  induction raw with
  | nil => rfl
  | cons x raw ih =>
    rw [hexChars, List.flatMap_cons, List.length_append, ← hexChars, ih]
    simp only [List.length_cons, List.length_nil]
    omega

/-- Two digits in front of the digits of bytes are those of one more byte. -/
theorem areDigits_pair {ch ch' : Char} {d d' : Nat} {cs : List Char} {raw : Bytes}
    (hd : hexValue? ch = some d) (hd' : hexValue? ch' = some d')
    (hlength : cs.length = 2 * raw.length) (h : Text.AreDigits 16 hexValue? cs raw.toNat) :
    Text.AreDigits 16 hexValue? (ch :: ch' :: cs) (toNat (UInt8.ofNat (16 * d + d') :: raw)) := by
  obtain ⟨ds, hds, hn⟩ := h
  refine ⟨d :: d' :: ds, .cons hd (.cons hd' hds), Eq.symm ?_⟩
  exact toNat_pair (Text.hexValue?_eq_some hd).1 (Text.hexValue?_eq_some hd').1
    (hds.length_eq.symm.trans hlength) hn.symm

/-- The digits of bytes write their number. -/
theorem areDigits_hexChars (raw : Bytes) :
    Text.AreDigits 16 hexValue? (hexChars raw) raw.toNat := by
  induction raw with
  | nil => exact ⟨[], .nil, rfl⟩
  | cons x raw ih =>
    have hx := x.toNat_lt
    have hpair := areDigits_pair (hexValue?_hexDigit (by omega : x.toNat / 16 < 16))
      (hexValue?_hexDigit (by omega : x.toNat % 16 < 16)) (length_hexChars raw) ih
    rwa [Nat.div_add_mod, UInt8.ofNat_toNat] at hpair

end Bytes

/-- A byte string as it is shown writes its bytes. -/
theorem Text.isHexOf_bytesText (raw : Bytes) : IsHexOf (Value.bytesText raw) raw := by
  have hs : (Value.bytesText raw).toList = ['0', 'x'] ++ Bytes.hexChars raw := by
    rw [Value.bytesText, String.toList_append]
    exact congrArg (['0', 'x'] ++ ·) String.toList_ofList
  have hlength := Bytes.length_hexChars raw
  exact ⟨['0', 'x'], Bytes.hexChars raw, .inr (.inl rfl), hs ▸ surrounds_self _, by omega,
    Bytes.areDigits_hexChars raw⟩

/-! ## Addresses -/

namespace Address

theorem hexValue?_toUpper {ch : Char} {d : Nat} (h : hexValue? ch = some d) :
    hexValue? ch.toUpper = some d := by
  have hall : ∀ n < 103, hexValue? (Char.ofNat n).toUpper = hexValue? (Char.ofNat n) := by decide
  have hrange := (Text.hexValue?_eq_some h).2
  have hch := hall ch.toNat (by omega)
  rwa [Char.ofNat_toNat, h] at hch

/-- A digit of a checksum is the same digit. -/
theorem hexValue?_checksumDigit {ch : Char} {d : Nat} (h : hexValue? ch = some d) (mark : Char) :
    hexValue? (checksumDigit ch mark) = some d := by
  rw [checksumDigit]
  split
  · exact hexValue?_toUpper h
  · exact h

/-- A checksum is in the case of digits alone. -/
theorem areDigits_checksum {cs marks : List Char} {n : Nat}
    (h : Text.AreDigits 16 hexValue? cs n) (hlength : cs.length ≤ marks.length) :
    Text.AreDigits 16 hexValue? (List.zipWith checksumDigit cs marks) n := by
  obtain ⟨ds, hds, hn⟩ := h
  refine ⟨ds, ?_, hn⟩
  clear hn
  induction hds generalizing marks with
  | nil => exact .nil
  | cons hd _ ih =>
    obtain _ | ⟨mark, marks⟩ := marks
    · cases hlength
    · exact .cons (hexValue?_checksumDigit hd mark) (ih (Nat.le_of_succ_le_succ hlength))

/-- The text of an address writes its bytes. -/
theorem isHexOf_text (a : Address) : Text.IsHexOf a.text a.bytes := by
  obtain ⟨marks, hmarks, htext⟩ : ∃ marks : List Char, marks.length = 64 ∧
      a.text = String.ofList ('0' :: 'x' ::
        List.zipWith checksumDigit (Bytes.hexChars a.bytes) marks) :=
    ⟨_, by rw [Bytes.length_hexChars, Keccak.length_digest], rfl⟩
  have hdigits : (Bytes.hexChars a.bytes).length = 40 := by
    rw [Bytes.length_hexChars, a.length_bytes]
  have hs : a.text.toList =
      ['0', 'x'] ++ List.zipWith checksumDigit (Bytes.hexChars a.bytes) marks := by
    rw [htext, String.toList_ofList]
    rfl
  refine ⟨['0', 'x'], List.zipWith checksumDigit (Bytes.hexChars a.bytes) marks, .inr (.inl rfl),
    hs ▸ Text.surrounds_self a.text, ?_, areDigits_checksum (Bytes.areDigits_hexChars a.bytes) ?_⟩
  · rw [List.length_zipWith, hmarks, hdigits, a.length_bytes]
    decide
  · rw [hmarks, hdigits]
    decide

end Address

end StorageSnapshot

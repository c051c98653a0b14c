-- SUMMARY: The UTF-8 bytes of a text are read back as the text.
import StorageSnapshot.Text.Utf8

/-!
# Reading UTF-8

The bytes of a character lead the reader from the state between characters back to it, with the
spelling of the character. So the bytes of any text are read as the text, without replacements.
-/

namespace StorageSnapshot.Text

/-- The UTF-8 bytes of a text in which every character stands for itself. -/
def utf8 (s : String) : List UInt8 := s.toUTF8.data.toList

theorem utf8_eq_flatMap (s : String) : utf8 s = s.toList.flatMap String.utf8EncodeChar := by
  rw [utf8, String.toUTF8_eq_toByteArray, ← String.utf8Encode_toList, List.utf8Encode,
    List.toList_data_toByteArray]

/-! ## First bytes -/

private theorem startChar_two {b : Nat} (h : 0xc2 ≤ b) (hb : b < 0xe0) :
    startChar b = ([], some { bits := b - 0xc0, more := 0 }) := by
  rw [startChar, if_neg (by omega), if_neg (by omega), if_pos hb]

private theorem startChar_three {b : Nat} (h : 0xe0 ≤ b) (hb : b < 0xf0) :
    startChar b = ([], some {
      bits := b - 0xe0
      more := 1
      low := if b = 0xe0 then 0xa0 else 0x80
      high := if b = 0xed then 0x9f else 0xbf }) := by
  rw [startChar, if_neg (by omega), if_neg (by omega), if_neg (by omega)]
  by_cases hlow : b = 0xe0
  · simp [hlow]
  · by_cases hhigh : b = 0xed
    · simp [hhigh]
    · simp [hlow, hhigh, hb]

private theorem startChar_four {b : Nat} (h : 0xf0 ≤ b) (hb : b ≤ 0xf4) :
    startChar b = ([], some {
      bits := b - 0xf0
      more := 2
      low := if b = 0xf0 then 0x90 else 0x80
      high := if b = 0xf4 then 0x8f else 0xbf }) := by
  rw [startChar, if_neg (by omega), if_neg (by omega), if_neg (by omega), if_neg (by omega),
    if_neg (by omega), if_neg (by omega)]
  by_cases hlow : b = 0xf0
  · simp [hlow]
  · by_cases hhigh : b = 0xf4
    · simp [hhigh]
    · simp [hlow, hhigh, show b < 0xf4 by omega]

/-! ## Bytes behind the first -/

private theorem toNat_ofNat_byte {n : Nat} (h : n < 256) : (UInt8.ofNat n).toNat = n := by
  rw [UInt8.toNat_ofNat', Nat.mod_eq_of_lt h]

private theorem decodeUtf8From_start {n : Nat} {u : Unfinished} (hn : n < 256)
    (h : startChar n = ([], some u)) (bs : List UInt8) :
    decodeUtf8From none (UInt8.ofNat n :: bs) = decodeUtf8From (some u) bs := by
  rw [decodeUtf8From, toNat_ofNat_byte hn, nextByte, h]
  rfl

private theorem decodeUtf8From_more {n more : Nat} {u : Unfinished} (hn : n < 256)
    (hlow : u.low ≤ n) (hhigh : n ≤ u.high) (hmore : u.more = more + 1) (bs : List UInt8) :
    decodeUtf8From (some u) (UInt8.ofNat n :: bs) =
      decodeUtf8From (some { bits := u.bits * 64 + (n - 0x80), more }) bs := by
  rw [decodeUtf8From, toNat_ofNat_byte hn]
  simp [nextByte, hlow, hhigh, hmore]

private theorem decodeUtf8From_last {n : Nat} {u : Unfinished} (hn : n < 256)
    (hlow : u.low ≤ n) (hhigh : n ≤ u.high) (hmore : u.more = 0) (bs : List UInt8) :
    decodeUtf8From (some u) (UInt8.ofNat n :: bs) =
      spell (u.bits * 64 + (n - 0x80)) ++ decodeUtf8From none bs := by
  rw [decodeUtf8From, toNat_ofNat_byte hn]
  simp [nextByte, hlow, hhigh, hmore]

/-! ## Characters and texts -/

private theorem spell_of_lt {n : Nat} (h : n < 0x80) : spell n = [Char.ofNat n] := by
  have hc : (Char.ofNat n).toNat = n := toNat_ofNat (by omega)
  have hlone : isLoneUnit n = false := by
    simpa [Bool.eq_false_iff, isLoneUnit_iff] using fun hn => by omega
  have hgap : n - standInGap = 0 := by unfold standInGap; omega
  have hshift : Char.ofNat n ≠ shift := by
    intro he
    have hn : n = 0xde000 := by rw [← hc, he]; decide
    omega
  have hreserved : isReserved (Char.ofNat n) = false := by
    rw [isReserved, hc, hgap]
    simpa [isLoneUnit, isHighUnit, isLowUnit] using hshift
  rw [spell, if_neg (by simp [hlone]), if_neg (by simp [hreserved])]

/-- The bytes of a character are read as the character, whatever follows them. -/
theorem decodeUtf8From_utf8EncodeChar (c : Char) (bs : List UInt8) :
    decodeUtf8From none (String.utf8EncodeChar c ++ bs) =
      spell c.toNat ++ decodeUtf8From none bs := by
  have hvalid : c.toNat < 0xd800 ∨ 0xdfff < c.toNat ∧ c.toNat < 0x110000 := c.valid
  generalize hv : c.toNat = v at hvalid ⊢
  unfold String.utf8EncodeChar
  rw [show c.val.toNat = v from hv]
  dsimp only
  split
  next h =>
    rw [spell_of_lt (by omega), List.singleton_append, decodeUtf8From,
      toNat_ofNat_byte (by omega), nextByte, startChar, if_pos (by omega)]
  next h =>
    split
    next h2 =>
      have hstart := startChar_two (b := v / 64 % 32 + 0xc0) (by omega) (by omega)
      rw [List.cons_append, List.cons_append, List.nil_append,
        decodeUtf8From_start (by omega) hstart,
        decodeUtf8From_last (by omega) (by simp) (by simp; omega) rfl]
      exact congrArg (fun n => spell n ++ decodeUtf8From none bs) (by dsimp only; omega)
    next h2 =>
      split
      next h3 =>
        have hstart := startChar_three (b := v / 4096 % 16 + 0xe0) (by omega) (by omega)
        simp only [List.cons_append, List.nil_append]
        rw [decodeUtf8From_start (by omega) hstart,
          decodeUtf8From_more (by omega) (by simp only; split <;> omega)
            (by simp only; split <;> omega) rfl,
          decodeUtf8From_last (by omega) (by simp) (by simp; omega) rfl]
        exact congrArg (fun n => spell n ++ decodeUtf8From none bs) (by dsimp only; omega)
      next h3 =>
        have hstart := startChar_four (b := v / 262144 % 8 + 0xf0) (by omega) (by omega)
        simp only [List.cons_append, List.nil_append]
        rw [decodeUtf8From_start (by omega) hstart,
          decodeUtf8From_more (by omega) (by simp only; split <;> omega)
            (by simp only; split <;> omega) rfl,
          decodeUtf8From_more (by omega) (by simp) (by simp; omega) rfl,
          decodeUtf8From_last (by omega) (by simp) (by simp; omega) rfl]
        exact congrArg (fun n => spell n ++ decodeUtf8From none bs) (by dsimp only; omega)

theorem decodeUtf8From_flatMap (cs : List Char) :
    decodeUtf8From none (cs.flatMap String.utf8EncodeChar) =
      cs.flatMap fun c => spell c.toNat := by
  induction cs with
  | nil => rfl
  | cons c cs ih => rw [List.flatMap_cons, decodeUtf8From_utf8EncodeChar, ih, List.flatMap_cons]

/-- Valid UTF-8 is read without replacements. -/
theorem decodeUtf8_utf8 (s : String) : decodeUtf8 (utf8 s) = spelled s := by
  rw [decodeUtf8, utf8_eq_flatMap, decodeUtf8From_flatMap, spelled]

/-! ## Spellings -/

/-- The code points of a text are its characters, if every character stands for itself. -/
theorem codePoints_spelled (text : String) :
    codePoints (spelled text).toList = text.toList.map Char.toNat := by
  rw [spelled, String.toList_ofList, ← List.flatMap_map]
  apply codePoints_spelling
  intro n hn
  obtain ⟨c, -, rfl⟩ := List.mem_map.1 hn
  rcases c.valid with h | h
  · exact Nat.lt_trans h (by decide)
  · exact h.2

/-- No character is a lone unit. -/
theorem isLoneUnit_toNat (c : Char) : isLoneUnit c.toNat = false := by
  rw [Bool.eq_false_iff, ne_eq, isLoneUnit_iff]
  rcases c.valid with h | h
  · exact fun hlone => absurd h (Nat.not_lt.2 hlone.1)
  · exact fun hlone => absurd h.1 (by have := hlone.2; simp only [Char.toNat] at this; omega)

/-- A text is read back from its spelling. -/
theorem plain_spelled (text : String) : plain (spelled text) = text := by
  have hchar : ∀ c : Char,
      (if isLoneUnit c.toNat then '\ufffd' else Char.ofNat c.toNat) = c := by
    intro c
    rw [isLoneUnit_toNat, if_neg Bool.false_ne_true, Char.ofNat_toNat]
  rw [plain, codePoints_spelled, List.map_map]
  have hself := (List.map_congr_left fun c _ => hchar c).trans (List.map_id text.toList)
  exact (congrArg String.ofList hself).trans String.ofList_toList

/-! ## Writing -/

private theorem toList_loop (bytes : ByteArray) (i : Nat) (done : List UInt8) :
    ByteArray.toList.loop bytes i done = done.reverse ++ bytes.data.toList.drop i := by
  have hsize : bytes.data.toList.length = bytes.size := rfl
  induction h : bytes.size - i generalizing i done with
  | zero =>
    rw [ByteArray.toList.loop, if_neg (by omega), List.drop_eq_nil_of_le (by omega),
      List.append_nil]
  | succ n ih =>
    have hlt : i < bytes.data.toList.length := by omega
    have hget : bytes.get! i = bytes.data.toList[i] := getElem!_pos bytes.data i hlt
    rw [ByteArray.toList.loop, if_pos (by omega), ih (i + 1) _ (by omega),
      List.drop_eq_getElem_cons hlt, hget, List.reverse_cons, List.append_assoc,
      List.singleton_append]

theorem loneUnits?_eq_none {ns : List Nat} (h : ∀ n ∈ ns, isLoneUnit n = false) (place : Nat) :
    loneUnits? place ns = none := by
  induction ns generalizing place with
  | nil => rfl
  | cons n ns ih =>
    rw [loneUnits?, h n List.mem_cons_self, if_neg Bool.false_ne_true]
    exact ih (fun m hm => h m (List.mem_cons_of_mem n hm)) (place + 1)

/-- A text in which every character stands for itself has the bytes of its characters. -/
theorem encodeUtf8_spelled (text : String) : encodeUtf8 (spelled text) = .ok (utf8 text) := by
  have hunits : loneUnits? 0 (codePoints (spelled text).toList) = none := by
    rw [codePoints_spelled]
    apply loneUnits?_eq_none
    intro n hn
    obtain ⟨c, -, rfl⟩ := List.mem_map.1 hn
    exact isLoneUnit_toNat c
  rw [encodeUtf8, hunits, plain_spelled, utf8]
  exact congrArg Except.ok (toList_loop text.toUTF8 0 [])

end StorageSnapshot.Text

-- SUMMARY: A mapping key given as a text is the key of the value that it writes, below zero apart.
import StorageSnapshot.Proofs.KeyWords

/-!
# Keys given as texts

On a command line every key is a text. An integer may be written in decimal or in hexadecimal, a
truth value in any letter case, and bytes in hexadecimal digits. Each text is encoded as the value
that it writes, with one gap: numerals have no sign, so the texts of negative numbers are refused,
although these numbers are keys.
-/

namespace StorageSnapshot

variable {r : Resolver} {t u : Ty} {ints : IntType} {s : String} {n : Int} {key : Datum}

namespace Text

/-! ## Numerals -/

/-- Whether a text writes an integer: in decimal with its sign or, from zero on, as any numeral. -/
inductive Writes (s : String) : Int → Prop
  | decimal {n : Int} (hs : Surrounds s (Text.decimal n).toList) : Writes s n
  | numeral {n : Nat} (hs : IsNumeral s n) : Writes s n

/-- A digit behind others is the least significant one. -/
theorem AreDigits.concat {base m d : Nat} {value? : Char → Option Nat} {cs : List Char} {ch : Char}
    (h : AreDigits base value? cs m) (hd : value? ch = some d) :
    AreDigits base value? (cs ++ [ch]) (d + base * m) := by
  obtain ⟨ds, hds, rfl⟩ := h
  refine ⟨ds ++ [d], List.rel_append hds (.cons hd .nil), ?_⟩
  rw [List.reverse_append, List.reverse_singleton, List.singleton_append, Nat.ofDigits_cons]

theorem decimalValue?_digitChar {d : Nat} (h : d < 10) : decimalValue? d.digitChar = some d := by
  have hall : ∀ d < 10, decimalValue? d.digitChar = some d := by decide
  exact hall d h

/-- The decimal digits of a number write it. -/
theorem areDigits_toDigits (m : Nat) : AreDigits 10 decimalValue? (Nat.toDigits 10 m) m := by
  have hsingle {d : Nat} (hd : d < 10) : AreDigits 10 decimalValue? [d.digitChar] d :=
    ⟨[d], .cons (decimalValue?_digitChar hd) .nil, Nat.ofDigits_singleton⟩
  induction m using Nat.strong_induction_on with
  | _ m ih =>
    rcases Nat.lt_or_ge m 10 with hsmall | hlarge
    · rw [Nat.toDigits_of_lt_base hsmall]
      exact hsingle hsmall
    · have hlast := decimalValue?_digitChar (Nat.mod_lt m (by decide : 0 < 10))
      have hconcat := (ih (m / 10) (by omega)).concat hlast
      rwa [← Nat.toDigits_of_base_le (by decide) hlarge, Nat.mod_add_div] at hconcat

theorem Surrounds.trimmed_eq {cs : List Char} (h : Surrounds s cs)
    (hcs : ∀ ch ∈ cs, Text.isBlank ch = false) : trimmed s = String.ofList cs := by
  rw [trimmed, h.trim_eq hcs]

/-- A number is written by its decimal text. -/
theorem isNumeral_decimal {m : Nat} (hm : m < 10 ^ maxDigits)
    (hs : Surrounds s (Text.decimal m).toList) : IsNumeral s m := by
  have hdecimal : (Text.decimal m).toList = Nat.toDigits 10 m := String.toList_ofList
  rw [hdecimal] at hs
  exact .decimal hs Nat.toDigits_ne_nil
    ((Nat.length_toDigits_le_iff (by decide) (by decide)).2 hm) (areDigits_toDigits m)

/-- Numerals have no sign in front. -/
theorem toInteger_of_negative (hn : n < 0) (hs : Surrounds s (Text.decimal n).toList) :
    (Datum.text s).toInteger = .error (.notANumeral (Text.decimal n)) := by
  obtain ⟨m, rfl⟩ := Int.eq_negSucc_of_lt_zero hn
  have hdecimal : (Text.decimal (.negSucc m)).toList = '-' :: Nat.toDigits 10 (m + 1) :=
    String.toList_ofList
  have hblank : ∀ ch ∈ '-' :: Nat.toDigits 10 (m + 1), isBlank ch = false := by
    intro ch hch
    rcases List.mem_cons.1 hch with rfl | hch
    · decide
    · exact (areDigits_toDigits _).isBlank (fun _ _ => isBlank_of_decimalValue?) ch hch
  rw [hdecimal] at hs
  -- The sign is no digit, and what follows does not make up for it.
  have hsign : (Nat.toDigits 10 (m + 1)).foldl
      (fun n c => do return 10 * (← n) + (← decimalValue? c)) none = (none : Option Nat) := by
    induction Nat.toDigits 10 (m + 1) with
    | nil => rfl
    | cons _ _ ih => exact ih
  have hnatural : natural? s = none := by
    rw [natural?, hs.trim_eq hblank]
    exact hsign
  simp only [Datum.toInteger, hnatural, hs.trimmed_eq hblank]
  rfl

/-- What a text writes is read, unless it has a sign in front. -/
theorem Writes.toInteger (h : Writes s n) (hlt : n < 10 ^ maxDigits) :
    (Datum.text s).toInteger = if n < 0 then .error (.notANumeral (Text.decimal n)) else .ok n := by
  cases h with
  | numeral hs => exact toInteger_of_isNumeral hs
  | decimal hs =>
    by_cases hn : n < 0
    · rw [if_pos hn]
      exact toInteger_of_negative hn hs
    · obtain ⟨m, rfl⟩ := Int.eq_ofNat_of_zero_le (Int.not_lt.1 hn)
      rw [if_neg hn]
      exact toInteger_of_isNumeral (isNumeral_decimal (by exact_mod_cast hlt) hs)

end Text

/-! ## Texts of keys -/

/-- Whether a key stands for an address, as its bytes or as its text. -/
def Address.IsKey (a : Address) (key : Datum) : Prop := key = .bytes a.bytes ∨ key = .text a.text

/-- Whether a text writes a value of a shape, where the value is given as a key. -/
inductive Shape.Spells (s : String) : Shape → Datum → Prop
  | int {ints : IntType} {n : Int} (hfits : ints.fits n = true) (hs : Text.Writes s n) :
      Spells s (.int ints) (.int n)
  | bool {b : Bool} (hs : s.toList.map Char.toLower = (if b then "true" else "false").toList) :
      Spells s .bool (.bool b)
  | fixedBytes {size : Nat} {raw : Bytes} (hlength : raw.length = size) (hs : Text.IsHexOf s raw) :
      Spells s (.fixedBytes size) (.bytes raw)
  | address {a : Address} {key : Datum} (hkey : a.IsKey key) (hs : Text.IsHexOf s a.bytes) :
      Spells s .address key

/-- Whether a text writes a value of a type that is no alias, where the value is given as a key. -/
inductive Ty.Spells (s : String) : Ty → Datum → Prop
  | elementary {e : Elementary} {key : Datum} (h : e.shape.Spells s key) :
      Spells s (.elementary e) key
  | contract {name reference : Datum} {a : Address} {key : Datum} (hkey : a.IsKey key)
      (hs : Text.IsHexOf s a.bytes) : Spells s (.contract name reference) key
  | enum {d : Declaration} {typeString : Datum} {members : List Datum} {n : Int}
      (hfits : (Ty.ordinals members).fits n = true) (hmember : n < members.length)
      (hs : Text.Writes s n) : Spells s (.enum d typeString members) (.int n)

/-- Every value that is a key can be written. -/
theorem Ty.Reads.exists_spells {raw : Bytes} {v : Value} (h : u.Reads raw v) (hv : u.Admits v) :
    ∃ s, u.Spells s v.plain := by
  cases h with
  | @contract _ _ a ha => exact ⟨a.text, .contract (.inr rfl) a.isHexOf_text⟩
  | enum hsize =>
    exact ⟨_, .enum (Decode.fits_integerOfBytes hsize) hv (.decimal (Text.surrounds_self _))⟩
  | @elementary e v hsize hreads =>
    suffices hshape : ∃ s, e.shape.Spells s v.plain from hshape.imp fun _ => .elementary
    generalize e.shape = shape at hsize hreads
    cases hreads with
    | int ints =>
      have hlength : raw.length = ints.size := (Option.some.inj hsize).symm
      exact ⟨_, .int (Decode.fits_integerOfBytes hlength) (.decimal (Text.surrounds_self _))⟩
    | bool =>
      generalize (Decode.integerOfBytes .uint8 raw != 0) = b
      exact ⟨if b then "true" else "false", .bool (by cases b <;> rfl)⟩
    | fixedBytes size =>
      exact ⟨_, .fixedBytes (Option.some.inj hsize).symm (Text.isHexOf_bytesText raw)⟩
    | address a ha => exact ⟨a.text, .address (.inr rfl) a.isHexOf_text⟩

namespace Key

/-- What the text of a key comes to if the key itself is encoded as this word: a negative number is
not read. -/
def ofText : Datum → Bytes → Except Fault Bytes
  | .int n, word => if n < 0 then .error (.data (.notANumeral (Text.decimal n))) else .ok word
  | _, word => .ok word

theorem ofText_of_nonneg (h : ∀ n < 0, key ≠ .int n) (word : Bytes) :
    ofText key word = .ok word := by
  cases key with
  | int n => exact if_neg fun hn => h n hn rfl
  | _ => rfl

theorem ofText_of_negative (hn : n < 0) (word : Bytes) :
    ofText (.int n) word = .error (.data (.notANumeral (Text.decimal n))) := if_pos hn

/-! ## Conversions -/

/-- The integers of a type have few digits. -/
theorem lt_of_fits (h : ints.fits n = true) : n < 10 ^ Text.maxDigits := by
  have hlt := Text.isWritable_iff.1 (isWritable_of_fits h)
  exact_mod_cast Int.lt_of_le_of_lt Int.le_natAbs (Int.ofNat_lt.2 hlt)

theorem encodeInt_native (type : Ty) (hfits : ints.fits n = true) {bound : Option Nat}
    (hbound : ∀ b ∈ bound, n < b) : encodeInt (.int n) type ints bound = .ok (wordOfInt n) := by
  have hnative : (Datum.int n).truncated = .ok n := rfl
  rw [encodeInt_of_truncated hnative type hfits, if_pos hbound]

/-- The text of an integer is encoded as the integer, unless there is a sign in it. -/
theorem encodeInt_text (hs : Text.Writes s n) (type : Ty) (hfits : ints.fits n = true)
    {bound : Option Nat} (hbound : ∀ b ∈ bound, n < b) :
    encodeInt (.text s) type ints bound = ofText (.int n) (wordOfInt n) := by
  have hread : (Datum.text s).truncated =
      if n < 0 then .error (.notANumeral (Text.decimal n)) else .ok n :=
    hs.toInteger (lt_of_fits hfits)
  by_cases hn : n < 0
  · rw [if_pos hn] at hread
    rw [encodeInt, hread, ofText_of_negative hn]
    rfl
  · rw [if_neg hn] at hread
    rw [encodeInt_of_truncated hread type hfits, if_pos hbound, ofText, if_neg hn]

theorem encodeBool_text {b : Bool}
    (hs : s.toList.map Char.toLower = (if b then "true" else "false").toList) :
    encodeBool (.text s) = encodeBool (.bool b) := by
  have htruth : (Datum.text s).truth? = some b := by
    rw [Datum.truth?, hs]
    cases b <;> rfl
  unfold encodeBool
  rw [htruth]
  rfl

theorem encodeAddress_of_isKey {a : Address} (h : a.IsKey key) :
    encodeAddress key = .ok (a.bytes.padLeft wordSize) ∧
      ∀ word, ofText key word = .ok word := by
  have hlength : a.bytes.length = addressSize := a.length_bytes
  rcases h with rfl | rfl
  · rw [encodeAddress, sizedBytes_bytes hlength]
    exact ⟨rfl, fun _ => rfl⟩
  · exact ⟨encodeAddress_text a.isHexOf_text, fun _ => rfl⟩

/-! ## Types -/

theorem encodeElementary_text {e : Elementary} (h : e.shape.Spells s key) :
    ∃ word, encodeElementary e key = .ok word ∧
      encodeElementary e (.text s) = ofText key word := by
  unfold encodeElementary
  generalize e.shape = shape at h
  cases h with
  | int hfits hs =>
    exact ⟨_, encodeInt_native _ hfits nofun, encodeInt_text hs _ hfits nofun⟩
  | bool hs => exact ⟨_, rfl, encodeBool_text hs⟩
  | fixedBytes hlength hs =>
    dsimp only
    rw [sizedBytes_bytes hlength, sizedBytes_text hs hlength]
    exact ⟨_, rfl, rfl⟩
  | address ha hs =>
    obtain ⟨hnative, htext⟩ := encodeAddress_of_isKey ha
    exact ⟨_, hnative, (encodeAddress_text hs).trans (htext _).symm⟩

/-- The text of a value is encoded as the value, unless this is a negative number. -/
theorem encodeRaw_text (r : Resolver) (h : u.Spells s key) :
    ∃ word, (encodeRaw r key u).result = .ok word ∧
      (encodeRaw r (.text s) u).result = ofText key word := by
  cases h with
  | elementary h =>
    obtain ⟨word, hnative, htext⟩ := encodeElementary_text h
    exact ⟨word, hnative, htext⟩
  | contract ha hs =>
    obtain ⟨hnative, htext⟩ := encodeAddress_of_isKey ha
    exact ⟨_, hnative, (encodeAddress_text hs).trans (htext _).symm⟩
  | @enum d typeString members n hfits hmember hs =>
    have hbound : ∀ b ∈ some members.length, n < b := by
      rintro b ⟨⟩
      exact hmember
    exact ⟨_, encodeInt_native _ hfits hbound, encodeInt_text hs _ hfits hbound⟩

end Key

namespace Key

/--
Every value of a key type has a text. Any of its texts is encoded as the value itself, unless the
value is a negative number: this is a key, but its text is refused as no numeral.
-/
theorem encode_of_spells (ht : t.StandsFor r u) :
    (∀ v, Decode.IsValueOf r t v → u.Admits v → ∃ s, u.Spells s v.plain) ∧
      ∀ s key, u.Spells s key →
        ((∀ n < 0, key ≠ .int n) → ∃ word, (encode r t key).result = .ok word ∧
          (encode r t (.text s)).result = .ok word) ∧
        ∀ n < 0, key = .int n → (∃ word, (encode r t key).result = .ok word) ∧
          (encode r t (.text s)).result = .error
            (.input (.badKey (.text s) (.notConvertible t (.notANumeral (Text.decimal n))))) := by
  constructor
  · intro v hv hadmits
    obtain ⟨raw, hreads⟩ := hv.exists_reads ht
    exact hreads.exists_spells hadmits
  · intro s key h
    obtain ⟨word, hnative, htext⟩ := encodeRaw_text r h
    rw [ht.result_encode, ht.result_encode, hnative, htext]
    constructor
    · intro hkey
      rw [ofText_of_nonneg hkey]
      exact ⟨word, rfl, rfl⟩
    · rintro n hn rfl
      refine ⟨⟨word, rfl⟩, ?_⟩
      rw [ofText_of_negative hn, mapError_error, refusal, if_pos (.inr rfl)]
      exact congrArg Except.error (Fault.ofInput_of_check ht.checkName)

/-! ## Small numbers -/

namespace Small

/-- A type with numbers on both sides of zero. -/
def type : Ty := .int { IntType.uint8 with signed := true }

theorem standsFor : type.StandsFor .plain type := .elementary trivial

/-- Ten in hexadecimal, with blanks around. -/
theorem spells_ten : type.Spells " 0x0A\n" (.int 10) := by
  have hs : Text.Surrounds " 0x0A\n" (['0', 'x'] ++ ['0', 'A']) :=
    ⟨[' '], ['\n'], List.forall_mem_singleton.2 rfl, List.forall_mem_singleton.2 rfl, rfl⟩
  have hdigits : Text.AreDigits 16 hexValue? ['0', 'A'] 10 := ⟨[0, 10], by decide, rfl⟩
  exact .elementary (.int (by decide) (.numeral (.hexadecimal (.inl rfl) hs (by decide) hdigits)))

theorem spells_minusFive : type.Spells "-5" (.int (-5)) :=
  .elementary (.int (by decide) (.decimal (Text.surrounds_self _)))

end Small

/-- Ten is encoded from its text as from itself, and the text of minus five is refused. -/
theorem encode_of_spells_small :
    (∃ word, (encode .plain Small.type (.int 10)).result = .ok word ∧
      (encode .plain Small.type (.text " 0x0A\n")).result = .ok word) ∧
    (encode .plain Small.type (.text "-5")).result = .error (.input (.badKey (.text "-5")
      (.notConvertible Small.type (.notANumeral (Text.decimal (-5)))))) := by
  have hten := (encode_of_spells Small.standsFor).2 _ _ Small.spells_ten
  have hminusFive := (encode_of_spells Small.standsFor).2 _ _ Small.spells_minusFive
  refine ⟨hten.1 ?_, (hminusFive.2 (-5) (by decide) rfl).2⟩
  rintro n hn ⟨⟩
  exact absurd hn (by decide)

/-- A text of minus five is not encoded as minus five is. -/
theorem text_of_minusFive_refused :
    Small.type.Spells "-5" (.int (-5)) ∧
      (encode .plain Small.type (.int (-5))).result = .ok (List.replicate 31 0xff ++ [0xfb]) ∧
      (encode .plain Small.type (.text "-5")).result = .error
        (.input (.badKey (.text "-5") (.notConvertible Small.type (.notANumeral "-5")))) :=
  ⟨Small.spells_minusFive, rfl, rfl⟩

end Key

end StorageSnapshot

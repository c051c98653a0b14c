-- SUMMARY: A decoded value as a mapping key: the word that it is encoded as, and the way back.
import StorageSnapshot.Key
import StorageSnapshot.Proofs.HexText
import StorageSnapshot.Proofs.Moves
import StorageSnapshot.Proofs.Utf8
import StorageSnapshot.Proofs.ValueTypes

/-!
# Values as keys

A value is read from a span of a word, and a key of its type fills a word. The word of the key is
the span with the sign in front of it, or with zeros in front of it or behind it. So keys of one
type are told apart as the values are, and a word that holds a key of numbers or addresses holds its
value.
-/

namespace StorageSnapshot

variable {r : Resolver} {t u : Ty} {ints : IntType} {raw : Bytes} {v : Value}

/-! ## Signs -/

namespace Bytes

theorem count_add (m n : Nat) : count (m + n) = count m * count n := Nat.pow_add 256 m n

/-- Whether bytes stand for a negative number in two's complement. -/
def isNegative : Bytes → Bool
  | [] => false
  | x :: _ => 128 ≤ x.toNat

/-- Bytes in two's complement with their sign in front of them, up to `size` bytes. -/
def signExtend (size : Nat) (b : Bytes) : Bytes :=
  List.replicate (size - b.length) (if b.isNegative then 0xff else 0) ++ b

theorem length_signExtend {size : Nat} {b : Bytes} (h : b.length ≤ size) :
    (signExtend size b).length = size := by
  rw [signExtend, List.length_append, List.length_replicate]
  omega

theorem signExtend_of_nonneg {b : Bytes} (h : b.isNegative = false) (size : Nat) :
    signExtend size b = padLeft size b := by
  rw [signExtend, h]
  rfl

/-- The greatest number of a size, next to the count of all of them. -/
theorem toNat_replicate_ones (size : Nat) :
    toNat (List.replicate size 0xff) + 1 = count size := by
  induction size with
  | zero => rfl
  | succ size ih =>
    have hones : (0xff : UInt8).toNat = 255 := rfl
    rw [List.replicate_succ, toNat_cons, List.length_replicate, count_succ, ← ih, hones]
    omega

/-- The first byte tells the halves of the numbers of a size apart. -/
theorem isNegative_iff {b : Bytes} (h : b ≠ []) :
    b.isNegative = true ↔ count b.length / 2 ≤ toNat b := by
  obtain ⟨x, b, rfl⟩ := List.exists_cons_of_ne_nil h
  have hlt := toNat_lt b
  have hhalf : count (x :: b).length / 2 = 128 * count b.length := by
    rw [List.length_cons, count_succ]
    omega
  rw [isNegative, decide_eq_true_eq, hhalf, toNat_cons]
  constructor
  · intro hx
    exact Nat.le_add_right_of_le (Nat.mul_le_mul_right _ hx)
  · intro hle
    by_contra hx
    have hmul : x.toNat * count b.length ≤ 127 * count b.length :=
      Nat.mul_le_mul_right _ (by omega)
    omega

end Bytes

namespace Key

/-- The word of an integer is its bytes with the sign in front. -/
theorem wordOfInt_integerOfBytes (h : raw.length = ints.size) :
    wordOfInt (Decode.integerOfBytes ints raw) =
      if ints.signed then raw.signExtend wordSize else raw.padLeft wordSize := by
  have hsize : raw.length ≤ wordSize := h ▸ ints.size_le
  have hcount : Bytes.count wordSize =
      Bytes.count (wordSize - raw.length) * Bytes.count raw.length := by
    rw [← Bytes.count_add, Nat.sub_add_cancel hsize]
  have hlt := Bytes.toNat_lt raw
  have hle : Bytes.count raw.length ≤ Bytes.count wordSize := by
    rw [hcount]
    exact Nat.le_mul_of_pos_left _ (Bytes.count_pos _)
  have hints : ints.count = Bytes.count raw.length := by rw [IntType.count, h]
  have hne : raw ≠ [] := by
    rintro rfl
    exact absurd ints.size_pos (by simp [← h])
  have hnonneg : wordOfInt raw.toNat = raw.padLeft wordSize := by
    apply Bytes.toNat_inj
    · rw [wordOfInt, Bytes.length_ofNat, Bytes.length_padLeft hsize]
    · rw [wordOfInt, Int.emod_eq_of_lt (by omega) (by omega), Int.toNat_natCast,
        Bytes.toNat_ofNat_of_lt (by omega), Bytes.toNat_padLeft]
  rw [Decode.integerOfBytes_eq h, hints]
  cases hsigned : ints.signed with
  | false => simpa using hnonneg
  | true =>
    by_cases hnegative : raw.isNegative = true
    · have hhalf := (Bytes.isNegative_iff hne).1 hnegative
      -- The ones in front make up for the count that is taken away.
      have hones := Bytes.toNat_replicate_ones (wordSize - raw.length)
      rw [if_pos ⟨rfl, hhalf⟩, if_pos rfl]
      apply Bytes.toNat_inj
      · rw [wordOfInt, Bytes.length_ofNat, Bytes.length_signExtend hsize]
      · have hmod : ((raw.toNat : Int) - Bytes.count raw.length) % Bytes.count wordSize =
            (raw.toNat : Int) - Bytes.count raw.length + Bytes.count wordSize := by
          rw [← Int.add_emod_right, Int.emod_eq_of_lt (by omega) (by omega)]
        rw [← hones, Nat.add_mul, Nat.one_mul] at hcount
        rw [wordOfInt, hmod, Bytes.toNat_ofNat_of_lt (by omega), Bytes.signExtend, if_pos hnegative,
          Bytes.toNat_append]
        omega
    · have hhalf := mt (Bytes.isNegative_iff hne).2 hnegative
      rw [if_neg (by simp [hhalf]), if_pos rfl,
        Bytes.signExtend_of_nonneg (Bool.eq_false_iff.2 hnegative)]
      exact hnonneg

/-! ## Conversions -/

theorem sizedBytes_bytes {size : Nat} (h : raw.length = size) (defect : KeyDefect) :
    sizedBytes (.bytes raw) size defect = .ok raw := by
  have hsized : (Datum.bytes raw).sizedBytes size = .ok (some raw) := by
    simp only [Datum.sizedBytes, Datum.hexOrBytes, Datum.toBytes, ok_bind, if_pos h]
    rfl
  rw [sizedBytes, hsized]
  rfl

theorem sizedBytes_text {s : String} {size : Nat} (hs : Text.IsHexOf s raw)
    (h : raw.length = size) (defect : KeyDefect) :
    sizedBytes (.text s) size defect = .ok raw := by
  have hsized : (Datum.text s).sizedBytes size = .ok (some raw) := by
    simp only [Datum.sizedBytes, Datum.hexOrBytes, Bytes.ofHex_of_isHexOf hs, ok_bind, if_pos h]
    rfl
  rw [sizedBytes, hsized]
  rfl

/-- The text of an address is encoded as its bytes. -/
theorem encodeAddress_text {s : String} {a : Address} (hs : Text.IsHexOf s a.bytes) :
    encodeAddress (.text s) = .ok (a.bytes.padLeft wordSize) := by
  have hlength : a.bytes.length = addressSize := a.length_bytes
  rw [encodeAddress, sizedBytes_text hs hlength]
  rfl

/-- The integers of a type fill no more than a word. -/
theorem isWritable_of_fits {n : Int} (h : ints.fits n = true) : Text.isWritable n = true := by
  have hcount : ints.count ≤ 2 ^ 256 :=
    calc ints.count ≤ 256 ^ 32 := Nat.pow_le_pow_right (by decide) ints.size_le
      _ = 2 ^ 256 := by decide +kernel
  obtain ⟨hmin, hmax⟩ := (ints.fits_iff n).1 h
  have hpos : 0 < ints.count := Bytes.count_pos _
  refine Text.isWritable_of_lt_word (Nat.lt_of_lt_of_le ?_ hcount)
  rw [IntType.minValue] at hmin
  rw [IntType.maxValue] at hmax
  split at hmin <;> split at hmax <;> omega

/-- What stands for an integer of the right size is encoded as it, if it is below the bound. -/
theorem encodeInt_of_truncated {key : Datum} {n : Int} (hkey : key.truncated = .ok n) (type : Ty)
    (hfits : ints.fits n = true) (bound : Option Nat) :
    encodeInt key type ints bound =
      if ∀ b ∈ bound, n < b then .ok (wordOfInt n)
      else .error (.ofInput (.badKey key (.doesNotFit type))) := by
  cases bound <;> simp [encodeInt, hkey, Fault.lift, hfits] <;> rfl

end Key

/-! ## Value types -/

/-- Whether a value type is, behind its aliases, another one that is no alias. All of them have
names that can be written. -/
inductive Ty.StandsFor (r : Resolver) : Ty → Ty → Prop
  | elementary {e : Elementary} (h : e.shape.IsSized) : StandsFor r (.elementary e) (.elementary e)
  | contract {name reference : Datum} (hname : name.isWritable = true) :
      StandsFor r (.contract name reference) (.contract name reference)
  | enum {d : Declaration} {typeString : Datum} {members : List Datum} (hd : d.IsWritable) :
      StandsFor r (.enum d typeString members) (.enum d typeString members)
  | aliasOf {d : Declaration} {underlying u : Ty} (hd : d.IsWritable)
      (h : StandsFor r underlying u) : StandsFor r (.aliasOf d underlying) u
  | aliasNode {d : Declaration} {node : Datum} {e : Elementary} (hd : d.IsWritable)
      (h : (r.elementaryOfAlias d node).result = .ok e) :
      StandsFor r (.aliasNode d node) (.elementary e)

/-- What bytes stand for at a type that is no alias, if they are as many as its values take. -/
inductive Ty.Reads (raw : Bytes) : Ty → Value → Prop
  | elementary {e : Elementary} {v : Value}
      (hsize : Resolver.sizeOfShape? e.shape = some raw.length) (h : Decode.Reads raw e.shape v) :
      Reads raw (.elementary e) v
  | contract {name reference : Datum} {a : Address} (h : a.bytes = raw) :
      Reads raw (.contract name reference) (.address a)
  | enum {d : Declaration} {typeString : Datum} {members : List Datum}
      (hsize : raw.length = (Ty.ordinals members).size) :
      Reads raw (.enum d typeString members)
        (.enum (Decode.integerOfBytes (Ty.ordinals members) raw)
          (Ty.memberAt? members (Decode.integerOfBytes (Ty.ordinals members) raw).toNat))

/-- The word that a key is encoded as whose value the bytes are. -/
def Shape.keyWord : Shape → Bytes → Bytes
  | .int t, raw => if t.signed then raw.signExtend wordSize else raw.padLeft wordSize
  | .bool, raw => Bytes.ofNat wordSize (if raw = [0] then 0 else 1)
  | .fixedBytes _, raw => raw.padRight wordSize
  | .address, raw => raw.padLeft wordSize
  | .bare, _ => []

def Ty.keyWord : Ty → Bytes → Bytes
  | .elementary e, raw => e.shape.keyWord raw
  | .contract .., raw | .enum .., raw => raw.padLeft wordSize
  | _, _ => []

/-- Whether a type has a value: an enum has no more ordinals than members. -/
def Ty.Admits : Ty → Value → Prop
  | .enum _ _ members, .enum n _ => n < members.length
  | _, _ => True

namespace Key

/-! ## Encoding -/

/-- Truth values are numbers of one byte, of which only zero is false. -/
theorem integerOfBytes_uint8_ne_zero (x : UInt8) :
    (Decode.integerOfBytes .uint8 [x] != 0) = decide ([x] ≠ [(0 : UInt8)]) := by
  have hnumber : Decode.integerOfBytes .uint8 [x] = x.toNat := by
    have htoNat : Bytes.toNat [x] = x.toNat := by simp [Bytes.toNat]
    rw [Decode.integerOfBytes, htoNat]
    rfl
  rw [hnumber]
  by_cases hx : x = 0
  · subst hx
    rfl
  · have hne : x.toNat ≠ 0 := fun h => hx (UInt8.toNat_inj.1 h)
    simp [hx, hne]

theorem encodeElementary_of_reads {e : Elementary}
    (hsize : Resolver.sizeOfShape? e.shape = some raw.length) (h : Decode.Reads raw e.shape v) :
    encodeElementary e v.plain = .ok (e.shape.keyWord raw) := by
  unfold encodeElementary
  generalize e.shape = shape at hsize h
  cases h with
  | int ints =>
    have hlength : raw.length = ints.size := (Option.some.inj hsize).symm
    rw [Value.plain]
    dsimp only
    rw [encodeInt_of_truncated rfl _ (Decode.fits_integerOfBytes hlength), if_pos (by simp),
      wordOfInt_integerOfBytes hlength]
    rfl
  | bool =>
    obtain ⟨x, rfl⟩ := List.length_eq_one_iff.1 (Option.some.inj hsize).symm
    rw [integerOfBytes_uint8_ne_zero, Value.plain, Shape.keyWord]
    by_cases hx : [x] = [(0 : UInt8)]
    · rw [if_pos hx, decide_eq_false (not_not_intro hx)]
      rfl
    · rw [if_neg hx, decide_eq_true hx]
      rfl
  | fixedBytes size =>
    rw [Value.plain]
    dsimp only
    rw [sizedBytes_bytes (Option.some.inj hsize).symm]
    rfl
  | address a ha =>
    subst ha
    exact encodeAddress_text a.isHexOf_text

/-- A value of a type that is no alias is encoded as the word of its bytes, or refused. -/
theorem encodeRaw_of_reads (r : Resolver) (h : u.Reads raw v) :
    (u.Admits v → (encodeRaw r v.plain u).result = .ok (u.keyWord raw)) ∧
      (¬u.Admits v → (encodeRaw r v.plain u).result =
        .error (.ofInput (.badKey v.plain (.doesNotFit u)))) := by
  cases h with
  | elementary hsize hv =>
    exact ⟨fun _ => encodeElementary_of_reads hsize hv, fun h => (h trivial).elim⟩
  | @contract name reference a ha =>
    subst ha
    have hencode := encodeAddress_text a.isHexOf_text
    refine ⟨fun _ => ?_, fun h => (h trivial).elim⟩
    rw [encodeRaw, Value.plain, hencode]
    rfl
  | @enum d typeString members hsize =>
    have hordinal : (Datum.int (Decode.integerOfBytes (Ty.ordinals members) raw)).truncated =
        .ok (Decode.integerOfBytes (Ty.ordinals members) raw) := rfl
    have hencode := encodeInt_of_truncated hordinal (.enum d typeString members)
      (Decode.fits_integerOfBytes hsize) (some members.length)
    constructor
    · intro hadmits
      rw [if_pos (by simpa [Ty.Admits] using hadmits), wordOfInt_integerOfBytes hsize] at hencode
      rw [encodeRaw, Value.plain, hencode]
      rfl
    · intro hadmits
      rw [if_neg (by simpa [Ty.Admits] using hadmits)] at hencode
      rw [encodeRaw, Value.plain, hencode]
      rfl

end Key

namespace Ty.StandsFor

/-! ## Aliases -/

theorem isPointer (h : t.StandsFor r u) : t.isPointer = false := by
  cases h <;> rfl

theorem checkName (h : t.StandsFor r u) : t.checkName = .ok () := by
  cases h with
  | elementary => rfl
  | contract hname => exact Datum.checkText_eq_ok.2 hname
  | enum hd | aliasOf hd | aliasNode hd => exact hd.checkCalled

theorem checkName_right (h : t.StandsFor r u) : u.checkName = .ok () := by
  induction h with
  | elementary | aliasNode => rfl
  | contract hname => exact Datum.checkText_eq_ok.2 hname
  | enum hd => exact hd.checkCalled
  | aliasOf _ _ ih => exact ih

/-- Aliases are encoded as what they stand for, and only faults name them. -/
theorem result_encode (h : t.StandsFor r u) (key : Datum) :
    (Key.encode r t key).result = (Key.encodeRaw r key u).result.mapError (Key.refusal t key) := by
  have hraw : (Key.encodeRaw r key t).result = (Key.encodeRaw r key u).result := by
    induction h with
    | elementary | contract | enum => rfl
    | aliasOf _ _ ih => exact ih
    | aliasNode _ h =>
      rw [Key.encodeRaw, Traced.result_bind, h]
      rfl
  exact congrArg (Except.mapError (Key.refusal t key)) hraw

/-- Bytes of the size of a value type are read as one of its values. -/
theorem exists_reads (h : t.StandsFor r u) :
    ∃ size, (r.sizeOf t).result = .ok size ∧ 0 < size ∧ size ≤ wordSize ∧
      ∀ raw : Bytes, raw.length = size → ∃ v, u.Reads raw v := by
  have helementary : ∀ e : Elementary, e.shape.IsSized →
      ∃ size, (Resolver.sizeOfElementary e).result = .ok size ∧ 0 < size ∧ size ≤ wordSize ∧
        ∀ raw : Bytes, raw.length = size → ∃ v, (Ty.elementary e).Reads raw v := by
    intro e he
    obtain ⟨size, hsize, hpos, hle⟩ := he.size
    refine ⟨size, Resolver.result_sizeOfElementary hsize, hpos, hle, fun raw hraw => ?_⟩
    obtain ⟨v, hv⟩ := Decode.exists_reads hsize hraw
    exact ⟨v, .elementary (hraw ▸ hsize) hv⟩
  induction h with
  | elementary he => exact helementary _ he
  | contract => exact ⟨addressSize, rfl, by decide, by decide, fun raw hraw =>
      ⟨.address ⟨raw, hraw⟩, .contract rfl⟩⟩
  | @enum d typeString members =>
    exact ⟨_, rfl, (Ty.ordinals members).size_pos, (Ty.ordinals members).size_le,
      fun raw hraw => ⟨_, .enum hraw⟩⟩
  | aliasOf _ _ ih => exact ih
  | aliasNode _ h =>
    obtain ⟨size, hsize, hrest⟩ := helementary _ (Resolver.isSized_of_elementaryOfAlias h)
    refine ⟨size, ?_, hrest⟩
    rw [Resolver.sizeOf, Traced.result_bind, h, ok_bind, hsize]

/-- A value is decoded from its bytes, wherever they are in front of a cursor. -/
theorem value_ok (h : t.StandsFor r u) (hv : u.Reads raw v) {store : Store} {limits : Limits}
    {depth : Int} {c next : Cursor} (hdepth : depth ≤ limits.maxDepth)
    (hpacks : store.Packs c raw next) :
    (Decode.value ⟨store, r, limits⟩ depth t c).result = .ok (v, next) := by
  rw [Decode.value_eq_atType hdepth]
  generalize Decode.value ⟨store, r, limits⟩ (depth + 1) = nested
  induction h with
  | elementary =>
    cases hv with
    | elementary hsize hv =>
      rw [Decode.atType, Decode.result_entering rfl, Decode.result_stepExcept,
        Decode.elementary_ok hpacks hsize hv]
      rfl
  | contract hname =>
    cases hv with
    | contract ha =>
      subst ha
      rw [Decode.atType, Decode.result_entering (contract (r := r) hname).checkName,
        Decode.result_stepExcept, Decode.address_ok _ hpacks]
      rfl
  | enum hd =>
    cases hv with
    | enum hsize =>
      rw [Decode.atType, Decode.result_entering (enum (r := r) hd).checkName,
        Decode.result_stepExcept, Decode.enum_ok hpacks hsize]
      rfl
  | aliasOf hd h ih =>
    rw [Decode.atType, Decode.result_entering (aliasOf hd h).checkName, ih hv]
    rfl
  | aliasNode hd h =>
    cases hv with
    | elementary hsize hv =>
      rw [Decode.atType, Decode.result_entering (aliasNode hd h).checkName, Traced.result_bind,
        Decode.result_step, h, mapError_ok, ok_bind, Decode.result_entering rfl,
        Decode.result_stepExcept, Decode.elementary_ok hpacks hsize hv]
      rfl

end Ty.StandsFor

/-! ## Places of keys -/

namespace Store

/-- A span of a word can be read. -/
theorem WordsFit.packs_span {s : Store} (hs : s.WordsFit) {c : Cursor} {size : Nat}
    (hpos : 0 < size) (hfree : size ≤ c.free) :
    ∃ w next, s.word c.slot.toNat = .ok w ∧ (c.span size w).length = size ∧
      s.Packs c (c.span size w) next := by
  obtain ⟨w, hw⟩ := hs.wordAt_ok c.slot.toNat
  have hlength : (c.span size w).length = size := Cursor.length_span hfree (length_wordAt hw)
  have hpacks : ∃ next, s.Packs c (c.span size w) next :=
    packs_of_word (by omega) (by omega) hw (by rw [hlength]; rfl)
  obtain ⟨next, hnext⟩ := hpacks
  exact ⟨w, next, by rwa [← wordAt_toNat], hlength, hnext⟩

/-- The bytes at the end of a fresh word can be read. -/
theorem packs_end {s : Store} {slot : Slot} {front : Bytes}
    (hw : s.word slot.toNat = .ok (front ++ raw)) (hpos : 0 < raw.length) :
    ∃ next, s.Packs (.fresh slot) raw next := by
  have hlength : front.length + raw.length = 32 := by
    rw [← List.length_append]
    exact length_word hw
  have hfree : (Cursor.fresh slot).free = 32 := rfl
  refine packs_of_word hpos (by omega) ((wordAt_toNat s slot).trans hw) ?_
  have hfront : (Cursor.fresh slot).free - raw.length = front.length := by omega
  rw [hfront, List.drop_left, List.take_length]

end Store

/-! ## Words and values -/

variable {raw' : Bytes} {v' : Value}

/-- Bytes stand for one value of a shape. -/
theorem Decode.Reads.unique {s : Shape} (h : Decode.Reads raw s v) (h' : Decode.Reads raw s v') :
    v = v' := by
  cases h with
  | int | bool | fixedBytes =>
    cases h'
    rfl
  | address a ha =>
    obtain _ | _ | _ | ⟨a', ha'⟩ := h'
    cases a
    cases a'
    subst ha
    subst ha'
    rfl

namespace Ty

/-- Whether a type is one of byte strings of a fixed size. -/
def IsFixedBytes : Ty → Prop
  | .elementary e => ∃ size, e.shape = .fixedBytes size
  | _ => False

namespace Reads

theorem unique (h : u.Reads raw v) (h' : u.Reads raw v') : v = v' := by
  cases h with
  | elementary hsize hv =>
    obtain ⟨hsize', hv'⟩ := h'
    exact hv.unique hv'
  | contract ha =>
    obtain _ | ha' := h'
    exact (Decode.Reads.address _ ha).unique (.address _ ha')
  | enum hsize =>
    cases h'
    rfl

/-- The values of value types can be written. -/
theorem isWritable_plain (h : u.Reads raw v) : v.plain.isWritable = true := by
  cases h with
  | contract => rfl
  | enum hsize => exact Key.isWritable_of_fits (Decode.fits_integerOfBytes hsize)
  | @elementary e v hsize hv =>
    generalize e.shape = shape at hsize hv
    cases hv with
    | int ints =>
      have hlength : raw.length = ints.size := (Option.some.inj hsize).symm
      exact Key.isWritable_of_fits (Decode.fits_integerOfBytes hlength)
    | _ => rfl

/-- The values of a type take as many bytes as each other. -/
theorem length_eq (h : u.Reads raw v) (h' : u.Reads raw' v') : raw.length = raw'.length := by
  cases h with
  | elementary hsize hv =>
    obtain ⟨hsize', hv'⟩ := h'
    exact Option.some.inj (hsize.symm.trans hsize')
  | @contract _ _ a ha =>
    obtain _ | @⟨_, _, a', ha'⟩ := h'
    rw [← ha, ← ha', a.length_bytes, a'.length_bytes]
  | enum hsize =>
    obtain _ | _ | hsize' := h'
    rw [hsize, hsize']

/-- The word of a key ends with bytes of its value, unless these stand in front. -/
theorem keyWord_eq_append (h : u.Reads raw v) (hu : ¬u.IsFixedBytes) :
    ∃ front raw', u.keyWord raw = front ++ raw' ∧ u.Reads raw' v := by
  cases h with
  | contract ha => exact ⟨Bytes.zeros (wordSize - raw.length), raw, rfl, .contract ha⟩
  | enum hsize => exact ⟨Bytes.zeros (wordSize - raw.length), raw, rfl, .enum hsize⟩
  | @elementary e v hsize hv =>
    suffices hshape : ∃ front raw', e.shape.keyWord raw = front ++ raw' ∧
        Resolver.sizeOfShape? e.shape = some raw'.length ∧ Decode.Reads raw' e.shape v by
      obtain ⟨front, raw', hword, hsize', hv'⟩ := hshape
      exact ⟨front, raw', hword, .elementary hsize' hv'⟩
    have hfixed : ∀ size, e.shape ≠ .fixedBytes size := fun size hsize => hu ⟨size, hsize⟩
    generalize e.shape = shape at hsize hv hfixed
    cases hv with
    | int ints =>
      rw [Shape.keyWord]
      split
      · exact ⟨_, raw, rfl, hsize, .int ints⟩
      · exact ⟨_, raw, rfl, hsize, .int ints⟩
    | bool =>
      obtain ⟨x, rfl⟩ := List.length_eq_one_iff.1 (Option.some.inj hsize).symm
      by_cases hx : [x] = [(0 : UInt8)]
      · refine ⟨Bytes.zeros 31, [0], ?_, rfl, ?_⟩
        · rw [Shape.keyWord, if_pos hx]
          decide
        · rw [hx]
          exact .bool
      · -- Every byte but zero is true, and the key is the word of one.
        have hone : (Decode.integerOfBytes .uint8 [x] != 0) =
            (Decode.integerOfBytes .uint8 [1] != 0) := by
          rw [Key.integerOfBytes_uint8_ne_zero, decide_eq_true hx]
          rfl
        refine ⟨Bytes.zeros 31, [1], ?_, rfl, ?_⟩
        · rw [Shape.keyWord, if_neg hx]
          decide
        · rw [hone]
          exact .bool
    | fixedBytes size => exact absurd rfl (hfixed size)
    | address a ha => exact ⟨_, raw, rfl, hsize, .address a ha⟩

/-- Keys fill words. -/
theorem length_keyWord (h : u.Reads raw v) (hle : raw.length ≤ wordSize) :
    (u.keyWord raw).length = wordSize := by
  cases h with
  | contract | enum => exact Bytes.length_padLeft hle
  | @elementary e v hsize hv =>
    rw [keyWord]
    generalize e.shape = shape at hsize hv
    cases hv with
    | int ints =>
      rw [Shape.keyWord]
      split
      · exact Bytes.length_signExtend hle
      · exact Bytes.length_padLeft hle
    | bool => exact Bytes.length_ofNat _ _
    | fixedBytes => exact Bytes.length_padRight hle
    | address => exact Bytes.length_padLeft hle

/-- The word of a key tells its value. -/
theorem eq_of_keyWord_eq (h : u.Reads raw v) (h' : u.Reads raw' v')
    (hword : u.keyWord raw = u.keyWord raw') : v = v' := by
  by_cases hu : u.IsFixedBytes
  · cases h with
    | contract | enum => exact hu.elim
    | elementary hsize hv =>
      obtain ⟨size, hshape⟩ := hu
      obtain ⟨hsize', hv'⟩ := h'
      have hlength : raw.length = raw'.length := Option.some.inj (hsize.symm.trans hsize')
      rw [keyWord, keyWord, hshape] at hword
      obtain ⟨rfl, -⟩ := List.append_inj hword hlength
      exact hv.unique hv'
  · obtain ⟨front, last, hlast, hv⟩ := h.keyWord_eq_append hu
    obtain ⟨front', last', hlast', hv'⟩ := h'.keyWord_eq_append hu
    rw [hlast, hlast'] at hword
    obtain ⟨-, rfl⟩ := List.append_inj' hword (hv.length_eq hv')
    exact hv.unique hv'

end Reads

namespace StandsFor

/-- Where a value type fits, a store whose words fit has a value of it. -/
theorem exists_value (h : t.StandsFor r u) {store : Store} (hs : store.WordsFit) {c : Cursor}
    (hfits : (r.fits t c).result = .ok true) :
    ∃ w size v next, store.word c.slot.toNat = .ok w ∧ (r.sizeOf t).result = .ok size ∧
      u.Reads (c.span size w) v ∧
      ∀ (limits : Limits) (depth : Int), depth ≤ limits.maxDepth →
        (Decode.value ⟨store, r, limits⟩ depth t c).result = .ok (v, next) := by
  obtain ⟨size, hsize, hpos, hle, hreads⟩ := h.exists_reads
  have hfree : size ≤ c.free := by
    rw [Resolver.fits, if_neg (by simp [h.isPointer]), Traced.result_bind, hsize, ok_bind,
      if_neg (Nat.not_lt.2 hle), Traced.result_pure, Except.ok.injEq, decide_eq_true_eq] at hfits
    exact hfits
  obtain ⟨w, next, hw, hlength, hpacks⟩ := hs.packs_span hpos hfree
  obtain ⟨v, hv⟩ := hreads _ hlength
  exact ⟨w, size, v, next, hw, hsize, hv, fun limits depth hdepth =>
    h.value_ok hv hdepth hpacks⟩

/-- A value is encoded as the word of its bytes, or refused if its type does not admit it. -/
theorem encode_of_reads (h : t.StandsFor r u) (hv : u.Reads raw v) :
    (u.Admits v → (Key.encode r t v.plain).result = .ok (u.keyWord raw)) ∧
      (¬u.Admits v → (Key.encode r t v.plain).result =
        .error (.input (.badKey v.plain (.doesNotFit u)))) := by
  obtain ⟨hadmitted, hrefused⟩ := Key.encodeRaw_of_reads r hv
  rw [h.result_encode]
  constructor
  · intro hadmits
    rw [hadmitted hadmits]
    rfl
  · intro hadmits
    have hcheck : (InputError.badKey v.plain (.doesNotFit u)).check = .ok () := by
      rw [InputError.check, KeyDefect.check, Datum.checkText_eq_ok.2 hv.isWritable_plain, ok_bind,
        h.checkName_right]
    rw [hrefused hadmits, Fault.ofInput_of_check hcheck]
    rfl

/-- A value takes at least a byte and at most a word. -/
theorem length_of_reads (h : t.StandsFor r u) (hv : u.Reads raw v) :
    0 < raw.length ∧ raw.length ≤ wordSize := by
  obtain ⟨size, -, hpos, hle, hreads⟩ := h.exists_reads
  obtain ⟨v', hv'⟩ := hreads (Bytes.zeros size) List.length_replicate
  have hlength : raw.length = size := (hv.length_eq hv').trans List.length_replicate
  omega

theorem eq_keyWord_of_encode (h : t.StandsFor r u) (hv : u.Reads raw v) {word : Bytes}
    (hword : (Key.encode r t v.plain).result = .ok word) : word = u.keyWord raw := by
  obtain ⟨hadmitted, hrefused⟩ := h.encode_of_reads hv
  by_cases hadmits : u.Admits v
  · rw [hadmitted hadmits, Except.ok.injEq] at hword
    exact hword.symm
  · rw [hrefused hadmits] at hword
    cases hword

end StandsFor

end Ty

namespace Decode

/-- Whether a value is decoded at a type, from a store and at a place where the type fits. -/
def IsValueOf (r : Resolver) (t : Ty) (v : Value) : Prop :=
  ∃ (store : Store) (limits : Limits) (depth : Int) (c next : Cursor), store.WordsFit ∧
    (r.fits t c).result = .ok true ∧ (value ⟨store, r, limits⟩ depth t c).result = .ok (v, next)

/-- What is decoded is not too deep. -/
theorem depth_le_of_value {ctx : Context} {depth : Int} {c : Cursor} {a : Decoded Value}
    (h : (value ctx depth t c).result = .ok a) : depth ≤ ctx.limits.maxDepth := by
  by_contra hdeep
  rw [value_eq_tooDeep (Int.not_le.1 hdeep)] at h
  exact result_tooDeep_ne_ok t c _ h

/-- Every value of a type is read from some bytes. -/
theorem IsValueOf.exists_reads (ht : t.StandsFor r u) (h : IsValueOf r t v) :
    ∃ raw, u.Reads raw v := by
  obtain ⟨store, limits, depth, c, next, hs, hfits, hv⟩ := h
  obtain ⟨w, size, v', next', -, -, hreads, hvalue⟩ := ht.exists_value hs hfits
  rw [hvalue limits depth (depth_le_of_value hv), Except.ok.injEq, Prod.mk.injEq] at hv
  exact ⟨_, hv.1 ▸ hreads⟩

/-! ## Byte strings and texts -/

/-- A byte string is decoded with its bytes, which are its key. -/
theorem key_of_bytes {ctx : Context} {depth : Int} {c next : Cursor}
    (h : (value ctx depth .bytes c).result = .ok (v, next)) :
    ∃ raw, (byteString ctx .bytes c).result = .ok (raw, next) ∧
      (Key.encode r .bytes v.plain).result = .ok raw := by
  rw [value_eq_atType (depth_le_of_value h)] at h
  replace h := result_entering_eq_ok h
  rw [Traced.result_bind] at h
  obtain ⟨⟨raw, next'⟩, hraw, hv⟩ := bind_eq_ok.1 h
  cases hv
  refine ⟨raw, hraw, ?_⟩
  rw [Key.encode, Key.encodeRaw]
  rfl

/-- A text is decoded from bytes, which are its key if they are the bytes of a text. -/
theorem key_of_string {ctx : Context} {depth : Int} {c next : Cursor}
    (h : (value ctx depth .string c).result = .ok (v, next)) :
    ∃ raw, (byteString ctx .string c).result = .ok (raw, next) ∧
      ∀ text, raw = Text.utf8 text → (Key.encode r .string v.plain).result = .ok raw := by
  rw [value_eq_atType (depth_le_of_value h)] at h
  replace h := result_entering_eq_ok h
  rw [Traced.result_bind] at h
  obtain ⟨⟨raw, next'⟩, hraw, hv⟩ := bind_eq_ok.1 h
  cases hv
  refine ⟨raw, hraw, ?_⟩
  rintro text rfl
  rw [Text.decodeUtf8_utf8, Value.plain]
  have hbytes : (Datum.text (Text.spelled text)).textOrBytes = .ok (Text.utf8 text) := by
    rw [Datum.textOrBytes, Text.encodeUtf8_spelled]
    rfl
  rw [Key.encode, Key.encodeRaw, hbytes]
  rfl

/--
What is decoded at a value type is encoded as a key of that type: as the word of the bytes that it
was read from, where an ordinal without a member is refused. Different values have different words,
and a fresh word that holds the word of a key has its value, apart from byte strings of a fixed
size, which stand at the other end. A byte string, or a text of valid UTF-8, is encoded as its
bytes.
-/
theorem key_of_value (ht : t.StandsFor r u) :
    (∀ (store : Store) (c : Cursor), store.WordsFit → (r.fits t c).result = .ok true →
      ∃ w size v next, store.word c.slot.toNat = .ok w ∧ (r.sizeOf t).result = .ok size ∧
        (∀ (limits : Limits) (depth : Int), depth ≤ limits.maxDepth →
          (value ⟨store, r, limits⟩ depth t c).result = .ok (v, next)) ∧
        (u.keyWord (c.span size w)).length = wordSize ∧
        (u.Admits v → (Key.encode r t v.plain).result = .ok (u.keyWord (c.span size w))) ∧
        (¬u.Admits v → (Key.encode r t v.plain).result =
          .error (.input (.badKey v.plain (.doesNotFit u))))) ∧
    (∀ v v' word, IsValueOf r t v → IsValueOf r t v' →
      (Key.encode r t v.plain).result = .ok word → (Key.encode r t v'.plain).result = .ok word →
        v = v') ∧
    (¬u.IsFixedBytes → ∀ v word, IsValueOf r t v → (Key.encode r t v.plain).result = .ok word →
      ∀ (store : Store) (limits : Limits) (depth : Int) (slot : Slot),
        store.word slot.toNat = .ok word → depth ≤ limits.maxDepth →
          ∃ next, (value ⟨store, r, limits⟩ depth t (.fresh slot)).result = .ok (v, next)) ∧
    (∀ (ctx : Context) (depth : Int) (c next : Cursor) (v : Value),
      (value ctx depth .bytes c).result = .ok (v, next) →
        ∃ raw, (byteString ctx .bytes c).result = .ok (raw, next) ∧
          (Key.encode r .bytes v.plain).result = .ok raw) ∧
    ∀ (ctx : Context) (depth : Int) (c next : Cursor) (v : Value),
      (value ctx depth .string c).result = .ok (v, next) →
        ∃ raw, (byteString ctx .string c).result = .ok (raw, next) ∧
          ∀ text, raw = Text.utf8 text → (Key.encode r .string v.plain).result = .ok raw := by
  refine ⟨?_, ?_, ?_, fun _ _ _ _ _ => key_of_bytes, fun _ _ _ _ _ => key_of_string⟩
  · intro store c hs hfits
    obtain ⟨w, size, v, next, hw, hsize, hreads, hvalue⟩ := ht.exists_value hs hfits
    obtain ⟨hadmitted, hrefused⟩ := ht.encode_of_reads hreads
    have hword := hreads.length_keyWord (ht.length_of_reads hreads).2
    exact ⟨w, size, v, next, hw, hsize, hvalue, hword, hadmitted, hrefused⟩
  · intro v v' word hv hv' hword hword'
    obtain ⟨raw, hreads⟩ := hv.exists_reads ht
    obtain ⟨raw', hreads'⟩ := hv'.exists_reads ht
    apply hreads.eq_of_keyWord_eq hreads'
    rw [← ht.eq_keyWord_of_encode hreads hword, ← ht.eq_keyWord_of_encode hreads' hword']
  · intro hu v word hv hword store limits depth slot hslot hdepth
    obtain ⟨raw, hreads⟩ := hv.exists_reads ht
    obtain ⟨front, last, hlast, hreads'⟩ := hreads.keyWord_eq_append hu
    rw [ht.eq_keyWord_of_encode hreads hword, hlast] at hslot
    obtain ⟨next, hpacks⟩ := Store.packs_end hslot (ht.length_of_reads hreads').1
    exact ⟨next, ht.value_ok hreads' hdepth hpacks⟩

/-! ## A temperature below zero -/

namespace Temperature

def degrees : IntType := ⟨true, 2, Nat.succ_pos 1, Nat.le_add_right 2 30⟩

/-- An alias of a signed type. -/
def type : Ty := .aliasOf ⟨⟨none, .int 1⟩, .text "Degrees", .text "Degrees"⟩ (.int degrees)

/-- A store with the bytes of `-2` between others. -/
def stored : Store where
  words := [(0, [7, 0xff, 0xfe, 9])]

def place : Cursor := ⟨0, 31, Nat.succ_pos 30, Nat.le_succ 31⟩

theorem standsFor : type.StandsFor .plain (.int degrees) :=
  .aliasOf ⟨rfl, nofun⟩ (.elementary trivial)

/-- The word that the temperature is encoded as. -/
def word : Bytes := List.replicate 31 0xff ++ [0xfe]

theorem isValueOf : IsValueOf .plain type (.int (-2)) :=
  ⟨stored, {}, 0, place, ⟨0, 29, by decide, by decide⟩, by decide, rfl, rfl⟩

end Temperature

/-- The temperature is encoded with its sign in front, and a word with this key has it again. -/
theorem key_of_value_temperature :
    (Key.encode .plain Temperature.type (.int (-2))).result = .ok Temperature.word ∧
      ∀ (store : Store) (slot : Slot), store.word slot.toNat = .ok Temperature.word →
        ∃ next, (value ⟨store, .plain, {}⟩ 0 Temperature.type (.fresh slot)).result =
          .ok (.int (-2), next) := by
  obtain ⟨hencoded, -, hback, -⟩ := key_of_value Temperature.standsFor
  obtain ⟨w, size, v, next, hw, hsize, hvalue, -, hadmitted, -⟩ :=
    hencoded Temperature.stored Temperature.place (by decide) rfl
  have hv : v = .int (-2) := by
    have hdecoded := hvalue {} 0 (by decide)
    exact (congrArg Prod.fst (Except.ok.inj hdecoded)).symm
  subst hv
  cases hw
  cases hsize
  have hword := hadmitted trivial
  refine ⟨hword, fun store slot hslot => ?_⟩
  exact hback (by rintro ⟨size, ⟨⟩⟩) _ _ Temperature.isValueOf hword store {} 0 slot hslot
    (by decide)

end Decode

end StorageSnapshot

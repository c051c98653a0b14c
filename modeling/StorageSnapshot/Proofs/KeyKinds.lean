-- SUMMARY: Which keys are encoded: the values of the key type, and what passes for one of them.
import StorageSnapshot.Proofs.Conversions
import StorageSnapshot.Proofs.KeyTexts

/-!
# Keys of every kind

Keys are encoded by conversions that take more than the values of the key type. Here is, for each
type, which keys are values of it and which ones pass for a value although they are none. Every
other key is refused, apart from numbers beyond those of a machine: these are no errors of the user,
but end everything.
-/

namespace StorageSnapshot

variable {r : Resolver} {t u : Ty} {ints : IntType} {key : Datum} {n : Int} {b : Bool}
  {raw word : Bytes} {size : Nat} {e : DataError} {fault : Fault}

/-! ## What keys are taken for -/

namespace Key

/-- What keys are taken for, as integers, truth values and byte strings. -/
structure Conversion where
  integer : Datum → Int → Prop
  truth : Datum → Bool → Prop
  bytes : Datum → Bytes → Prop

/-- Keys are taken for what they are. -/
def strict : Conversion := ⟨Datum.IsInteger, Datum.IsTruth, Datum.IsBytes⟩

/-- Keys are taken for something else. -/
def lax : Conversion := ⟨Datum.PassesAsInteger, Datum.PassesAsTruth, Datum.PassesAsBytes⟩

end Key

/-- Whether a key is taken for a value of a shape, with the word that this is encoded as. -/
inductive Shape.Encodes (taken : Key.Conversion) : Shape → Datum → Bytes → Prop
  | int {ints : IntType} {key : Datum} {n : Int} (hfits : ints.fits n = true)
    (h : taken.integer key n) : Encodes taken (.int ints) key (Key.wordOfInt n)
  | bool {key : Datum} {b : Bool} (h : taken.truth key b) :
    Encodes taken .bool key (Key.wordOfInt (if b then 1 else 0))
  | fixedBytes {size : Nat} {key : Datum} {raw : Bytes} (hlength : raw.length = size)
    (h : taken.bytes key raw) : Encodes taken (.fixedBytes size) key (raw.padRight wordSize)
  | address {key : Datum} {raw : Bytes} (hlength : raw.length = addressSize)
    (h : taken.bytes key raw) : Encodes taken .address key (raw.padLeft wordSize)

/-- Whether a key is taken for a value of a type that is no alias, with the word that this is
encoded as. -/
inductive Ty.Encodes (taken : Key.Conversion) : Ty → Datum → Bytes → Prop
  | elementary {e : Elementary} {key : Datum} {word : Bytes} (h : e.shape.Encodes taken key word) :
    Encodes taken (.elementary e) key word
  | contract {name reference key : Datum} {raw : Bytes} (hlength : raw.length = addressSize)
    (h : taken.bytes key raw) : Encodes taken (.contract name reference) key (raw.padLeft wordSize)
  | enum {d : Declaration} {typeString key : Datum} {members : List Datum} {n : Int}
    (hfits : (Ty.ordinals members).fits n = true) (hmember : n < members.length)
    (h : taken.integer key n) : Encodes taken (.enum d typeString members) key (Key.wordOfInt n)

/-- Whether a key is beyond the numbers of a machine when it is converted for a shape, and the error
that this causes. -/
inductive Shape.Overflows : Shape → Datum → DataError → Prop
  | int {ints : IntType} {key : Datum} {e : DataError} (h : key.IsInfinite e) :
    Overflows (.int ints) key e
  | fixedBytes {size : Nat} {key : Datum} {e : DataError} (h : key.AsksTooMuch e) :
    Overflows (.fixedBytes size) key e
  | address {key : Datum} {e : DataError} (h : key.AsksTooMuch e) : Overflows .address key e

inductive Ty.Overflows : Ty → Datum → DataError → Prop
  | elementary {e : Elementary} {key : Datum} {cause : DataError}
    (h : e.shape.Overflows key cause) : Overflows (.elementary e) key cause
  | contract {name reference key : Datum} {e : DataError} (h : key.AsksTooMuch e) :
    Overflows (.contract name reference) key e
  | enum {d : Declaration} {typeString key : Datum} {members : List Datum} {e : DataError}
    (h : key.IsInfinite e) : Overflows (.enum d typeString members) key e

theorem Ty.StandsFor.isSized {s : Elementary} (h : t.StandsFor r (.elementary s)) :
    s.shape.IsSized := by
  generalize hu : Ty.elementary s = u at h
  induction h with
  | elementary he =>
    cases hu
    exact he
  | aliasOf _ _ ih => exact ih hu
  | aliasNode _ h =>
    cases hu
    exact Resolver.isSized_of_elementaryOfAlias h
  | _ => cases hu

namespace Key

/-! ## What is taken -/

theorem encodeBool_of_isTruth (h : key.IsTruth b) :
    encodeBool key = .ok (wordOfInt (if b then 1 else 0)) := by
  cases h with
  | bool => rfl
  | text hs => exact encodeBool_text hs

theorem encodeBool_of_passesAsTruth (h : key.PassesAsTruth b) :
    encodeBool key = .ok (wordOfInt (if b then 1 else 0)) := by
  cases h with
  | mk hbool htext =>
    cases key with
    | bool b => exact absurd rfl (hbool b)
    | text s => exact absurd rfl (htext s)
    | _ => rfl

/-- Whether keys are encoded as what they are taken for. -/
structure Conversion.IsMade (taken : Conversion) : Prop where
  integer : ∀ {key n}, taken.integer key n → key.truncated = .ok n
  truth : ∀ {key b}, taken.truth key b → encodeBool key = .ok (wordOfInt (if b then 1 else 0))
  bytes : ∀ {key raw}, taken.bytes key raw → raw.length ≤ wordSize →
    key.sizedBytes raw.length = .ok (some raw)

theorem strict_isMade : strict.IsMade :=
  ⟨Datum.IsInteger.truncated, encodeBool_of_isTruth, fun h _ => h.sizedBytes⟩

theorem lax_isMade : lax.IsMade :=
  ⟨Datum.PassesAsInteger.truncated, encodeBool_of_passesAsTruth, Datum.PassesAsBytes.sizedBytes⟩

theorem sizedBytes_of_sizedBytes (h : key.sizedBytes size = .ok (some raw)) (defect : KeyDefect) :
    sizedBytes key size defect = .ok raw := by
  rw [sizedBytes, h]
  rfl

variable {taken : Conversion}

theorem encodeInt_of_integer (hmade : taken.IsMade) (h : taken.integer key n) (type : Ty)
    (hfits : ints.fits n = true) {bound : Option Nat} (hbound : ∀ b ∈ bound, n < b) :
    encodeInt key type ints bound = .ok (wordOfInt n) := by
  rw [encodeInt_of_truncated (hmade.integer h) type hfits, if_pos hbound]

theorem encodeAddress_of_bytes (hmade : taken.IsMade) (h : taken.bytes key raw)
    (hlength : raw.length = addressSize) : encodeAddress key = .ok (raw.padLeft wordSize) := by
  have hsized := hmade.bytes h (by rw [hlength]; decide)
  rw [hlength] at hsized
  rw [encodeAddress, sizedBytes_of_sizedBytes hsized]
  rfl

theorem encodeElementary_of_encodes (hmade : taken.IsMade) {e : Elementary}
    (he : e.shape.IsSized) (h : e.shape.Encodes taken key word) :
    encodeElementary e key = .ok word := by
  unfold encodeElementary
  generalize e.shape = shape at he h
  cases h with
  | int hfits h => exact encodeInt_of_integer hmade h _ hfits nofun
  | bool h => exact hmade.truth h
  | fixedBytes hlength h =>
    subst hlength
    dsimp only
    rw [sizedBytes_of_sizedBytes (hmade.bytes h he.2)]
    rfl
  | address hlength h => exact encodeAddress_of_bytes hmade h hlength

/-- What a key is taken for is what it is encoded as. -/
theorem encodeRaw_of_encodes (hmade : taken.IsMade) (ht : t.StandsFor r u)
    (h : u.Encodes taken key word) : (encodeRaw r key u).result = .ok word := by
  cases h with
  | elementary h => exact encodeElementary_of_encodes hmade ht.isSized h
  | contract hlength h => exact encodeAddress_of_bytes hmade h hlength
  | @enum d typeString key members n hfits hmember h =>
    have hbound : ∀ b ∈ some members.length, n < b := by
      rintro b ⟨⟩
      exact hmember
    have hword := encodeInt_of_integer hmade h (.enum d typeString members) hfits hbound
    exact hword

/-! ## What is not taken -/

theorem encodeInt_of_isInfinite (h : key.IsInfinite e) (type : Ty) (ints : IntType)
    (bound : Option Nat) : encodeInt key type ints bound = .error (.data e) := by
  rw [encodeInt, h.truncated]
  rfl

theorem sizedBytes_of_asksTooMuch (h : key.AsksTooMuch e) (size : Nat) (defect : KeyDefect) :
    sizedBytes key size defect = .error (.data e) := by
  rw [sizedBytes, h.sizedBytes]
  rfl

theorem encodeAddress_of_asksTooMuch (h : key.AsksTooMuch e) :
    encodeAddress key = .error (.data e) := by
  rw [encodeAddress, sizedBytes_of_asksTooMuch h]
  rfl

theorem encodeElementary_of_overflows {s : Elementary} (h : s.shape.Overflows key e) :
    encodeElementary s key = .error (.data e) := by
  unfold encodeElementary
  generalize s.shape = shape at h
  cases h with
  | int h => exact encodeInt_of_isInfinite h _ _ none
  | fixedBytes h =>
    dsimp only
    rw [sizedBytes_of_asksTooMuch h]
    rfl
  | address h => exact encodeAddress_of_asksTooMuch h

theorem encodeRaw_of_overflows (r : Resolver) (h : u.Overflows key e) :
    (encodeRaw r key u).result = .error (.data e) := by
  cases h with
  | elementary h => exact encodeElementary_of_overflows h
  | @enum d typeString key members e h =>
    have hencode := encodeInt_of_isInfinite h (.enum d typeString members) (Ty.ordinals members)
      (some members.length)
    exact hencode
  | contract h => exact encodeAddress_of_asksTooMuch h

/-- The ways in which a key may fail to be encoded. -/
inductive Fails (key : Datum) (overflows : DataError → Prop) : Fault → Prop
  | mistake {e : DataError} (h : e.IsMistake) : Fails key overflows (.data e)
  | overflow {e : DataError} (h : overflows e) : Fails key overflows (.data e)
  | refused {defect : KeyDefect} (h : defect.check key = key.checkText) :
    Fails key overflows (.ofInput (.badKey key defect))

theorem Fails.ofData {overflows : DataError → Prop} (h : e.IsMistake ∨ overflows e) :
    Fails key overflows (.data e) := by
  rcases h with h | h
  · exact .mistake h
  · exact .overflow h

theorem Fails.mono {overflows overflows' : DataError → Prop} (h : Fails key overflows fault)
    (hmono : ∀ e, overflows e → overflows' e) : Fails key overflows' fault := by
  cases h with
  | mistake h => exact .mistake h
  | overflow h => exact .overflow (hmono _ h)
  | refused defect => exact .refused defect

/-- Of a type whose name can be written, a refusal of a key shows no more than the key. -/
theorem check_notName (key : Datum) (h : t.checkName = .ok ()) :
    (do key.checkText; t.checkName) = key.checkText := by
  rw [h]
  exact bind_pure_unit

theorem ends_encodeInt (key : Datum) {type : Ty} (htype : type.checkName = .ok ()) (ints : IntType)
    (bound : Option Nat) :
    EndsIn (Fails key key.IsInfinite)
      (fun word => ∃ n, ints.fits n = true ∧ (∀ b ∈ bound, n < b) ∧ word = wordOfInt n ∧
        (key.IsInteger n ∨ key.PassesAsInteger n)) (encodeInt key type ints bound) := by
  have hlift : EndsIn (Fails key key.IsInfinite) _ (Fault.lift key.truncated) :=
    .lift ((Datum.ends_truncated key).mono (fun e he => .ofData he) fun _ => id)
  refine hlift.bind fun n hn => ?_
  refine .ite (fun h => ?_) fun _ => .refused (check_notName key htype)
  rw [Bool.and_eq_true] at h
  refine ⟨n, h.1, ?_, rfl, hn⟩
  rintro b ⟨⟩
  simpa using h.2

theorem ends_sizedBytes (key : Datum) (hsize : 0 < size) {defect : KeyDefect}
    (hdefect : defect.check key = key.checkText) :
    EndsIn (Fails key key.AsksTooMuch)
      (fun raw => raw.length = size ∧ (key.IsBytes raw ∨ key.PassesAsBytes raw))
      (sizedBytes key size defect) := by
  have hlift : EndsIn (Fails key key.AsksTooMuch) _ (Fault.lift (key.sizedBytes size)) :=
    .lift ((Datum.ends_sizedBytes key hsize).mono (fun e he => .ofData he) fun _ => id)
  refine hlift.bind fun found hfound => ?_
  cases found with
  | none => exact .refused hdefect
  | some raw => exact hfound raw rfl

theorem ends_encodeAddress (key : Datum) :
    EndsIn (Fails key key.AsksTooMuch)
      (fun word => ∃ raw : Bytes, raw.length = addressSize ∧ word = raw.padLeft wordSize ∧
        (key.IsBytes raw ∨ key.PassesAsBytes raw)) (encodeAddress key) :=
  (ends_sizedBytes key (by decide) rfl).bind fun raw h => ⟨raw, h.1, rfl, h.2⟩

theorem ends_encodeBool (key : Datum) (overflows : DataError → Prop) :
    EndsIn (Fails key overflows)
      (fun word =>
        ∃ b, word = wordOfInt (if b then 1 else 0) ∧ (key.IsTruth b ∨ key.PassesAsTruth b))
      (encodeBool key) := by
  cases key with
  | bool b => exact ⟨b, rfl, .inl (.bool b)⟩
  | text s =>
    by_cases htrue : s.toList.map Char.toLower = "true".toList
    · rw [encodeBool_text (b := true) htrue]
      exact ⟨true, rfl, .inl (.text htrue)⟩
    · by_cases hfalse : s.toList.map Char.toLower = "false".toList
      · rw [encodeBool_text (b := false) hfalse]
        exact ⟨false, rfl, .inl (.text hfalse)⟩
      · have hnone : (Datum.text s).truth? = none := by
          rw [Datum.truth?]
          simp only [if_neg htrue, if_neg hfalse]
        unfold encodeBool
        rw [hnone]
        have hcheck : KeyDefect.notBool.check (.text s) = (Datum.text s).checkText := rfl
        exact .refused hcheck
  | _ => exact ⟨_, rfl, .inr (.mk (by rintro _ ⟨⟩) (by rintro _ ⟨⟩))⟩

theorem ends_encodeElementary {s : Elementary} (hs : s.shape.IsSized) (key : Datum) :
    EndsIn (Fails key (s.shape.Overflows key))
      (fun word => s.shape.Encodes strict key word ∨ s.shape.Encodes lax key word)
      (encodeElementary s key) := by
  unfold encodeElementary
  generalize s.shape = shape at hs
  cases shape with
  | int ints =>
    refine (ends_encodeInt key rfl ints none).mono (fun fault h => h.mono ?_) ?_
    · exact fun _ => .int
    · rintro word ⟨n, hfits, -, rfl, h | h⟩
      · exact .inl (.int hfits h)
      · exact .inr (.int hfits h)
  | bool =>
    refine (ends_encodeBool key _).mono (fun _ => id) ?_
    rintro word ⟨b, rfl, h | h⟩
    · exact .inl (.bool h)
    · exact .inr (.bool h)
  | fixedBytes size =>
    have hcheck : (KeyDefect.wrongSize (.elementary s)).check key = key.checkText :=
      @check_notName (.elementary s) key rfl
    refine ((ends_sizedBytes key hs.1 hcheck).mono (fun fault h => h.mono fun _ => .fixedBytes)
      fun _ => id).bind ?_
    rintro raw ⟨hlength, h | h⟩
    · exact .inl (.fixedBytes hlength h)
    · exact .inr (.fixedBytes hlength h)
  | address =>
    refine (ends_encodeAddress key).mono (fun fault h => h.mono fun _ => .address) ?_
    rintro word ⟨raw, hlength, rfl, h | h⟩
    · exact .inl (.address hlength h)
    · exact .inr (.address hlength h)
  | bare => exact hs.elim

/-- A key is taken for a value or fails. -/
theorem ends_encodeRaw (ht : t.StandsFor r u) (key : Datum) :
    EndsIn (Fails key (u.Overflows key))
      (fun word => u.Encodes strict key word ∨ u.Encodes lax key word)
      (encodeRaw r key u).result := by
  have helementary : ∀ s : Elementary, s.shape.IsSized →
      EndsIn (Fails key ((Ty.elementary s).Overflows key))
        (fun word => (Ty.elementary s).Encodes strict key word ∨
          (Ty.elementary s).Encodes lax key word) (encodeElementary s key) := fun s hs =>
    (ends_encodeElementary hs key).mono (fun fault h => h.mono fun _ => .elementary)
      fun word h => h.imp .elementary .elementary
  induction ht with
  | elementary he => exact helementary _ he
  | aliasOf _ _ ih => exact ih
  | aliasNode _ h => exact helementary _ (Resolver.isSized_of_elementaryOfAlias h)
  | contract _ =>
    refine (ends_encodeAddress key).mono (fun fault h => h.mono fun _ => .contract) ?_
    rintro word ⟨raw, hlength, rfl, h | h⟩
    · exact .inl (.contract hlength h)
    · exact .inr (.contract hlength h)
  | @enum d typeString members hd =>
    have hname : (Ty.enum d typeString members).checkName = .ok () := hd.checkCalled
    refine (ends_encodeInt key hname _ (some members.length)).mono (fun fault h => h.mono ?_) ?_
    · exact fun _ => .enum
    · rintro word ⟨n, hfits, hmember, rfl, h | h⟩
      · exact .inl (.enum hfits (hmember _ rfl) h)
      · exact .inr (.enum hfits (hmember _ rfl) h)

/-! ## All keys -/

theorem not_passesAsInteger (h : key.IsInteger n) (n' : Int) : ¬key.PassesAsInteger n' := by
  cases h <;> nofun

theorem not_passesAsBytes (h : key.IsBytes raw) (raw' : Bytes) : ¬key.PassesAsBytes raw' := by
  intro h'
  cases h with
  | bytes | text => cases h'
  | list =>
    cases h' with
    | list hbool => simp at hbool

theorem not_passesAsTruth (h : key.IsTruth b) (b' : Bool) : ¬key.PassesAsTruth b' := by
  rintro ⟨hbool, htext⟩
  cases h with
  | bool b => exact hbool b rfl
  | text => exact htext _ rfl

/-- A value of a type does not pass for another one. -/
theorem not_encodes_lax (h : u.Encodes strict key word) (word' : Bytes) :
    ¬u.Encodes lax key word' := by
  rintro (h' | ⟨-, h'⟩ | ⟨-, -, h'⟩)
  · obtain h | _ | _ := h
    generalize Elementary.shape _ = shape at h h'
    cases h with
    | int _ h =>
      obtain ⟨-, h'⟩ | _ | _ | _ := h'
      exact not_passesAsInteger h _ h'
    | bool h =>
      obtain _ | h' | _ | _ := h'
      exact not_passesAsTruth h _ h'
    | fixedBytes _ h =>
      obtain _ | _ | ⟨-, h'⟩ | _ := h'
      exact not_passesAsBytes h _ h'
    | address _ h =>
      obtain _ | _ | _ | ⟨-, h'⟩ := h'
      exact not_passesAsBytes h _ h'
  · obtain _ | ⟨-, h⟩ | _ := h
    exact not_passesAsBytes h _ h'
  · obtain _ | _ | ⟨-, -, h⟩ := h
    exact not_passesAsInteger h _ h'

theorem not_isMistake_of_overflows (h : u.Overflows key e) : ¬e.IsMistake := by
  have hinfinite : ∀ {key : Datum} {e : DataError}, key.IsInfinite e → ¬e.IsMistake := by
    rintro _ _ ⟨hx⟩ (h | h) <;> cases h
  have hmany : ∀ {key : Datum} {e : DataError}, key.AsksTooMuch e → ¬e.IsMistake := by
    rintro _ _ (hn | hn) (h | h) <;> cases h
  cases h with
  | contract h => exact hmany h
  | enum h => exact hinfinite h
  | elementary h =>
    generalize Elementary.shape _ = shape at h
    cases h with
    | int h => exact hinfinite h
    | fixedBytes h | address h => exact hmany h

/-- What is said of a bad key, or that the key can't be written. -/
theorem ofInput_badKey {defect : KeyDefect} (h : defect.check key = key.checkText) :
    Fault.ofInput (.badKey key defect) =
      if key.isWritable then .input (.badKey key defect) else .data .unwritable := by
  rw [Fault.ofInput, InputError.check, h, Fault.raised_checkText]

/-- What cannot be converted is refused, unless it is beyond the numbers of a machine. -/
theorem Fails.refusal (ht : t.StandsFor r u) (h : Fails key (u.Overflows key) fault) :
    (∃ e, u.Overflows key e ∧ Key.refusal t key fault = .data e) ∨
      ∃ defect, Key.refusal t key fault =
        if key.isWritable then .input (.badKey key defect) else .data .unwritable := by
  have hmistake (e : DataError) : Fault.ofInput (.badKey key (.notConvertible t e)) =
      if key.isWritable then .input (.badKey key (.notConvertible t e)) else .data .unwritable :=
    ofInput_badKey (check_notName key ht.checkName)
  cases h with
  | overflow h => exact .inl ⟨_, h, if_neg (not_isMistake_of_overflows h)⟩
  | @mistake e h => exact .inr ⟨_, (if_pos h).trans (hmistake e)⟩
  | @refused defect h =>
    rw [ofInput_badKey h]
    split
    next => exact .inr ⟨defect, rfl⟩
    next hkey =>
      -- That a key can't be written is a mistake itself, which again shows the key.
      refine .inr ⟨.notConvertible t .unwritable, ?_⟩
      rw [Key.refusal, if_pos (.inr rfl), hmistake, if_neg hkey]

/--
A key is encoded if it is a value of the key type or passes for one, never both. Every other key is
refused as a bad key, unless it is beyond the numbers of a machine or has too many digits to be
shown.
-/
theorem encode_any (ht : t.StandsFor r u) (key : Datum) :
    (∀ word, (encode r t key).result = .ok word ↔
      u.Encodes strict key word ∨ u.Encodes lax key word) ∧
    (∀ word word', u.Encodes strict key word → ¬u.Encodes lax key word') ∧
    (∀ e, u.Overflows key e → (encode r t key).result = .error (.data e)) ∧
    ∀ fault, (encode r t key).result = .error fault →
      (∃ e, u.Overflows key e ∧ fault = .data e) ∨
        ∃ defect, fault =
          if key.isWritable then .input (.badKey key defect) else .data .unwritable := by
  have hends := ends_encodeRaw ht key
  have hfault : ∀ fault, (encode r t key).result = .error fault →
      (∃ e, u.Overflows key e ∧ fault = .data e) ∨
        ∃ defect, fault =
          if key.isWritable then .input (.badKey key defect) else .data .unwritable := by
    intro fault h
    rw [ht.result_encode] at h
    cases hraw : (encodeRaw r key u).result with
    | ok word =>
      rw [hraw] at h
      cases h
    | error cause =>
      rw [hraw] at h
      cases h
      exact (hends.of_error hraw).refusal ht
  refine ⟨fun word => ?_, fun word word' h => not_encodes_lax h word', fun e h => ?_, hfault⟩
  · rw [ht.result_encode, mapError_eq_ok]
    constructor
    · exact hends.of_ok
    · rintro (h | h)
      · exact encodeRaw_of_encodes strict_isMade ht h
      · exact encodeRaw_of_encodes lax_isMade ht h
  · rw [ht.result_encode, encodeRaw_of_overflows r h, mapError_error]
    exact congrArg Except.error (if_neg (not_isMistake_of_overflows h))

/-! ## Keys that are no values -/

/-- One and a half is encoded as the byte one, and infinity is no error of the user. -/
theorem encode_any_float :
    (encode .plain (.int .uint8) (.float ⟨0x3ff8000000000000⟩)).result =
        .ok (Bytes.zeros 31 ++ [1]) ∧
      (encode .plain (.int .uint8) (.float (.infinity false))).result =
        .error (.data .infiniteFloat) := by
  have ht : (Ty.int .uint8).StandsFor .plain (.int .uint8) := .elementary trivial
  constructor
  · obtain ⟨htaken, -⟩ := encode_any ht (.float ⟨0x3ff8000000000000⟩)
    have hfloat : lax.integer (.float ⟨0x3ff8000000000000⟩) 1 := .float (by decide)
    have hfits : IntType.uint8.fits 1 = true := by decide
    exact (htaken _).2 (.inr (.elementary (.int hfits hfloat)))
  · obtain ⟨-, -, hbeyond, -⟩ := encode_any ht (.float (.infinity false))
    exact hbeyond _ (.elementary (.int (.float (by decide))))

/-- The number twenty is encoded as the address zero, although it is no address. -/
theorem twenty_encoded_as_address :
    let address : Ty := .elementary ⟨"address", .text "address", .address⟩
    (∀ word, ¬address.Encodes strict (.int 20) word) ∧
      (encode .plain address (.int 20)).result = .ok (Bytes.zeros wordSize) := by
  refine ⟨?_, rfl⟩
  rintro word (h | _ | _)
  generalize hshape : Elementary.shape _ = shape at h
  cases hshape
  cases h with
  | address _ h => cases h

end Key

end StorageSnapshot

-- SUMMARY: What decoding yields keeps to the limits, apart from byte strings that fit in a slot.
import StorageSnapshot.Proofs.Depth
import StorageSnapshot.Proofs.Encoding

/-!
# Values within limits

The limits bound each part of a value that decoding yields: the elements of arrays, the bytes of
byte strings and texts, and the composite values around a part. Each decoder checks a length by
itself, before it reads what has this length. The one length that is not checked is that of a byte
string which stands in its slot: it has up to 31 bytes, under whatever limit.
-/

namespace StorageSnapshot

/-! ## Reads -/

/-- A read of a span returns no more bytes than were asked for. -/
theorem Store.length_readWithin_le {s : Store} {fuel : Nat} {slot : Int} {offset size : Nat}
    {raw : Bytes} (h : s.readWithin fuel slot offset size = .ok raw) : raw.length ≤ size := by
  induction fuel generalizing slot offset size raw with
  | zero =>
    rw [readWithin, Except.ok.injEq] at h
    simp [← h]
  | succ fuel ih =>
    rw [readWithin] at h
    split at h
    next =>
      rw [Except.ok.injEq] at h
      simp [← h]
    next =>
      obtain ⟨w, -, h⟩ := bind_eq_ok.1 h
      obtain ⟨rest, hrest, h⟩ := bind_eq_ok.1 h
      simp only [pure, Except.pure, Except.ok.injEq] at h
      have hbehind := ih hrest
      have hchunk : ((w.drop offset).take size).length ≤ size := List.length_take_le ..
      rw [← h, List.length_append]
      omega

theorem Store.length_read_le {s : Store} {slot offset : Int} {size : Nat} {raw : Bytes}
    (h : s.read slot offset size = .ok raw) : raw.length ≤ size := by
  unfold read at h
  split at h
  next =>
    rw [Int.toNat_natCast] at h
    exact length_readWithin_le h
  next => cases h

/-! ## Parts of values -/

namespace Value

/-- The parts of a value, each with the number of arrays and structs around it. -/
inductive PartAt : Value → Nat → Value → Prop
  | whole (v : Value) : PartAt v 0 v
  | element {vs : List Value} {v u : Value} {n : Nat} (hv : v ∈ vs) (h : PartAt v n u) :
    PartAt (.array vs) (n + 1) u
  | field {fs : List (Datum × Value)} {f : Datum × Value} {u : Value} {n : Nat}
    (hf : f ∈ fs) (h : PartAt f.2 n u) : PartAt (.struct fs) (n + 1) u

/-- Whether a value has neither parts nor a length. -/
def IsPacked : Value → Prop
  | .int _ | .bool _ | .fixedBytes _ | .address _ | .enum .. => True
  | .bytes _ | .string _ | .array _ | .struct _ => False

/-- Whether the length of a value is admitted by the limits under which it was read: for a byte
string, and for a text, that of the bytes that stand in the store. -/
def IsAdmitted (ctx : Context) : Value → Prop
  | .array vs => vs.length ≤ ctx.limits.maxLength
  | .bytes raw => ctx.limits.AdmitsBytes raw.length ∧
    ∃ c next, (Decode.byteString ctx .bytes c).result = .ok (raw, next)
  | .string s => ∃ raw, s = Text.decodeUtf8 raw ∧ ctx.limits.AdmitsBytes raw.length ∧
    ∃ c next, (Decode.byteString ctx .string c).result = .ok (raw, next)
  | .int _ | .bool _ | .fixedBytes _ | .address _ | .enum .. | .struct _ => True

/-- Whether every part of a value that has `depth` composite values around it is within limits. -/
def IsBounded (ctx : Context) (depth : Int) (v : Value) : Prop :=
  ∀ n u, v.PartAt n u → n + depth ≤ ctx.limits.maxDepth ∧ u.IsAdmitted ctx

variable {ctx : Context} {depth : Int} {v : Value}

theorem IsBounded.of_isPacked (hdepth : depth ≤ ctx.limits.maxDepth) (hv : v.IsPacked) :
    v.IsBounded ctx depth := by
  intro n u hu
  cases hu with
  | whole => exact ⟨by simpa using hdepth, by cases v <;> trivial⟩
  | element => exact hv.elim
  | field => exact hv.elim

theorem IsBounded.bytes (hdepth : depth ≤ ctx.limits.maxDepth) {raw : Bytes}
    (h : (Value.bytes raw).IsAdmitted ctx) : (Value.bytes raw).IsBounded ctx depth := by
  intro n u hu
  cases hu
  exact ⟨by simpa using hdepth, h⟩

theorem IsBounded.string (hdepth : depth ≤ ctx.limits.maxDepth) {s : String}
    (h : (Value.string s).IsAdmitted ctx) : (Value.string s).IsBounded ctx depth := by
  intro n u hu
  cases hu
  exact ⟨by simpa using hdepth, h⟩

/-- An array is within limits if its length and its elements are. -/
theorem IsBounded.array (hdepth : depth ≤ ctx.limits.maxDepth) {vs : List Value}
    (hlength : vs.length ≤ ctx.limits.maxLength)
    (hvs : ∀ v ∈ vs, v.IsBounded ctx (depth + 1)) : (Value.array vs).IsBounded ctx depth := by
  intro n u hu
  cases hu with
  | whole => exact ⟨by simpa using hdepth, hlength⟩
  | element hv hu =>
    obtain ⟨hbelow, hadmitted⟩ := hvs _ hv _ u hu
    exact ⟨by omega, hadmitted⟩

theorem IsBounded.struct (hdepth : depth ≤ ctx.limits.maxDepth) {fs : List (Datum × Value)}
    (hfs : ∀ f ∈ fs, f.2.IsBounded ctx (depth + 1)) : (Value.struct fs).IsBounded ctx depth := by
  intro n u hu
  cases hu with
  | whole => exact ⟨by simpa using hdepth, trivial⟩
  | field hf hu =>
    obtain ⟨hbelow, hadmitted⟩ := hfs _ hf _ u hu
    exact ⟨by omega, hadmitted⟩

end Value

namespace Decode

variable {ctx : Context} {nested : Nested} {depth : Int} {t : Ty} {c next : Cursor} {v : Value}

/-! ## Packed values -/

theorem address_isPacked {store : Store} (h : address store t c = .ok (v, next)) :
    v.IsPacked := by
  unfold address at h
  obtain ⟨⟨raw, place⟩, -, h⟩ := bind_eq_ok.1 h
  dsimp only at h
  split at h
  next =>
    cases h
    trivial
  next => cases h

theorem enum_isPacked {store : Store} {members : List Datum}
    (h : enum store members c = .ok (v, next)) : v.IsPacked := by
  obtain ⟨n, -, h⟩ := bind_eq_ok.1 h
  cases h
  trivial

theorem elementary_isPacked {store : Store} {e : Elementary}
    (h : elementary store e c = .ok (v, next)) : v.IsPacked := by
  unfold elementary at h
  split at h
  next =>
    obtain ⟨n, -, h⟩ := bind_eq_ok.1 h
    cases h
    trivial
  next =>
    obtain ⟨n, -, h⟩ := bind_eq_ok.1 h
    cases h
    trivial
  next =>
    obtain ⟨raw, -, h⟩ := bind_eq_ok.1 h
    cases h
    trivial
  next => exact address_isPacked h
  next => cases h

/-! ## Lengths -/

/-- What is let through by a check of a length does not exceed the bound. -/
theorem le_of_checked {α : Type} {bound : Bound} {length : Int} {reason : String}
    {rest : Decoding α} {a : α}
    (h : (if bound.exceededBy length then giveUp reason else rest).result = .ok a) :
    length ≤ bound.most ∧ rest.result = .ok a := by
  split at h
  next => cases h
  next hchecked =>
    rw [Bound.exceededBy_iff] at hchecked
    exact ⟨Int.not_lt.1 hchecked, h⟩

/-- A byte string is short, or its length was checked. -/
theorem byteString_admits {raw : Bytes} (h : (byteString ctx t c).result = .ok (raw, next)) :
    ctx.limits.AdmitsBytes raw.length := by
  simp only [byteString, Traced.result_bind] at h
  obtain ⟨-, -, h⟩ := bind_eq_ok.1 h
  obtain ⟨header, -, h⟩ := bind_eq_ok.1 h
  split at h
  next =>
    split at h
    next => cases h
    next hshort =>
      simp only [Traced.result_pure, Except.ok.injEq, Prod.mk.injEq] at h
      rw [← h.1, List.length_take]
      exact .inl (by omega)
  next =>
    obtain ⟨hchecked, h⟩ := le_of_checked h
    rw [Traced.result_bind, result_stepExcept] at h
    obtain ⟨contents, hcontents, h⟩ := bind_eq_ok.1 h
    simp only [Traced.result_pure, Except.ok.injEq, Prod.mk.injEq] at h
    have hlength := Store.length_read_le (mapError_eq_ok.1 hcontents)
    rw [h.1] at hlength
    exact .inr (hlength.trans (Int.ofNat_le.1 hchecked))

/-- The length of an array was checked, whether it is in the store or in the type. -/
theorem elementsOf_le {length : Option Int} {count : Nat} {start : Cursor}
    (h : (elementsOf ctx t length c).result = .ok (count, start)) :
    count ≤ ctx.limits.maxLength := by
  cases length with
  | none =>
    simp only [elementsOf, Traced.result_bind] at h
    obtain ⟨⟨n, _⟩, -, h⟩ := bind_eq_ok.1 h
    obtain ⟨hchecked, h⟩ := le_of_checked h
    cases h
    exact Int.toNat_le.2 hchecked
  | some n =>
    obtain ⟨hchecked, h⟩ := le_of_checked h
    cases h
    exact Int.toNat_le.2 hchecked

/-! ## Levels -/

/-- A value is within limits if its parts are, one level deeper. -/
theorem atType_isBounded (hdepth : depth ≤ ctx.limits.maxDepth)
    (h : ∀ t c v next, (nested t c).result = .ok (v, next) → v.IsBounded ctx (depth + 1)) :
    ∀ t c v next, (atType ctx nested t c).result = .ok (v, next) → v.IsBounded ctx depth
  | .elementary e, c, v, next, hv =>
    .of_isPacked hdepth (elementary_isPacked (mapError_eq_ok.1 (result_entering_eq_ok hv)))
  | .contract .., c, v, next, hv =>
    .of_isPacked hdepth (address_isPacked (mapError_eq_ok.1 (result_entering_eq_ok hv)))
  | .enum .., c, v, next, hv =>
    .of_isPacked hdepth (enum_isPacked (mapError_eq_ok.1 (result_entering_eq_ok hv)))
  | .aliasOf d underlying, c, v, next, hv => by
    rw [atType] at hv
    exact atType_isBounded hdepth h underlying c v next (result_entering_eq_ok hv)
  | .aliasNode d node, c, v, next, hv => by
    have hbody := result_entering_eq_ok hv
    rw [Traced.result_bind] at hbody
    obtain ⟨e, -, hbody⟩ := bind_eq_ok.1 hbody
    exact .of_isPacked hdepth
      (elementary_isPacked (mapError_eq_ok.1 (result_entering_eq_ok hbody)))
  | .bytes, c, v, next, hv => by
    have hbody := result_entering_eq_ok hv
    rw [Traced.result_bind] at hbody
    obtain ⟨⟨raw, _⟩, hraw, hbody⟩ := bind_eq_ok.1 hbody
    cases hbody
    exact .bytes hdepth ⟨byteString_admits hraw, c, next, hraw⟩
  | .string, c, v, next, hv => by
    have hbody := result_entering_eq_ok hv
    rw [Traced.result_bind] at hbody
    obtain ⟨⟨raw, _⟩, hraw, hbody⟩ := bind_eq_ok.1 hbody
    cases hbody
    exact .string hdepth ⟨raw, rfl, byteString_admits hraw, c, next, hraw⟩
  | .array _ _ element length, c, v, next, hv => by
    have hbody := result_entering_eq_ok hv
    rw [result_array] at hbody
    obtain ⟨⟨count, start⟩, hstart, hbody⟩ := bind_eq_ok.1 hbody
    obtain ⟨vs, hvs, hbody⟩ := bind_eq_ok.1 hbody
    obtain ⟨hlength, hparts⟩ := elements_eq_ok hvs
    cases hbody
    refine .array hdepth (hlength ▸ elementsOf_le hstart) ?_
    intro u hu
    obtain ⟨place, behind, hpart⟩ := hparts u hu
    exact h element place u behind hpart
  | .struct d ms, c, v, next, hv => by
    have hbody := result_entering_eq_ok hv
    simp only [struct, Traced.result_bind] at hbody
    obtain ⟨-, -, hbody⟩ := bind_eq_ok.1 hbody
    obtain ⟨⟨fs, last⟩, hfs, hbody⟩ := bind_eq_ok.1 hbody
    cases hbody
    refine .struct hdepth ?_
    intro f hf
    obtain ⟨u, place, behind, hpart⟩ := (fields_eq_ok hfs).1 f hf
    exact h u place f.2 behind hpart
  | .mapping .., c, v, next, hv => by
    cases result_entering_eq_ok hv

/--
A value that decoding yields is within limits in all of its parts: no part has more composite values
around it than may be, no array has more elements, and no byte string or text was read from more
bytes, unless these fit in the slot of the byte string.
-/
theorem value_isBounded (ctx : Context) (depth : Int) (t : Ty) (c : Cursor) {v : Value}
    {next : Cursor} (h : (value ctx depth t c).result = .ok (v, next)) :
    v.IsBounded ctx depth := by
  induction depth using level_induction ctx generalizing t c v next with
  | tooDeep depth hdeep =>
    rw [value_eq_tooDeep hdeep] at h
    exact absurd h (result_tooDeep_ne_ok t c _)
  | level depth hdepth ih =>
    rw [value_eq_atType hdepth] at h
    exact atType_isBounded hdepth ih t c v next h

/-! ## A value at its limits -/

namespace Parcel

def type : Ty :=
  .struct ⟨⟨none, .int 1⟩, .text "Parcel", .text "Parcel"⟩
    [.attached (.text "weights") (.array (.text "uint8[2]") ⟨none, .int 0⟩ (.int .uint8) (some 2)),
      .attached (.text "code") .bytes, .attached (.text "label") .string]

def context : Context where
  store := {
    words := [(0, [9, 7]), (1, [1, 2, 3] ++ Bytes.zeros 28 ++ [6]),
      (2, [0x68, 0x69] ++ Bytes.zeros 29 ++ [4])] }
  resolver := .plain
  limits := ⟨.ofNat 2, .ofNat 2⟩

end Parcel

/-- The numbers in the array are as deep, and the array is as long, as may be. -/
theorem value_isBounded_parcel :
    ∃ v next, (value Parcel.context 0 Parcel.type (.fresh 0)).result = .ok (v, next) ∧
      v = .struct [(.text "weights", .array [.int 7, .int 9]), (.text "code", .bytes [1, 2, 3]),
        (.text "label", .string "hi")] ∧ v.IsBounded Parcel.context 0 :=
  ⟨_, _, rfl, rfl, value_isBounded Parcel.context 0 Parcel.type (.fresh 0) rfl⟩

/-- A byte string of three bytes is read under a limit of two. -/
theorem shortBytes_exceed_limit :
    (value Parcel.context 0 .bytes (.fresh 1)).result = .ok (.bytes [1, 2, 3], .fresh 2) ∧
      ¬[1, 2, 3].length ≤ Parcel.context.limits.maxLength :=
  ⟨rfl, by decide⟩

end Decode

end StorageSnapshot

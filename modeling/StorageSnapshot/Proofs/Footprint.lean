-- SUMMARY: The slots that decoding reads, and that it depends on nothing else in a store.
import StorageSnapshot.Decode.MappingPath
import StorageSnapshot.Proofs.Recursion

/-!
# Footprints

What decoding comes to depends on the words at the slots that it reads, and on no other word of the
store. These are the slots of the values it comes to, and the slots of the contents of long byte
strings. Keys of mappings lead to a value without any reads.
-/

namespace StorageSnapshot

/-! ## Spans -/

/-- The words of a span are at slots that are counted on from the first. -/
theorem Store.read_congr {s s' : Store} {slot : Slot} {size : Nat}
    (h : ∀ i, wordSize * i < size → s.word (slot + BitVec.ofNat 256 i : Slot).toNat =
      s'.word (slot + BitVec.ofNat 256 i : Slot).toNat) :
    s.read slot.toNat 0 size = s'.read slot.toNat 0 size := by
  rw [read, read, if_pos ⟨by decide, by decide⟩, if_pos ⟨by decide, by decide⟩,
    ← slot.toNat_mod_count]
  apply readWithin_congr (Nat.lt_succ_self _) (by decide)
  rintro i ⟨hpos, hi⟩
  rw [wordAt, wordAt, ← slot.toNat_add_ofNat]
  apply h
  unfold wordSize at hi ⊢
  rw [Int.toNat_natCast] at hpos hi
  omega

/-- Bytes in front of a cursor are in its word. -/
theorem Store.readBefore_congr {s s' : Store} {c : Cursor} {size : Nat} (hsize : size ≤ c.free)
    (h : s.word c.slot.toNat = s'.word c.slot.toNat) :
    s.readBefore c size = s'.readBefore c size := by
  have hfree := c.free_le
  have hoffset : ((c.free : Int) - size) = ((c.free - size : Nat) : Int) := by omega
  rw [readBefore, readBefore, read, read, hoffset]
  split
  next hin =>
    rw [Int.toNat_natCast, ← c.slot.toNat_mod_count]
    apply readWithin_congr (Nat.lt_succ_self _) (by omega)
    rintro i ⟨hpos, hi⟩
    have hzero : i = 0 := by
      unfold wordSize at hi
      rw [Int.toNat_natCast] at hi
      omega
    rw [hzero, Nat.add_zero, wordAt_toNat, wordAt_toNat]
    exact h
  next => rfl

/-- Whether a type has its value, or a header of it, in the slot itself. -/
def Ty.isInSlot : Ty → Bool
  | .elementary _ | .bytes | .string | .enum .. | .aliasNode .. | .contract .. => true
  | .array _ _ _ length => length.isNone
  | .mapping .. | .struct .. | .aliasOf .. => false

namespace Decode

variable {ctx : Context} {store store' : Store} {t : Ty} {c : Cursor}

/-! ## Packed values -/

theorem packedBytes_congr {size : Nat} (h : store.word c.slot.toNat = store'.word c.slot.toNat) :
    packedBytes store t size c = packedBytes store' t size c := by
  unfold packedBytes
  split
  next => rfl
  next hsize => rw [Store.readBefore_congr (Nat.le_of_not_lt hsize) h]

theorem integer_congr {ints : IntType} (h : store.word c.slot.toNat = store'.word c.slot.toNat) :
    integer store ints c = integer store' ints c := by
  rw [integer, integer, packedBytes_congr h]

theorem address_congr (h : store.word c.slot.toNat = store'.word c.slot.toNat) :
    address store t c = address store' t c := by
  rw [address, address, packedBytes_congr h]

theorem enum_congr {members : List Datum} (h : store.word c.slot.toNat = store'.word c.slot.toNat) :
    enum store members c = enum store' members c := by
  rw [enum, enum, integer_congr h]

theorem elementary_congr {e : Elementary} (h : store.word c.slot.toNat = store'.word c.slot.toNat) :
    elementary store e c = elementary store' e c := by
  unfold elementary bool
  rw [integer_congr h, address_congr h]
  split
  next => rw [integer_congr h]
  next => rfl
  next => rw [packedBytes_congr h]
  next => rfl
  next => rfl

/-! ## The slots that are read -/

/-- Whether the slot of a byte string says that contents of this length are elsewhere. -/
def IsLong (ctx : Context) (c : Cursor) (length : Nat) : Prop :=
  ∃ header, ctx.store.word c.slot.toNat = .ok header ∧ header.toNat % 256 % 2 ≠ 0 ∧
    length = (header.toNat - 1) / 2 ∧ ctx.limits.length.exceededBy length = false

/-- Whether decoding a value reads the word at a slot. -/
inductive Touches (ctx : Context) : (depth : Int) → Ty → Cursor → Slot → Prop
  | slot {depth : Int} {t : Ty} {c : Cursor} (hdepth : depth ≤ ctx.limits.maxDepth)
    (ht : t.isInSlot = true) : Touches ctx depth t c c.slot
  | contents {depth : Int} {t : Ty} {c : Cursor} {length i : Nat}
    (hdepth : depth ≤ ctx.limits.maxDepth) (ht : t = .bytes ∨ t = .string)
    (hlong : IsLong ctx c length) (hi : wordSize * i < length) :
    Touches ctx depth t c (c.slot.contents + BitVec.ofNat 256 i)
  | underlying {depth : Int} {d : Declaration} {t : Ty} {c : Cursor} {x : Slot}
    (h : Touches ctx depth t c x) : Touches ctx depth (.aliasOf d t) c x
  | element {depth : Int} {typeString : Datum} {origin : Origin} {t : Ty} {length : Option Int}
    {c start place : Cursor} {count : Nat} {x : Slot} (hdepth : depth ≤ ctx.limits.maxDepth)
    (hstart : (elementsOf ctx (.array typeString origin t length) length c).result =
      .ok (count, start))
    (hplace : VisitsElement ctx (value ctx (depth + 1)) t count start place)
    (h : Touches ctx (depth + 1) t place x) :
    Touches ctx depth (.array typeString origin t length) c x
  | member {depth : Int} {d : Declaration} {ms : List Member} {t : Ty} {c place : Cursor} {x : Slot}
    (hdepth : depth ≤ ctx.limits.maxDepth)
    (hplace : VisitsMember ctx (value ctx (depth + 1)) ms c t place)
    (h : Touches ctx (depth + 1) t place x) : Touches ctx depth (.struct d ms) c x

/-! ## Decoding -/

theorem byteString_congr (hslot : ctx.store.word c.slot.toNat = store.word c.slot.toNat)
    (hcontents : ∀ length i, IsLong ctx c length → wordSize * i < length →
      ctx.store.word (c.slot.contents + BitVec.ofNat 256 i : Slot).toNat =
        store.word (c.slot.contents + BitVec.ofNat 256 i : Slot).toNat) :
    byteString ctx t c = byteString { ctx with store } t c := by
  unfold byteString
  refine bind_congr fun _ => ?_
  rw [← hslot]
  refine Traced.bind_congr_ok fun header hheader => ?_
  dsimp only
  split
  next => rfl
  next hodd =>
    split
    next => rfl
    next hlimit =>
      have hlong : IsLong ctx c ((header.toNat - 1) / 2) :=
        ⟨header, mapError_eq_ok.1 hheader, hodd, rfl, Bool.eq_false_iff.2 hlimit⟩
      rw [Store.read_congr fun i => hcontents _ i hlong]

theorem elementsOf_congr {length : Option Int}
    (h : length = none → ctx.store.word c.slot.toNat = store.word c.slot.toNat) :
    elementsOf ctx t length c = elementsOf { ctx with store } t length c := by
  cases length with
  | none =>
    unfold elementsOf
    dsimp only
    rw [integer_congr (h rfl)]
  | some n => rfl

/-- A type is decoded alike out of stores that agree on what is read there, if its parts are. -/
theorem atType_congr {depth : Int} (hdepth : depth ≤ ctx.limits.maxDepth) {nested : Nested}
    (hnested : ∀ t c, (∀ x, Touches ctx (depth + 1) t c x →
      ctx.store.word x.toNat = store.word x.toNat) → value ctx (depth + 1) t c = nested t c) :
    ∀ t c, (∀ x, Touches ctx depth t c x → ctx.store.word x.toNat = store.word x.toNat) →
      atType ctx (value ctx (depth + 1)) t c = atType { ctx with store } nested t c
  | .elementary e, c, h => by
    rw [atType, atType, elementary_congr (h _ (.slot hdepth rfl))]
  | .contract .., c, h => by
    rw [atType, atType, address_congr (h _ (.slot hdepth rfl))]
  | .enum .., c, h => by
    rw [atType, atType, enum_congr (h _ (.slot hdepth rfl))]
  | .aliasOf d underlying, c, h => by
    rw [atType, atType,
      atType_congr hdepth hnested underlying c fun x hx => h x (.underlying hx)]
  | .aliasNode d node, c, h => by
    rw [atType, atType]
    refine congrArg _ (bind_congr fun e => ?_)
    rw [elementary_congr (h _ (.slot hdepth rfl))]
  | .bytes, c, h => by
    rw [atType, atType, byteString_congr (h _ (.slot hdepth rfl)) fun length i hlong hi =>
      h _ (.contents hdepth (.inl rfl) hlong hi)]
  | .string, c, h => by
    rw [atType, atType, byteString_congr (h _ (.slot hdepth rfl)) fun length i hlong hi =>
      h _ (.contents hdepth (.inr rfl) hlong hi)]
  | .array typeString origin element length, c, h => by
    rw [atType, atType, array, array, ← elementsOf_congr fun hnone =>
      h _ (.slot hdepth (by rw [Ty.isInSlot, hnone]; rfl))]
    refine congrArg _ (Traced.bind_congr_ok fun start hstart => ?_)
    refine congrArg (· >>= _) (elements_congr (fun place hplace => ?_) _)
    exact hnested element place fun x hx => h x (.element hdepth hstart hplace hx)
  | .struct d ms, c, h => by
    rw [atType, atType, struct, struct]
    refine congrArg _ (bind_congr fun _ => ?_)
    refine congrArg (· >>= _) (fields_congr (fun t place hplace => ?_) _)
    exact hnested t place fun x hx => h x (.member hdepth hplace hx)
  | .mapping .., c, h => rfl

/-- Stores that agree on the slots that decoding reads have the same value, by induction on the
levels that are left. -/
theorem value_congr (depth : Int) (t : Ty) (c : Cursor)
    (h : ∀ x, Touches ctx depth t c x → ctx.store.word x.toNat = store.word x.toNat) :
    value ctx depth t c = value { ctx with store } depth t c := by
  induction depth using level_induction ctx generalizing t c with
  | tooDeep depth hdeep =>
    calc value ctx depth t c
        = tooDeep ctx t c := value_eq_tooDeep hdeep t c
      _ = tooDeep { ctx with store } t c := rfl
      _ = value { ctx with store } depth t c :=
        (@value_eq_tooDeep { ctx with store } depth hdeep t c).symm
  | level depth hdepth ih =>
    calc value ctx depth t c
        = atType ctx (value ctx (depth + 1)) t c := value_eq_atType hdepth t c
      _ = atType { ctx with store } (value { ctx with store } (depth + 1)) t c :=
        atType_congr hdepth ih t c h
      _ = value { ctx with store } depth t c :=
        (@value_eq_atType { ctx with store } depth hdepth t c).symm

/-! ## Entries of mappings -/

/-- Whether decoding the value for a path of keys reads the word at a slot. -/
def TouchesEntry (ctx : Context) (t : Ty) (c : Cursor) (keys : List Datum) (x : Slot) : Prop :=
  ∃ u place, (followKeys ctx t c keys).result = .ok (u, place) ∧
    Touches ctx keys.length u place x

/-- Keys are followed without a store. -/
theorem followKeys_congr (ctx : Context) (store : Store) (t : Ty) (c : Cursor) (keys : List Datum) :
    followKeys ctx t c keys = followKeys { ctx with store } t c keys := by
  induction keys generalizing t c with
  | nil => cases t <;> rfl
  | cons key keys ih =>
    cases t with
    | mapping typeString origin keyType value => exact bind_congr fun place => ih value place
    | _ => rfl

theorem mappingPath_congr (t : Ty) (c : Cursor) (keys : List Datum)
    (h : ∀ x, TouchesEntry ctx t c keys x → ctx.store.word x.toNat = store.word x.toNat) :
    mappingPath ctx t c keys = mappingPath { ctx with store } t c keys := by
  unfold mappingPath mappingPathBy
  refine bind_congr fun _ => bind_congr fun _ => ?_
  rw [← followKeys_congr ctx store]
  refine Traced.bind_congr_ok fun entry hentry => congrArg (· >>= _) ?_
  exact value_congr _ _ _ fun x hx => h x ⟨entry.1, entry.2, hentry, hx⟩

end Decode

end StorageSnapshot

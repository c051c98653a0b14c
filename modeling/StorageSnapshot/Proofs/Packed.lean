-- SUMMARY: Decoding packed values: when it yields a value, which one, and where it leads.
import StorageSnapshot.Proofs.Store
import StorageSnapshot.Proofs.WellFormed

/-!
# Packed values

A packed value is decoded from the bytes in front of the cursor alone, and the cursor consumes as
many bytes as its type takes. If these bytes can be read there is a value.
-/

namespace StorageSnapshot

/-- Bytes in front of a cursor that can be read, and the cursor behind them. -/
structure Store.Packs (s : Store) (c : Cursor) (raw : Bytes) (next : Cursor) : Prop where
  length_le : raw.length ≤ c.free
  read : s.readBefore c raw.length = .ok raw
  advance : c.advance raw.length = .ok next

/-- Bytes that a word has in front of a cursor can be read. -/
theorem Store.packs_of_word {s : Store} {c : Cursor} {raw w : Bytes} (hpos : 0 < raw.length)
    (hle : raw.length ≤ c.free) (hw : s.wordAt c.slot.toNat = .ok w)
    (hraw : (w.drop (c.free - raw.length)).take raw.length = raw) :
    ∃ next, s.Packs c raw next := by
  obtain ⟨next, hnext⟩ := Cursor.advance_ok hle
  exact ⟨next, hle, by rw [Store.readBefore_eq hpos hle hw, hraw], hnext⟩

/-- In a store whose words fit all bytes can be read. -/
theorem Store.WordsFit.packs {s : Store} (hs : s.WordsFit) {c : Cursor} {size : Nat}
    (hpos : 0 < size) (hle : size ≤ c.free) :
    ∃ raw next, raw.length = size ∧ s.Packs c raw next := by
  obtain ⟨w, hw⟩ := hs.wordAt_ok c.slot.toNat
  have hfree := c.free_le
  obtain ⟨raw, hraw⟩ : ∃ raw, raw = (w.drop (c.free - size)).take size := ⟨_, rfl⟩
  have hlength : raw.length = size := by
    have : w.length = 32 := Store.length_wordAt hw
    simp [hraw]
    omega
  have hpos' : 0 < raw.length := by omega
  obtain ⟨next, hnext⟩ := Store.packs_of_word hpos' (by omega) hw (by rw [hlength, hraw])
  exact ⟨raw, next, hlength, hnext⟩

namespace Decode

variable {store : Store} {c next : Cursor}

/-! ## Bytes and integers -/

theorem packedBytes_eq_ok {type : Ty} {size : Nat} {raw : Bytes}
    (h : packedBytes store type size c = .ok (raw, next)) : c.advance size = .ok next := by
  unfold packedBytes at h
  split at h
  next => cases h
  next =>
    obtain ⟨-, -, h⟩ := bind_eq_ok.1 h
    obtain ⟨raw', -, h⟩ := bind_eq_ok.1 h
    obtain ⟨next', hnext, h⟩ := bind_eq_ok.1 h
    simp only [pure, Except.pure, Except.ok.injEq, Prod.mk.injEq] at h
    rw [← h.2]
    cases hadv : c.advance size with
    | ok place =>
      rw [hadv] at hnext
      simpa [Fault.place] using hnext
    | error e =>
      rw [hadv] at hnext
      cases hnext

theorem packedBytes_ok {raw : Bytes} (h : store.Packs c raw next) (type : Ty) :
    packedBytes store type raw.length c = .ok (raw, next) := by
  rw [packedBytes, if_neg (Nat.not_lt.2 h.length_le), h.read, h.advance]
  rfl

theorem integer_eq_ok {t : IntType} {n : Int} (h : integer store t c = .ok (n, next)) :
    c.advance t.size = .ok next := by
  unfold integer at h
  obtain ⟨⟨raw, next'⟩, hraw, h⟩ := bind_eq_ok.1 h
  dsimp only at h
  split at h
  next =>
    simp only [pure, Except.pure, Except.ok.injEq, Prod.mk.injEq] at h
    rw [← h.2]
    exact packedBytes_eq_ok hraw
  next => cases h

/-- The range check of an integer never fails. -/
theorem integer_ok {t : IntType} {raw : Bytes} (h : store.Packs c raw next)
    (hlength : raw.length = t.size) :
    integer store t c = .ok (integerOfBytes t raw, next) := by
  rw [integer, ← hlength, packedBytes_ok h, ok_bind]
  dsimp only
  rw [if_pos (fits_integerOfBytes hlength)]
  rfl

theorem address_eq_ok {type : Ty} {v : Value} (h : address store type c = .ok (v, next)) :
    c.advance addressSize = .ok next := by
  unfold address at h
  obtain ⟨⟨raw, next'⟩, hraw, h⟩ := bind_eq_ok.1 h
  dsimp only at h
  split at h
  next =>
    simp only [pure, Except.pure, Except.ok.injEq, Prod.mk.injEq] at h
    rw [← h.2]
    exact packedBytes_eq_ok hraw
  next => cases h

theorem address_ok (type : Ty) {a : Address} (h : store.Packs c a.bytes next) :
    address store type c = .ok (.address a, next) := by
  have hlength : a.bytes.length = addressSize := a.length_bytes
  have hofBytes : Address.ofBytes a.bytes = .ok a := by rw [Address.ofBytes, dif_pos a.length_bytes]
  rw [address, ← hlength, packedBytes_ok h, ok_bind]
  dsimp only
  rw [hofBytes]
  rfl

/-! ## Values -/

theorem enum_eq_ok {members : List Datum} {v : Value}
    (h : enum store members c = .ok (v, next)) :
    c.advance (Ty.ordinals members).size = .ok next := by
  unfold enum at h
  obtain ⟨⟨n, next'⟩, hn, h⟩ := bind_eq_ok.1 h
  simp only [pure, Except.pure, Except.ok.injEq, Prod.mk.injEq] at h
  rw [← h.2]
  exact integer_eq_ok hn

theorem enum_ok {members : List Datum} {raw : Bytes} (h : store.Packs c raw next)
    (hlength : raw.length = (Ty.ordinals members).size) :
    enum store members c =
      .ok (.enum (integerOfBytes (Ty.ordinals members) raw)
        (Ty.memberAt? members (integerOfBytes (Ty.ordinals members) raw).toNat), next) := by
  rw [enum, integer_ok h hlength]
  rfl

theorem elementary_eq_ok {e : Elementary} {v : Value}
    (h : elementary store e c = .ok (v, next)) :
    ∃ size, Resolver.sizeOfShape? e.shape = some size ∧ c.advance size = .ok next := by
  unfold elementary at h
  cases hshape : e.shape with
  | int t =>
    simp only [hshape] at h
    obtain ⟨⟨n, next'⟩, hn, h⟩ := bind_eq_ok.1 h
    simp only [pure, Except.pure, Except.ok.injEq, Prod.mk.injEq] at h
    exact ⟨t.size, rfl, h.2 ▸ integer_eq_ok hn⟩
  | bool =>
    simp only [hshape, bool] at h
    obtain ⟨⟨n, next'⟩, hn, h⟩ := bind_eq_ok.1 h
    simp only [pure, Except.pure, Except.ok.injEq, Prod.mk.injEq] at h
    exact ⟨1, rfl, h.2 ▸ integer_eq_ok hn⟩
  | fixedBytes size =>
    simp only [hshape] at h
    obtain ⟨⟨raw, next'⟩, hraw, h⟩ := bind_eq_ok.1 h
    simp only [pure, Except.pure, Except.ok.injEq, Prod.mk.injEq] at h
    exact ⟨size, rfl, h.2 ▸ packedBytes_eq_ok hraw⟩
  | address =>
    simp only [hshape] at h
    exact ⟨addressSize, rfl, address_eq_ok h⟩
  | bare =>
    simp only [hshape] at h
    cases h

/-- What the bytes of an elementary type stand for. -/
inductive Reads (raw : Bytes) : Shape → Value → Prop
  | int (t : IntType) : Reads raw (.int t) (.int (integerOfBytes t raw))
  | bool : Reads raw .bool (.bool (integerOfBytes .uint8 raw != 0))
  | fixedBytes (size : Nat) : Reads raw (.fixedBytes size) (.fixedBytes raw)
  | address (a : Address) (h : a.bytes = raw) : Reads raw .address (.address a)

theorem exists_reads {s : Shape} {raw : Bytes} {size : Nat}
    (hsize : Resolver.sizeOfShape? s = some size) (h : raw.length = size) :
    ∃ v, Reads raw s v := by
  cases s with
  | int t => exact ⟨_, .int t⟩
  | bool => exact ⟨_, .bool⟩
  | fixedBytes size => exact ⟨_, .fixedBytes size⟩
  | address =>
    cases hsize
    exact ⟨.address ⟨raw, h⟩, .address ⟨raw, h⟩ rfl⟩
  | bare => cases hsize

/-- An elementary value that can be read is decoded. -/
theorem elementary_ok {e : Elementary} {raw : Bytes} {v : Value} (h : store.Packs c raw next)
    (hsize : Resolver.sizeOfShape? e.shape = some raw.length) (hv : Reads raw e.shape v) :
    elementary store e c = .ok (v, next) := by
  unfold elementary
  generalize e.shape = s at hsize hv
  cases hv with
  | int t =>
    simp only [Resolver.sizeOfShape?, Option.some.injEq] at hsize
    dsimp only
    rw [integer_ok h hsize.symm]
    rfl
  | bool =>
    simp only [Resolver.sizeOfShape?, Option.some.injEq] at hsize
    dsimp only
    rw [bool, integer_ok h hsize.symm]
    rfl
  | fixedBytes size =>
    simp only [Resolver.sizeOfShape?, Option.some.injEq] at hsize
    subst hsize
    dsimp only
    rw [packedBytes_ok h]
    rfl
  | address a ha =>
    subst ha
    exact address_ok (.elementary e) h

end Decode

end StorageSnapshot

-- SUMMARY: Where the next value starts, whatever the store holds and the limits admit.
import StorageSnapshot.Proofs.Moves

/-!
# The next place

The place behind a value depends on its type and its own place alone. Two runs over different
stores, under different limits and at different depths may differ in all that they read, and go on
at the same place if both have a value. What follows a value of a pointer type is a fresh word.
-/

namespace StorageSnapshot.Decode

variable {store store' : Store} {resolver : Resolver} {limits limits' : Limits}
  {nested nested' deeper deeper' : Nested} {c next : Cursor}

/-! ## Two runs -/

/-- Whether two outcomes lead to the same place if both have a value. -/
def SamePlace {α β : Type} (a : Except Halt (Decoded α)) (b : Except Halt (Decoded β)) : Prop :=
  ∀ v w c d, a = .ok (v, c) → b = .ok (w, d) → c = d

namespace SamePlace

variable {α β α' β' γ : Type}

/-- Two runs that consume the same bytes of a word. -/
theorem of_advance {a : Except Halt (Decoded α)} {b : Except Halt (Decoded β)} {size : Nat}
    (ha : ∀ v next, a = .ok (v, next) → c.advance size = .ok next)
    (hb : ∀ w next, b = .ok (w, next) → c.advance size = .ok next) : SamePlace a b := by
  intro v w next next' hv hw
  have hnext := (ha v next hv).symm.trans (hb w next' hw)
  rwa [Except.ok.injEq] at hnext

/-- Two runs that both end at a place that is known beforehand. -/
theorem of_eq (next : Cursor) {a : Except Halt (Decoded α)} {b : Except Halt (Decoded β)}
    (ha : ∀ v place, a = .ok (v, place) → place = next)
    (hb : ∀ w place, b = .ok (w, place) → place = next) : SamePlace a b := by
  intro v w place place' hv hw
  rw [ha v place hv, hb w place' hw]

/-- Two runs that have taken the same step. -/
theorem bind_same {x : Except Halt γ} {f : γ → Except Halt (Decoded α)}
    {g : γ → Except Halt (Decoded β)} (h : ∀ y, SamePlace (f y) (g y)) :
    SamePlace (x >>= f) (x >>= g) := by
  intro v w c d hv hw
  obtain ⟨y, hy, hv⟩ := bind_eq_ok.1 hv
  obtain ⟨y', hy', hw⟩ := bind_eq_ok.1 hw
  rw [hy, Except.ok.injEq] at hy'
  exact h y v w c d hv (hy' ▸ hw)

/-- Two runs that go on from values at the same place. -/
theorem bind {a : Except Halt (Decoded α)} {b : Except Halt (Decoded β)}
    {f : Decoded α → Except Halt (Decoded α')} {g : Decoded β → Except Halt (Decoded β')}
    (h : SamePlace a b) (hfg : ∀ v w c, SamePlace (f (v, c)) (g (w, c))) :
    SamePlace (a >>= f) (b >>= g) := by
  intro v w c d hv hw
  obtain ⟨⟨v', place⟩, hv', hv⟩ := bind_eq_ok.1 hv
  obtain ⟨⟨w', place'⟩, hw', hw⟩ := bind_eq_ok.1 hw
  have hplace := h v' w' place place' hv' hw'
  subst hplace
  exact hfg v' w' place v w c d hv hw

theorem entering {a b : Decoding (Decoded Value)} (h : SamePlace a.result b.result) (t : Ty)
    (c : Cursor) : SamePlace (entering t c a).result (entering t c b).result := by
  intro v w next next' hv hw
  exact h v w next next' (result_entering_eq_ok hv) (result_entering_eq_ok hw)

/-! ## Value types -/

theorem elementary (e : Elementary) (c : Cursor) :
    SamePlace (stepExcept (elementary store e c)).result
      (stepExcept (elementary store' e c)).result := by
  intro v w next next' hv hw
  rw [result_stepExcept, mapError_eq_ok] at hv hw
  obtain ⟨size, hsize, hnext⟩ := elementary_eq_ok hv
  obtain ⟨size', hsize', hnext'⟩ := elementary_eq_ok hw
  rw [hsize, Option.some.injEq] at hsize'
  subst hsize'
  rw [hnext, Except.ok.injEq] at hnext'
  exact hnext'

/-! ## Members and levels -/

/-- Each member starts at the same place in both runs, so the next one does. -/
theorem fields
    (h : ∀ t c, SamePlace (nested t c).result (nested' t c).result) (ms : List Member)
    (c : Cursor) :
    SamePlace (fields ⟨store, resolver, limits⟩ nested [] ms c).result
      (fields ⟨store', resolver, limits'⟩ nested' [] ms c).result := by
  induction ms generalizing c with
  | nil =>
    rw [result_fields_nil, result_fields_nil]
    exact of_eq c (by simp) (by simp)
  | cons m ms ih =>
    rw [result_fields_cons, result_fields_cons]
    refine bind_same fun type => bind_same fun place => bind (h type place) fun v w next => ?_
    exact bind (ih next) fun fs gs last => of_eq last (by simp) (by simp)

theorem struct (h : ∀ t c, SamePlace (nested t c).result (nested' t c).result) (t : Ty)
    (ms : List Member) (c : Cursor) :
    SamePlace (struct ⟨store, resolver, limits⟩ nested t ms c).result
      (struct ⟨store', resolver, limits'⟩ nested' t ms c).result := by
  simp only [Decode.struct, Traced.result_bind]
  refine bind_same fun _ => bind (fields h ms c) fun fs gs last => ?_
  exact of_eq last.roundUp (by simp) (by simp)

end SamePlace

/-- What follows an array starts at the word behind its slot. -/
theorem array_eq_ok {ctx : Context} {type element : Ty} {length : Option Int} {v : Value}
    (h : (array ctx nested type element length c).result = .ok (v, next)) : next = c.nextWord := by
  rw [result_array] at h
  obtain ⟨start, -, h⟩ := bind_eq_ok.1 h
  obtain ⟨vs, -, h⟩ := bind_eq_ok.1 h
  simp only [Except.ok.injEq, Prod.mk.injEq] at h
  exact h.2.symm

theorem struct_eq_ok {ctx : Context} {type : Ty} {ms : List Member} {v : Value}
    (h : (struct ctx nested type ms c).result = .ok (v, next)) : next.isFresh = true := by
  simp only [struct, Traced.result_bind] at h
  obtain ⟨-, -, h⟩ := bind_eq_ok.1 h
  obtain ⟨⟨fs, last⟩, -, h⟩ := bind_eq_ok.1 h
  simp only [Traced.result_pure, Except.ok.injEq, Prod.mk.injEq] at h
  rw [← h.2]
  exact last.isFresh_roundUp

/-- What follows a byte string starts at the word behind its slot, whatever is made of its bytes. -/
private theorem byteString_bind_eq_ok {ctx : Context} {t : Ty} (make : Bytes → Value) {v : Value}
    (h : (byteString ctx t c >>= fun a => pure (make a.1, a.2) : Decoding (Decoded Value)).result =
      .ok (v, next)) : next = c.nextWord := by
  rw [Traced.result_bind] at h
  obtain ⟨⟨raw, place⟩, hraw, h⟩ := bind_eq_ok.1 h
  simp only [Traced.result_pure, Except.ok.injEq, Prod.mk.injEq] at h
  rw [← h.2]
  exact byteString_eq_ok hraw

/-- A type leads to the same place if its parts do. -/
theorem SamePlace.atType (h : ∀ t c, SamePlace (nested t c).result (nested' t c).result) :
    ∀ t c, SamePlace (atType ⟨store, resolver, limits⟩ nested t c).result
      (atType ⟨store', resolver, limits'⟩ nested' t c).result
  | .elementary e, c => (SamePlace.elementary e c).entering _ c
  | .contract .., c =>
    entering (of_advance (fun _ _ h => address_eq_ok (mapError_eq_ok.1 h))
      fun _ _ h => address_eq_ok (mapError_eq_ok.1 h)) _ c
  | .enum .., c =>
    entering (of_advance (fun _ _ h => enum_eq_ok (mapError_eq_ok.1 h))
      fun _ _ h => enum_eq_ok (mapError_eq_ok.1 h)) _ c
  | .aliasOf d underlying, c => by
    rw [Decode.atType, Decode.atType]
    exact (atType h underlying c).entering _ c
  | .aliasNode d node, c => by
    refine entering ?_ _ c
    rw [Traced.result_bind, Traced.result_bind]
    exact bind_same fun e => (SamePlace.elementary e c).entering _ c
  | .bytes, c =>
    entering (of_eq c.nextWord (fun _ _ => byteString_bind_eq_ok .bytes)
      fun _ _ => byteString_bind_eq_ok .bytes) _ c
  | .string, c =>
    entering (of_eq c.nextWord
      (fun _ _ => byteString_bind_eq_ok fun raw => .string (Text.decodeUtf8 raw))
      fun _ _ => byteString_bind_eq_ok fun raw => .string (Text.decodeUtf8 raw)) _ c
  | .array .., c => entering (of_eq c.nextWord (fun _ _ => array_eq_ok) fun _ _ => array_eq_ok) _ c
  | .struct _ ms, c => (SamePlace.struct h _ ms c).entering _ c
  | .mapping .., c => entering (fun _ _ _ _ h => by cases h) _ c

/-- The induction is on the levels of one run. A run that has no level left has no value. -/
theorem SamePlace.within (hdeeper : ∀ t c a, (deeper t c).result ≠ .ok a)
    (hdeeper' : ∀ t c a, (deeper' t c).result ≠ .ok a) (budget budget' : Nat) (t : Ty)
    (c : Cursor) :
    SamePlace (within ⟨store, resolver, limits⟩ deeper budget t c).result
      (within ⟨store', resolver, limits'⟩ deeper' budget' t c).result := by
  induction budget generalizing budget' t c with
  | zero => exact fun v _ next _ hv _ => absurd hv (hdeeper t c (v, next))
  | succ budget ih =>
    cases budget' with
    | zero => exact fun _ w _ next _ hw => absurd hw (hdeeper' t c (w, next))
    | succ budget' => exact atType (fun t c => ih budget' t c) t c

/-! ## Pointer types -/

/-- What follows a value of a pointer type starts at a fresh word. -/
theorem isFresh_of_atType {ctx : Context} {t : Ty} (hpointer : t.isPointer = true) {v : Value}
    (h : (atType ctx nested t c).result = .ok (v, next)) : next.isFresh = true := by
  cases t with
  | elementary | contract | enum | aliasOf | aliasNode => cases hpointer
  | bytes =>
    rw [byteString_bind_eq_ok .bytes (result_entering_eq_ok h)]
    exact c.isFresh_nextWord
  | string =>
    rw [byteString_bind_eq_ok (fun raw => .string (Text.decodeUtf8 raw)) (result_entering_eq_ok h)]
    exact c.isFresh_nextWord
  | array =>
    rw [array_eq_ok (result_entering_eq_ok h)]
    exact c.isFresh_nextWord
  | struct => exact struct_eq_ok (result_entering_eq_ok h)
  | mapping => cases result_entering_eq_ok h

theorem isFresh_of_value {ctx : Context} {depth : Int} {t : Ty} (hpointer : t.isPointer = true)
    {v : Value} (h : (value ctx depth t c).result = .ok (v, next)) : next.isFresh = true := by
  rw [value] at h
  cases hbudget : budget ctx depth with
  | zero =>
    rw [hbudget] at h
    exact absurd h (result_tooDeep_ne_ok t c _)
  | succ levels =>
    rw [hbudget] at h
    exact isFresh_of_atType hpointer h

/--
Where the next value starts does not depend on what storage holds: two runs that decode a type at a
place, over any two stores, under any limits and at any depths, lead to the same place if both have
a value. Behind a value of a pointer type that is the start of a word.
-/
theorem next_place_eq (t : Ty) (c : Cursor) {depth depth' : Int} {v v' : Value}
    {next next' : Cursor}
    (h : (value ⟨store, resolver, limits⟩ depth t c).result = .ok (v, next))
    (h' : (value ⟨store', resolver, limits'⟩ depth' t c).result = .ok (v', next')) :
    next = next' ∧ (t.isPointer = true → next.isFresh = true) := by
  refine ⟨?_, fun hpointer => isFresh_of_value hpointer h⟩
  exact SamePlace.within result_tooDeep_ne_ok result_tooDeep_ne_ok _ _ t c v v' next next' h h'

/-! ## Contents that come and go -/

namespace Titles

def type : Ty := .array (.text "string[2]") ⟨none, .int 0⟩ .string (some 2)

def blank : Context := ⟨{}, .plain, {}⟩

/-- The second title stands behind the last slot. -/
def written : Context where
  store := { words := [(0, [0x68, 0x69] ++ Bytes.zeros 29 ++ [4])] }
  resolver := .plain
  limits := ⟨.ofNat 2, .ofNat 9⟩

end Titles

/-- What follows two titles does not move when one of them is written. -/
theorem next_place_eq_titles :
    ∃ next next', (value Titles.blank 0 Titles.type (.fresh (BitVec.allOnes 256))).result =
        .ok (.array [.string "", .string ""], next) ∧
      (value Titles.written 8 Titles.type (.fresh (BitVec.allOnes 256))).result =
        .ok (.array [.string "", .string "hi"], next') ∧
      next = next' ∧ (Titles.type.isPointer = true → next.isFresh = true) := by
  have hblank : (value Titles.blank 0 Titles.type (.fresh (BitVec.allOnes 256))).result =
      .ok (.array [.string "", .string ""], .fresh 0) := rfl
  have hwritten : (value Titles.written 8 Titles.type (.fresh (BitVec.allOnes 256))).result =
      .ok (.array [.string "", .string "hi"], .fresh 0) := rfl
  have hplaces := next_place_eq Titles.type (.fresh (BitVec.allOnes 256)) hblank hwritten
  exact ⟨_, _, hblank, hwritten, hplaces⟩

end StorageSnapshot.Decode

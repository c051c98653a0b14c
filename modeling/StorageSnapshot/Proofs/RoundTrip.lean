-- SUMMARY: Decoding undoes the compiler's encoding.
import StorageSnapshot.Proofs.Array
import StorageSnapshot.Proofs.Depth
import StorageSnapshot.Proofs.Encoding

/-!
# Round trips

What a store holds is what decoding finds in it, if the limits admit it. The proof is by induction
on the type. A part of a value is decoded at the cursor that the parts in front of it lead to, and
they lead to the position that the encoding gives to it.
-/

namespace StorageSnapshot

variable {nodes : Datum → Prop} {r : Resolver} {s : Store} {t : Ty} {p : Position} {c next : Cursor}
  {v : Value} {raw : Bytes}

/-! ## Bytes -/

/-- A cursor with bytes left stands in the word of its position. -/
theorem Position.At.slot_eq_ofNat (h : p.At 0 c) (hused : p.used < wordSize) :
    c.slot = BitVec.ofNat 256 p.slot := by
  have hslot := h.slot_eq
  rwa [Nat.div_eq_of_lt hused, Nat.add_zero, show (0 : Slot) = 0#256 from rfl,
    BitVec.zero_add] at hslot

theorem Position.At.wordAt_eq (h : p.At 0 c) (hused : p.used < wordSize) (s : Store) :
    s.wordAt c.slot.toNat = s.wordAt p.slot := by
  rw [h.slot_eq_ofNat hused, Slot.toNat_ofNat, Store.wordAt, Nat.mod_mod, ← Store.wordAt]

theorem Store.HoldsPacked.packs (h : s.HoldsPacked p raw) (hpos : 0 < raw.length)
    (hc : p.At 0 c) : ∃ next, s.Packs c raw next := by
  obtain ⟨hroom, w, hw, hraw⟩ := h
  have hused : p.used < wordSize := by omega
  have hfree := hc.free_eq
  rw [Nat.mod_eq_of_lt hused] at hfree
  rw [← hc.wordAt_eq hused] at hw
  rw [← hfree] at hraw
  exact Store.packs_of_word hpos (by omega) hw hraw

/-! ## Enums -/

private theorem lt_count_bytesBelow {n count : Nat} (h : n < count) :
    n < Bytes.count (Ty.bytesBelow count) := by
  have hle : n ≤ count - 1 := by omega
  rw [Bytes.count_eq_two_pow]
  calc n ≤ count - 1 := hle
    _ < 2 ^ (Nat.log2 (count - 1) + 1) := Nat.lt_log2_self
    _ ≤ 2 ^ (8 * Ty.bytesBelow count) := by
      apply Nat.pow_le_pow_right (by decide)
      simp only [Ty.bytesBelow]
      omega

/-- The ordinals of an enum are integers of its type. -/
theorem Ty.ordinals_fits {members : List Datum} (hmembers : members.length ≤ Slot.count) {n : Nat}
    (h : n < members.length) : (Ty.ordinals members).fits n = true := by
  have hcount : n < (Ty.ordinals members).count := by
    change n < Bytes.count (min 32 (Ty.bytesBelow members.length))
    rcases Nat.le_total 32 (Ty.bytesBelow members.length) with hle | hle
    · rw [Nat.min_eq_left hle]
      exact Nat.lt_of_lt_of_le h hmembers
    · rw [Nat.min_eq_right hle]
      exact lt_count_bytesBelow h
  rw [IntType.fits_iff, IntType.minValue, IntType.maxValue]
  have hsigned : (Ty.ordinals members).signed = false := rfl
  simp only [hsigned, Bool.false_eq_true, if_false]
  omega

/-! ## Value types -/

/-- An elementary value is decoded where it is held. -/
theorem Shape.Holds.elementary_ok {e : Elementary} (he : e.shape.IsSized)
    (h : e.shape.Holds s p v) (hc : p.At 0 c) :
    ∃ next, Decode.elementary s e c = .ok (v, next) := by
  generalize hshape : e.shape = shape at he h
  cases shape with
  | int t =>
    obtain ⟨n, rfl, hfits, hraw⟩ := h
    obtain ⟨next, hpacks⟩ := hraw.packs (by simp [t.size_pos]) hc
    refine ⟨next, Decode.elementary_ok hpacks (by simp [hshape, Resolver.sizeOfShape?]) ?_⟩
    have hreads : Decode.Reads (t.encode n) (.int t)
        (.int (Decode.integerOfBytes t (t.encode n))) := .int t
    rwa [Decode.integerOfBytes_encode hfits, ← hshape] at hreads
  | bool =>
    obtain ⟨b, rfl, hraw⟩ := h
    obtain ⟨next, hpacks⟩ := hraw.packs Nat.one_pos hc
    refine ⟨next, Decode.elementary_ok hpacks (by simp [hshape, Resolver.sizeOfShape?]) ?_⟩
    have hbit : (Decode.integerOfBytes .uint8 [if b then 1 else 0] != 0) = b := by
      cases b <;> rfl
    have hreads : Decode.Reads [if b then 1 else 0] .bool (.bool _) := .bool
    rwa [hbit, ← hshape] at hreads
  | fixedBytes size =>
    obtain ⟨raw, rfl, hlength, hraw⟩ := h
    obtain ⟨next, hpacks⟩ := hraw.packs (by rw [hlength]; exact he.1) hc
    refine ⟨next, Decode.elementary_ok hpacks (by simp [hshape, Resolver.sizeOfShape?, hlength]) ?_⟩
    exact hshape ▸ .fixedBytes size
  | address =>
    obtain ⟨a, rfl, hraw⟩ := h
    have hlength := a.length_bytes
    obtain ⟨next, hpacks⟩ := hraw.packs (by omega) hc
    refine ⟨next, Decode.elementary_ok hpacks ?_ ?_⟩
    · rw [hshape, hlength]
      rfl
    · exact hshape ▸ .address a rfl
  | bare => exact he.elim

/-! ## Spaces -/

/-- The sizes of value types are known if their aliases resolve. -/
theorem Ty.Storable.sizeOf_ok (hr : r.Resolves nodes) :
    ∀ {t : Ty}, t.Storable r → t.WellFormed nodes → t.isPointer = false →
      ∃ size, (r.sizeOf t).result = .ok size
  | .elementary e, _, ht, _ => by
    obtain ⟨size, hsize, -⟩ := Shape.IsSized.size (s := e.shape) ht
    exact ⟨size, Resolver.result_sizeOfElementary hsize⟩
  | .contract .., _, _, _ | .enum .., _, _, _ => ⟨_, rfl⟩
  | .aliasOf _ underlying, h, ht, _ => Ty.Storable.sizeOf_ok hr (t := underlying) h ht.2.2 ht.2.1
  | .aliasNode d node, ⟨e, he⟩, ht, _ => by
    rcases hr.elementaryOfAlias ht.1 ht.2 with ⟨e', he', hsized⟩ | ⟨f, hf⟩
    · obtain ⟨size, hsize, -⟩ := hsized.size
      refine ⟨size, ?_⟩
      rw [Resolver.sizeOf, Traced.result_bind, he', ok_bind, Resolver.result_sizeOfElementary hsize]
    · rw [he] at hf
      cases hf
  | .bytes, _, _, h | .string, _, _, h | .mapping .., _, _, h | .array .., _, _, h
  | .struct .., _, _, h => by cases h

/-- A value that comes behind a word that is all there starts with it. -/
theorem Space.start_of_used_zero {space : Space} (hsized : space.IsSized) (hused : p.used = 0) :
    space.start p = p := by
  cases space with
  | bytes size =>
    rw [Space.start, hused, Nat.zero_add, if_pos hsized.2]
  | words count => rw [Space.start, Position.freshWord, if_pos hused]

theorem Resolver.takes_spaceOf (h : t.isPointer = false) {size : Nat}
    (hsize : (r.sizeOf t).result = .ok size) : Takes r t (r.spaceOf t) := by
  rw [Resolver.spaceOf, hsize]
  exact .value h hsize

mutual

/-- The compiler gives a type the space that decoding passes over. -/
theorem Ty.takes_space (hr : r.Resolves nodes) :
    ∀ {t : Ty}, t.WellFormed nodes → t.Storable r → t.FillsWord r → Takes r t (t.space r)
  | .bytes, _, _, _ => .bytes
  | .string, _, _, _ => .string
  | .mapping .., _, _, _ => .mapping
  | .array _ _ _ none, _, _, _ => .array
  | .array typeString origin element (some length), _, _, hfills => by
    have hone : (Ty.array typeString origin element (some length)).space r = .words 1 :=
      congrArg Space.words (Nat.max_eq_left hfills)
    rw [hone]
    exact .array
  | .struct _ ms, ht, hs, _ => .struct (Member.ends_allBehind hr ms ht.2 hs ⟨0, 0⟩)
  | .elementary _, ht, hs, _ | .contract .., ht, hs, _ | .enum .., ht, hs, _
  | .aliasOf .., ht, hs, _ | .aliasNode .., ht, hs, _ => by
    obtain ⟨size, hsize⟩ := hs.sizeOf_ok hr ht rfl
    exact Resolver.takes_spaceOf rfl hsize

theorem Member.ends_allBehind (hr : r.Resolves nodes) :
    ∀ ms : List Member, Member.AllWellFormed nodes ms → Member.AllStorable r ms →
      ∀ p, Ends r p ms (Member.allBehind r ms p)
  | [], _, _, _ => .nil
  | .attached _ type :: ms, ht, hs, _ =>
    .cons rfl (Ty.takes_space hr (t := type) ht.1 hs.1.1 hs.1.2)
      (Member.ends_allBehind hr ms ht.2 hs.2 _)
  | .node .. :: _, _, hs, _ => hs.1.elim

end

/-- An array is passed with the word of its slot, other values with the space that they take. -/
theorem Ty.takes_passed (hr : r.Resolves nodes) (ht : t.WellFormed nodes) (hs : t.Storable r) :
    Takes r t (t.passed r) := by
  cases t with
  | array => exact .array
  | _ => exact Ty.takes_space hr ht hs trivial

/-- The elements that a store holds of an array are as many as decoding finds there, from the same
place on. -/
theorem Ty.Holds.spans {typeString : Datum} {origin : Origin} {element : Ty} {length : Option Int}
    {slot : Slot} (hc : p.At 0 (.fresh slot)) (hused : p.used = 0)
    (hv : (Ty.array typeString origin element length).Holds r s p v) :
    ∃ vs base q, v = .array vs ∧ Spans s slot length vs.length base ∧
      Row (element.Holds r s) (element.space r) q vs ∧ q.used = 0 ∧ q.At 0 (.fresh base) := by
  have hlt : p.used < wordSize := by rw [hused]; decide
  cases length with
  | none =>
    obtain ⟨vs, rfl, ⟨w, hw, hlength⟩, hrow⟩ := hv
    refine ⟨vs, slot.contents, ⟨Store.contentsOf p.slot, 0⟩, rfl, ?_, hrow, rfl, ?_⟩
    · rw [← hlength]
      exact .dynamic ((hc.wordAt_eq hlt s).trans hw)
    · have hslot : slot = BitVec.ofNat 256 p.slot := hc.slot_eq_ofNat hlt
      rw [← Store.toNat_contents_ofNat, ← hslot]
      exact .ofSlot slot.contents
  | some length =>
    obtain ⟨vs, rfl, rfl, hrow⟩ := hv
    exact ⟨vs, slot, p, rfl, .static vs.length, hrow, hused, hc⟩

theorem Value.Within.depth_le {l : Limits} {depth : Int} (h : v.Within l depth) :
    depth ≤ l.maxDepth := by
  cases v with
  | array | struct | bytes | string => exact h.1
  | _ => exact h

namespace Decode

variable {ctx : Context} {depth : Int}

/-! ## Byte strings -/

/-- A byte string is decoded where it is held. -/
theorem byteString_ok (h : ctx.store.HoldsShort p.slot raw ∨ ctx.store.HoldsLong p.slot raw)
    (hlimits : ctx.limits.AdmitsBytes raw.length) (hc : p.At 0 c) (hused : p.used = 0) (t : Ty) :
    (byteString ctx t c).result = .ok (raw, c.nextWord) := by
  have hlt : p.used < wordSize := by rw [hused]; decide
  have hfresh : checkFresh t c = .ok () := by
    rw [checkFresh, if_pos (hc.isFresh_iff.2 (by rw [hused]; rfl))]
  have hword : ctx.store.word c.slot.toNat = ctx.store.wordAt p.slot := by
    rw [← Store.wordAt_toNat, hc.wordAt_eq hlt]
  unfold byteString
  simp only [Traced.result_bind, result_stepExcept, hfresh, hword, mapError_ok, ok_bind]
  rcases h with ⟨hshort, w, hw, htake, hlow⟩ | ⟨hlong, ⟨w, hw, hheader⟩, hbytes⟩
  · have hlength : w.toNat % 256 / 2 = raw.length := by omega
    rw [hw, mapError_ok, ok_bind, if_pos (by omega), hlength, if_neg (by omega), htake]
    rfl
  · have hlength : (w.toNat - 1) / 2 = raw.length := by omega
    have hadmits : ctx.limits.length.exceededBy raw.length = false := by
      rw [Bool.eq_false_iff, ne_eq, Bound.exceededBy_iff]
      have hle : raw.length ≤ ctx.limits.length.most := by
        rcases hlimits with hle | hle
        · omega
        · exact hle
      omega
    have hread : ctx.store.read c.slot.contents.toNat 0 raw.length = .ok raw := by
      have hspan := Store.read_span hbytes
      rwa [← Store.toNat_contents_ofNat, Slot.toNat_mod_count, ← hc.slot_eq_ofNat hlt] at hspan
    rw [hw, mapError_ok, ok_bind, if_neg (by omega), hlength, if_neg (by simp [hadmits]),
      Traced.result_bind, result_stepExcept, hread]
    rfl

/-! ## Composite values -/

/-- Whether values of a type are decoded wherever they are held. -/
def Decodes (ctx : Context) (nodes : Datum → Prop) (t : Ty) : Prop :=
  t.WellFormed nodes → t.Storable ctx.resolver → ∀ {depth : Int} {p : Position} {c : Cursor}
    {v : Value}, p.At 0 c → (t.isPointer = true → p.used = 0) →
    t.Holds ctx.resolver ctx.store p v → v.Within ctx.limits depth →
    ∃ next, (value ctx depth t c).result = .ok (v, next)

/-- A row of elements is decoded where it is held. -/
theorem elements_ok (hr : ctx.resolver.Resolves nodes) (hdecodes : Decodes ctx nodes t)
    (ht : t.WellFormed nodes) (hstorable : t.Storable ctx.resolver)
    (hfills : t.FillsWord ctx.resolver) {vs : List Value}
    (hrow : Row (t.Holds ctx.resolver ctx.store) (t.space ctx.resolver) p vs)
    (hlimits : Value.AllWithin ctx.limits vs depth)
    (hc : ((t.space ctx.resolver).start p).At 0 c) :
    (elements ctx (value ctx depth) t vs.length [] c).result = .ok vs := by
  induction vs generalizing p c with
  | nil => rfl
  | cons v vs ih =>
    obtain ⟨hv, hrow⟩ := hrow
    have hspace := Ty.takes_space hr ht hstorable hfills
    obtain ⟨next, hnext⟩ :=
      hdecodes ht hstorable hc (fun hpointer => hspace.used_start hpointer p) hv hlimits.1
    obtain ⟨place, hplace, hat⟩ := (moves_value hr depth).element hr ht hspace hc hnext
    rw [List.length_cons, result_elements_succ, hnext, ok_bind, hplace, mapError_ok, ok_bind,
      ih hrow hlimits.2 hat]
    rfl

/-- The fields of members are decoded where they are held. -/
theorem fields_ok (hr : ctx.resolver.Resolves nodes) {ms : List Member}
    (hdecodes : ∀ name type, .attached name type ∈ ms → Decodes ctx nodes type)
    (hms : Member.AllWellFormed nodes ms) (hstorable : Member.AllStorable ctx.resolver ms)
    {fs : List (Datum × Value)} (hfs : Member.AllHold ctx.resolver ctx.store ms p fs)
    (hlimits : Value.FieldsWithin ctx.limits fs depth) (hc : p.At 0 c) :
    ∃ next, (fields ctx (value ctx depth) [] ms c).result = .ok (fs, next) := by
  induction ms generalizing p c fs with
  | nil =>
    cases hfs
    exact ⟨c, rfl⟩
  | cons m ms ih =>
    obtain ⟨v, rest, rfl, hv, hrest⟩ := hfs
    cases m with
    | node name typeName => exact hv.elim
    | attached name t =>
      obtain ⟨⟨ht, hfills⟩, hstorable⟩ := hstorable
      have hspace := Ty.takes_space hr hms.1 ht hfills
      obtain ⟨place, hplace⟩ := hr.place_ok hms.1 (fun hpointer =>
        (hspace.eq_bytes hpointer).imp fun _ hsize => hsize.2) c
      obtain ⟨q, hstarts, hq, -⟩ := hc.place hr hms.1 hplace
      rw [hstarts.unique hspace.starts] at hq
      obtain ⟨next, hnext⟩ := hdecodes name t (List.mem_cons_self ..) hms.1 ht hq
        (fun hpointer => hspace.used_start hpointer p) hv hlimits.1
      obtain ⟨space, hspace', -, hbehind⟩ := (moves_value hr depth).member hr hms.1 hc hplace hnext
      rw [hspace'.unique hspace] at hbehind
      obtain ⟨behind, hfields⟩ := ih (fun name type hm =>
        hdecodes name type (List.mem_cons_of_mem _ hm)) hms.2 hstorable hrest hlimits.2 hbehind
      have htype : (ctx.resolver.memberType (.attached name t)).result = .ok t := rfl
      refine ⟨behind, ?_⟩
      rw [result_fields_cons, htype, mapError_ok, ok_bind, hplace, mapError_ok, ok_bind, hnext,
        ok_bind, hfields]
      rfl

/-! ## Types -/

/-- What is within the limits is decoded as its type says. -/
theorem value_ok (hlimits : v.Within ctx.limits depth) (ht : t.WellFormed nodes)
    {body : Decoding (Decoded Value)} {a : Decoded Value}
    (hbody : atType ctx (value ctx (depth + 1)) t c = entering t c body)
    (ha : body.result = .ok a) : (value ctx depth t c).result = .ok a := by
  rw [value_eq_atType hlimits.depth_le, hbody, result_entering ht.checkName, ha]
  rfl

theorem decodes_elementary (e : Elementary) : Decodes ctx nodes (.elementary e) := by
  intro ht _ depth p c v hc _ hv hlimits
  obtain ⟨next, hnext⟩ := Shape.Holds.elementary_ok ht hv hc
  refine ⟨next, value_ok hlimits ht rfl ?_⟩
  rw [result_stepExcept, hnext]
  rfl

theorem decodes_contract (name reference : Datum) :
    Decodes ctx nodes (.contract name reference) := by
  intro ht _ depth p c v hc _ hv hlimits
  obtain ⟨a, rfl, hraw⟩ := hv
  have hlength := a.length_bytes
  obtain ⟨next, hpacks⟩ := hraw.packs (by omega) hc
  refine ⟨next, value_ok hlimits ht rfl ?_⟩
  rw [result_stepExcept, address_ok _ hpacks]
  rfl

theorem decodes_enum (d : Declaration) (typeString : Datum) (members : List Datum) :
    Decodes ctx nodes (.enum d typeString members) := by
  intro ht _ depth p c v hc _ hv hlimits
  obtain ⟨n, hn, rfl, hraw⟩ := hv
  have hlength := (Ty.ordinals members).length_encode n
  obtain ⟨next, hpacks⟩ := hraw.packs (by rw [hlength]; exact (Ty.ordinals members).size_pos) hc
  refine ⟨next, value_ok hlimits ht rfl ?_⟩
  rw [result_stepExcept, enum_ok hpacks hlength,
    integerOfBytes_encode (Ty.ordinals_fits ht.2 hn), Int.toNat_natCast]
  rfl

theorem decodes_aliasOf (d : Declaration) {underlying : Ty}
    (hunderlying : Decodes ctx nodes underlying) : Decodes ctx nodes (.aliasOf d underlying) := by
  intro ht hstorable depth p c v hc _ hv hlimits
  obtain ⟨next, hnext⟩ := hunderlying ht.2.2 hstorable hc (by simp [ht.2.1]) hv hlimits
  rw [value_eq_atType hlimits.depth_le] at hnext
  exact ⟨next, value_ok hlimits ht rfl hnext⟩

theorem decodes_aliasNode (hr : ctx.resolver.Resolves nodes) (d : Declaration) (node : Datum) :
    Decodes ctx nodes (.aliasNode d node) := by
  intro ht _ depth p c v hc _ hv hlimits
  obtain ⟨e, he, hv⟩ := hv
  have hsized : e.shape.IsSized := by
    rcases hr.elementaryOfAlias ht.1 ht.2 with ⟨e', he', hsized⟩ | ⟨f, hf⟩
    · rw [he, Except.ok.injEq] at he'
      exact he' ▸ hsized
    · rw [he] at hf
      cases hf
  obtain ⟨next, hnext⟩ := Shape.Holds.elementary_ok hsized hv hc
  have hname : (Ty.elementary e).checkName = .ok () := rfl
  refine ⟨next, value_ok hlimits ht rfl ?_⟩
  rw [Traced.result_bind, result_step, he, mapError_ok, ok_bind, result_entering hname,
    result_stepExcept, hnext]
  rfl

theorem decodes_bytes : Decodes ctx nodes .bytes := by
  intro ht _ depth p c v hc hzero hv hlimits
  obtain ⟨raw, rfl, hraw⟩ := hv
  refine ⟨c.nextWord, value_ok hlimits ht rfl ?_⟩
  rw [Traced.result_bind, byteString_ok hraw hlimits.2 hc (hzero rfl)]
  rfl

theorem decodes_string : Decodes ctx nodes .string := by
  intro ht _ depth p c v hc hzero hv hlimits
  obtain ⟨text, rfl, hraw⟩ := hv
  have hlength := hlimits.2
  rw [Text.plain_spelled] at hlength
  refine ⟨c.nextWord, value_ok hlimits ht rfl ?_⟩
  rw [Traced.result_bind, byteString_ok hraw hlength hc (hzero rfl), ok_bind, Traced.result_pure,
    Text.decodeUtf8_utf8]

theorem decodes_array (hr : ctx.resolver.Resolves nodes) (typeString : Datum) (origin : Origin)
    {element : Ty} (helement : Decodes ctx nodes element) (length : Option Int) :
    Decodes ctx nodes (.array typeString origin element length) := by
  intro ht hstorable depth p c v hc hzero hv hlimits
  have hused := hzero rfl
  obtain ⟨slot, rfl⟩ : ∃ slot, c = .fresh slot :=
    ⟨c.slot, Cursor.eq_fresh_of_isFresh (hc.isFresh_iff.2 (by rw [hused]; rfl))⟩
  obtain ⟨vs, base, q, rfl, hspans, hrow, hq, hbase⟩ := Ty.Holds.spans hc hused hv
  have hwf : element.WellFormed nodes := ht.1
  have hspace := Ty.takes_space hr hwf hstorable.1 hstorable.2
  have hstart : ((element.space ctx.resolver).start q).At 0 (.fresh base) := by
    rwa [Space.start_of_used_zero (hspace.isSized hr hwf) hq]
  have helements := elements_ok hr helement hwf hstorable.1 hstorable.2 hrow hlimits.2.2 hstart
  refine ⟨(Cursor.fresh slot).nextWord, value_ok hlimits ht rfl ?_⟩
  rw [result_array, result_elementsOf _ hspans hlimits.2.1, ok_bind, helements]
  rfl

theorem decodes_struct (hr : ctx.resolver.Resolves nodes) (d : Declaration) {ms : List Member}
    (hms : ∀ name type, .attached name type ∈ ms → Decodes ctx nodes type) :
    Decodes ctx nodes (.struct d ms) := by
  intro ht hstorable depth p c v hc hzero hv hlimits
  obtain ⟨fs, rfl, hfs⟩ := hv
  have hfresh : c.isFresh = true := hc.isFresh_iff.2 (by rw [hzero rfl]; rfl)
  obtain ⟨next, hnext⟩ := fields_ok hr hms ht.2 hstorable hfs hlimits.2 hc
  refine ⟨next.roundUp, value_ok hlimits ht rfl ?_⟩
  rw [result_struct hfresh, hnext]
  rfl

mutual

/-- Values of every type are decoded wherever they are held. -/
theorem decodes (hr : ctx.resolver.Resolves nodes) : ∀ t, Decodes ctx nodes t
  | .elementary e => decodes_elementary e
  | .contract name reference => decodes_contract name reference
  | .enum d typeString members => decodes_enum d typeString members
  | .aliasOf d underlying => decodes_aliasOf d (decodes hr underlying)
  | .aliasNode d node => decodes_aliasNode hr d node
  | .bytes => decodes_bytes
  | .string => decodes_string
  | .array typeString origin element length =>
    decodes_array hr typeString origin (decodes hr element) length
  | .struct d ms => decodes_struct hr d (decodes_attached hr ms)
  | .mapping .. => fun _ hstorable => hstorable.elim

theorem decodes_attached (hr : ctx.resolver.Resolves nodes) :
    ∀ (ms : List Member) (name : Datum) (type : Ty), .attached name type ∈ ms →
      Decodes ctx nodes type
  | [], _, _, hm => nomatch hm
  | m :: ms, name, type, hm => by
    rcases List.mem_cons.1 hm with hfirst | hlater
    · exact decodes_member hr m name type hfirst.symm
    · exact decodes_attached hr ms name type hlater

theorem decodes_member (hr : ctx.resolver.Resolves nodes) :
    ∀ (m : Member) (name : Datum) (type : Ty), m = .attached name type → Decodes ctx nodes type
  | .attached _ t, _, _, hm => by
    cases hm
    exact decodes hr t
  | .node .., _, _, hm => nomatch hm

end

/--
Decoding undoes the compiler's encoding: from a fresh word on it finds the value that the store
holds there, if the limits admit the value. It passes over the space that the value takes, which is
one word for an array.
-/
theorem value_of_holds (hr : ctx.resolver.Resolves nodes) (ht : t.WellFormed nodes)
    (hstorable : t.Storable ctx.resolver) {slot : Slot}
    (hv : t.Holds ctx.resolver ctx.store ⟨slot.toNat, 0⟩ v) (hlimits : v.Within ctx.limits depth) :
    ∃ next, (value ctx depth t (.fresh slot)).result = .ok (v, next) ∧
      (t.passed ctx.resolver).Passes (.fresh slot) next := by
  obtain ⟨next, hnext⟩ := decodes hr t ht hstorable (.ofSlot slot) (fun _ => rfl) hv hlimits
  obtain ⟨space, hspace, hpass⟩ := moves_value hr depth t _ v next ht (fun _ => rfl) hnext
  rw [hspace.unique (Ty.takes_passed hr ht hstorable)] at hpass
  exact ⟨next, hnext, hpass⟩

/-! ## An account -/

namespace Account

def shares : Ty := .int ⟨false, 12, by decide, by decide⟩

def type : Ty :=
  .struct ⟨⟨none, .int 1⟩, .text "Account", .text "Account"⟩
    [.attached (.text "delta") (.int ⟨true, 2, by decide, by decide⟩),
      .attached (.text "total") (.int ⟨false, 16, by decide, by decide⟩),
      .attached (.text "shares") (.array (.text "uint96[]") ⟨none, .int 0⟩ shares none),
      .attached (.text "label") .string,
      .attached (.text "flags") (.array (.text "uint8[2]") ⟨none, .int 0⟩ (.int .uint8) (some 2)),
      .attached (.text "inner") (.struct ⟨⟨none, .int 2⟩, .text "Inner", .text "Inner"⟩
        [.attached (.text "kind") (.enum ⟨⟨none, .int 3⟩, .text "Kind", .text "Kind"⟩ .null
          [.text "none", .text "all", .text "some"])])]

def value : Value :=
  .struct [(.text "delta", .int 2), (.text "total", .int 0),
    (.text "shares", .array [.int 2, .int 0]), (.text "label", .string (Text.spelled "\x00")),
    (.text "flags", .array [.int 2, .int 0]),
    (.text "inner", .struct [(.text "kind", .enum 2 (some (.text "some")))])]

def word : Bytes := Bytes.zeros 31 ++ [2]

/-- A store of an account whose shares start at slot `n`. All its words are the same. -/
def context (n : Nat) : Context where
  store := { words := [(0, word), (1, word), (2, word), (3, word), (4, word), (n, word)] }
  resolver := .plain
  limits := {}

private theorem lookup_of_forall {k : Int} {w : Bytes} {ws : List (Int × Bytes)}
    (hw : ∀ e ∈ ws, e.2 = w) (hk : k ∈ ws.map Prod.fst) : ws.lookup k = some w := by
  induction ws with
  | nil => cases hk
  | cons e ws ih =>
    rw [List.lookup_cons]
    split
    next => rw [hw e (List.mem_cons_self ..)]
    next hne =>
      apply ih (fun x hx => hw x (List.mem_cons_of_mem e hx))
      exact (List.mem_cons.1 hk).resolve_left (by simpa using hne)

theorem wordAt_shares {n : Nat} (h : n % Slot.count = n) :
    (context n).store.wordAt n = .ok word := by
  have hlookup : (context n).store.words.lookup (n : Int) = some word :=
    lookup_of_forall (by simp [context]) (by simp [context])
  have hget : (context n).store.get? (n : Int) = .ok (some word) := congrArg Except.ok hlookup
  rw [Store.wordAt, h, Store.word, hget]
  rfl

/-- Both shares stand in the first word of the contents. -/
theorem shares_hold {n : Nat} (h : n % Slot.count = n) :
    Row (shares.Holds .plain (context n).store) (shares.space .plain) ⟨n, 0⟩ [.int 2, .int 0] := by
  have hword := wordAt_shares h
  refine ⟨?_, ?_, trivial⟩
  · exact ⟨2, rfl, rfl, Nat.le_of_ble_eq_true rfl, word, hword, rfl⟩
  · exact ⟨0, rfl, rfl, Nat.le_of_ble_eq_true rfl, word, hword, rfl⟩

theorem holds {n : Nat} (h : Store.contentsOf 1 = n) :
    type.Holds .plain (context n).store ⟨(0 : Slot).toNat, 0⟩ value := by
  have hmod : n % Slot.count = n := by rw [← h, Store.contentsOf_mod]
  refine ⟨_, rfl, _, _, rfl, ⟨2, rfl, by decide, by decide, word, rfl, by decide⟩, ?_⟩
  refine ⟨_, _, rfl, ⟨0, rfl, by decide, by decide, word, rfl, by decide⟩, ?_⟩
  refine ⟨_, _, rfl, ⟨_, rfl, ⟨word, rfl, by decide⟩, ?_⟩, ?_⟩
  · change Row _ _ ⟨Store.contentsOf 1, 0⟩ _
    rw [h]
    exact shares_hold hmod
  refine ⟨_, _, rfl, ⟨"\x00", rfl, .inl ⟨by decide, word, rfl, by decide, by decide⟩⟩, ?_⟩
  refine ⟨_, _, rfl, ⟨_, rfl, rfl, ⟨2, rfl, by decide, by decide, word, rfl, by decide⟩,
    ⟨0, rfl, by decide, by decide, word, rfl, by decide⟩, trivial⟩, ?_⟩
  refine ⟨_, _, rfl, ⟨_, rfl, _, _, rfl, ?_, rfl⟩, rfl⟩
  exact ⟨2, by decide, rfl, by decide, word, rfl, by decide⟩

theorem wellFormed : type.WellFormed fun _ => False := by
  have hlength : ∀ n, some (2 : Int) = some n → Text.isWritable n = true := by
    rintro n ⟨⟩
    rfl
  exact ⟨rfl, trivial, trivial, ⟨trivial, nofun⟩, trivial, ⟨trivial, hlength⟩,
    ⟨rfl, ⟨⟨⟨_, rfl⟩, rfl, nofun⟩, by decide⟩, trivial⟩, trivial⟩

theorem storable : type.Storable .plain :=
  ⟨⟨trivial, trivial⟩, ⟨trivial, trivial⟩, ⟨⟨trivial, trivial⟩, trivial⟩, ⟨trivial, trivial⟩,
    ⟨⟨trivial, trivial⟩, Nat.le_refl 1⟩, ⟨⟨⟨trivial, trivial⟩, trivial⟩, trivial⟩, trivial⟩

theorem within : value.Within {} 0 := by
  simp [value, Value.Within, Value.FieldsWithin, Value.FieldWithin, Value.AllWithin,
    Limits.AdmitsBytes, Text.plain_spelled, Limits.maxDepth, Limits.maxLength, Bound.ofNat,
    show (Text.utf8 "\x00").length = 1 from rfl]

end Account

/-- An account is decoded from a store that holds it. -/
theorem value_of_holds_account :
    ∃ next, (Decode.value (Account.context (Store.contentsOf 1)) 0 Account.type (.fresh 0)).result =
      .ok (Account.value, next) ∧ (Account.type.passed .plain).Passes (.fresh 0) next :=
  value_of_holds (Account.context (Store.contentsOf 1)).resolver.resolves_none Account.wellFormed
    Account.storable (Account.holds rfl) Account.within

end Decode

end StorageSnapshot

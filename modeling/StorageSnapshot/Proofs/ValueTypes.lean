-- SUMMARY: The size of a value type is what its decoder asks for, consumes and reads.
import StorageSnapshot.Proofs.Depth
import StorageSnapshot.Proofs.Integers
import StorageSnapshot.Proofs.Recursion
import StorageSnapshot.Proofs.Resolution

/-!
# Value types

Two walks over a type have to come to one number: the one that finds a place for a value, and the
one that decodes it. For every value type they do. Its decoder refuses a place that is too small for
the size, and elsewhere reads as many bytes as the size says, which are all that it depends on.
-/

namespace StorageSnapshot

/-! ## Value types -/

/-- Whether a type is a value type that resolves: the elementary types that have a size, contracts,
enums, and the aliases of these, with names that can be written. -/
def Ty.IsValueType (r : Resolver) : Ty → Prop
  | .elementary e => e.shape.IsSized
  | .contract name _ => name.isWritable = true
  | .enum d _ members => d.IsWritable ∧ members.length ≤ Slot.count
  | .aliasOf d underlying => d.IsWritable ∧ underlying.IsValueType r
  | .aliasNode d node => d.IsWritable ∧ ∃ e, (r.elementaryOfAlias d node).result = .ok e
  | .bytes | .string | .mapping .. | .array .. | .struct .. => False

variable {r : Resolver} {t : Ty} {c next : Cursor} {size : Nat}

theorem Ty.IsValueType.isPointer (h : t.IsValueType r) : t.isPointer = false := by
  cases t with
  | bytes | string | mapping | array | struct => exact h.elim
  | _ => rfl

theorem Ty.IsValueType.checkName (h : t.IsValueType r) : t.checkName = .ok () := by
  cases t with
  | elementary e => rfl
  | contract name _ => exact Datum.checkText_eq_ok.2 h
  | enum | aliasOf | aliasNode => exact h.1.checkCalled
  | bytes | string | mapping | array | struct => exact h.elim

/-! ## Elementary types behind aliases -/

theorem Shape.isSized_of_mem_all {s : Shape} (h : s ∈ Shape.all) : s.IsSized := by
  simp only [Shape.all, List.mem_cons, List.mem_flatMap, List.not_mem_nil, or_false] at h
  obtain rfl | rfl | ⟨i, -, rfl | rfl | rfl⟩ := h
  · trivial
  · trivial
  · trivial
  · trivial
  · exact ⟨Nat.succ_pos _, i.isLt⟩

/-- Whatever a keyword names has a size. -/
theorem Elementary.isSized_of_ofName? {name : String} {typeString : Datum} {e : Elementary}
    (h : Elementary.ofName? name typeString = some e) : e.shape.IsSized := by
  obtain ⟨s, hs, rfl⟩ := Option.map_eq_some_iff.1 h
  obtain ⟨_, _, heq, -⟩ := List.lookup_eq_some_iff.1 hs
  have hmem : (Elementary.canonicalName name, s) ∈ Shape.keywords := heq ▸ by simp
  obtain ⟨s', hs', heq⟩ := List.mem_map.1 hmem
  simp only [Prod.mk.injEq] at heq
  exact heq.2 ▸ Shape.isSized_of_mem_all hs'

namespace Ast

/-- Whether a type has a size if it is elementary. -/
def SizedIfElementary (t : Ty) : Prop := ∀ e, t = .elementary e → e.shape.IsSized

/-- What comes last decides on the type, whatever is needed for it. -/
private theorem endsSized_bind {α : Type} {x : Except Fault α} {f : α → Except Fault Ty}
    (h : ∀ a, EndsIn (fun _ => True) SizedIfElementary (f a)) :
    EndsIn (fun _ => True) SizedIfElementary (x >>= f) := by
  cases x with
  | ok a => exact h a
  | error => trivial

theorem endsSized_elementaryOfNode (node : Datum) :
    EndsIn (fun _ => True) SizedIfElementary (elementaryOfNode node) := by
  refine endsSized_bind fun name => .ite (fun _ => trivial) fun _ => ?_
  split
  next s =>
    split
    next e he =>
      refine endsSized_bind fun typeString => ?_
      rintro _ ⟨⟩
      exact Elementary.isSized_of_ofName? (e := e) he
    next =>
      exact .ite (by rintro - _ ⟨⟩) fun _ => .ite (by rintro - _ ⟨⟩) fun _ => trivial
  next => trivial

/-- No definition gives an elementary type. -/
theorem endsSized_typeOfDefinition (node : Datum) :
    EndsIn (fun _ => True) SizedIfElementary (typeOfDefinition node) := by
  refine endsSized_bind fun nodeType => ?_
  split
  next =>
    refine endsSized_bind fun _ => endsSized_bind fun _ => endsSized_bind fun _ =>
      endsSized_bind fun _ => endsSized_bind fun _ => endsSized_bind fun _ =>
        endsSized_bind fun _ => ?_
    rintro _ ⟨⟩
  next =>
    refine endsSized_bind fun _ => endsSized_bind fun _ => endsSized_bind fun _ =>
      endsSized_bind fun _ => endsSized_bind fun _ => endsSized_bind fun _ =>
        endsSized_bind fun _ => ?_
    rintro _ ⟨⟩
  next =>
    refine endsSized_bind fun _ => endsSized_bind fun _ => endsSized_bind fun _ =>
      endsSized_bind fun _ => endsSized_bind fun underlying => ?_
    cases underlying with
    | null => trivial
    | _ => rintro _ ⟨⟩
  next =>
    refine endsSized_bind fun _ => endsSized_bind fun _ => endsSized_bind fun _ => ?_
    rintro _ ⟨⟩
  next => trivial

/-- Elementary types come from keywords only, and so have sizes. -/
theorem endsSized_typeOfName (lookup : Lookup) (node : Datum) :
    EndsIn (fun _ => True) SizedIfElementary (typeOfName lookup node) := by
  rw [typeOfName]
  refine ends_resolving (P := fun _ => True) (fun _ _ => trivial) ?_
  refine EndsIn.mono (P := fun _ => True) ?_ (fun e _ => .of trivial) fun _ h => h
  refine endsSized_bind fun nodeType => .ite (fun _ => endsSized_elementaryOfNode node) fun _ =>
    .ite (fun _ => ?named) fun _ => .ite (fun _ => ?mapping) fun _ => .ite (fun _ => ?array)
      fun _ => trivial
  case named =>
    exact endsSized_bind fun _ => endsSized_bind fun _ => endsSized_typeOfDefinition _
  case mapping =>
    refine endsSized_bind fun _ => endsSized_bind fun _ => endsSized_bind fun _ =>
      endsSized_bind fun _ => endsSized_bind fun _ => endsSized_bind fun _ =>
        endsSized_bind fun _ => endsSized_bind fun _ => ?_
    rintro _ ⟨⟩
  case array =>
    refine endsSized_bind fun _ => endsSized_bind fun _ => endsSized_bind fun _ =>
      endsSized_bind fun _ => endsSized_bind fun _ => ?_
    rintro _ ⟨⟩

end Ast

/-- What an alias stands for has a size. -/
theorem Resolver.isSized_of_elementaryOfAlias {d : Declaration} {node : Datum} {e : Elementary}
    (h : (r.elementaryOfAlias d node).result = .ok e) : e.shape.IsSized := by
  have hends : EndsIn (fun _ => True) Ast.SizedIfElementary (r.typeOfName node).result := by
    refine result_typeOfName (Ast.endsSized_typeOfName r.lookup node) ?_
    cases shownTypeString node <;> trivial
  have htype : ∃ t, (r.typeOfName node).result = .ok t := by
    rw [elementaryOfAlias, Traced.result_bind] at h
    obtain ⟨t, ht, -⟩ := bind_eq_ok.1 h
    exact ⟨t, ht⟩
  obtain ⟨t, ht⟩ := htype
  rcases Resolver.result_elementaryOfAlias (d := d) ht with ⟨e', rfl, he⟩ | ⟨-, hrefused⟩
  · rw [he, Except.ok.injEq] at h
    exact hends.of_ok ht e (congrArg Ty.elementary h)
  · cases h.symm.trans hrefused

namespace Decode

/-! ## Decoders of spans -/

/-- Whether a decoder reads a span of this size: it refuses a place that has less room, and gives a
value that depends on the bytes of the span alone. -/
structure ReadsSpan (size : Nat) (read : Store → Cursor → Except Halt (Decoded Value)) : Prop where
  size_pos : 0 < size
  size_le : size ≤ wordSize
  refuses : ∀ store c, c.free < size →
    ∃ type, read store c = .error (.fault (.layout (.outOfWord type size c)))
  decodes : ∀ raw, raw.length = size →
    ∃ v, ∀ store c next, store.Packs c raw next → read store c = .ok (v, next)

theorem packedBytes_refuses (store : Store) (type : Ty) (h : c.free < size) :
    packedBytes store type size c = .error (.layout (.outOfWord type size c)) := by
  rw [packedBytes, if_pos h]
  rfl

theorem integer_refuses (store : Store) {ints : IntType} (h : c.free < ints.size) :
    integer store ints c = .error (.layout (.outOfWord (.int ints) ints.size c)) := by
  rw [integer, packedBytes_refuses store _ h, error_bind]

theorem elementary_refuses (store : Store) {e : Elementary}
    (hsize : Resolver.sizeOfShape? e.shape = some size) (h : c.free < size) :
    ∃ type, elementary store e c = .error (.layout (.outOfWord type size c)) := by
  unfold elementary
  generalize e.shape = s at hsize
  cases s with
  | int ints =>
    cases hsize
    exact ⟨.int ints, by simp only [integer_refuses store h, error_bind]⟩
  | bool =>
    cases hsize
    have hrefuses : integer store .uint8 c = _ := integer_refuses store h
    exact ⟨.int .uint8, by simp only [bool, hrefuses, error_bind]; rfl⟩
  | fixedBytes =>
    cases hsize
    exact ⟨.elementary e, by simp only [packedBytes_refuses store _ h, error_bind]⟩
  | address =>
    cases hsize
    exact ⟨.elementary e, by simp only [address, packedBytes_refuses store _ h, error_bind]⟩
  | bare => cases hsize

/-- A decoder of elementary types reads a span of the size of the type. -/
theorem readsSpan_elementary {e : Elementary} (he : e.shape.IsSized) :
    ∃ size, Resolver.sizeOfShape? e.shape = some size ∧
      ReadsSpan size fun store c => (stepExcept (elementary store e c)).result := by
  obtain ⟨size, hsize, hpos, hle⟩ := he.size
  refine ⟨size, hsize, hpos, hle, fun store c hfree => ?_, fun raw hraw => ?_⟩
  · obtain ⟨type, htype⟩ := elementary_refuses store hsize hfree
    exact ⟨type, by rw [result_stepExcept, htype, mapError_error]⟩
  · obtain ⟨v, hv⟩ := exists_reads hsize hraw
    refine ⟨v, fun store c next hpacks => ?_⟩
    rw [result_stepExcept, elementary_ok hpacks (hraw ▸ hsize) hv, mapError_ok]

theorem readsSpan_address (type : Ty) :
    ReadsSpan addressSize fun store c => (stepExcept (address store type c)).result where
  size_pos := by decide
  size_le := by decide
  refuses store c hfree :=
    ⟨type, by rw [result_stepExcept, address, packedBytes_refuses store type hfree]; rfl⟩
  decodes raw hraw := by
    refine ⟨.address ⟨raw, hraw⟩, fun store c next hpacks => ?_⟩
    rw [result_stepExcept, address_ok type (a := ⟨raw, hraw⟩) hpacks, mapError_ok]

theorem readsSpan_enum (members : List Datum) :
    ReadsSpan (Ty.ordinals members).size fun store c =>
      (stepExcept (enum store members c)).result where
  size_pos := (Ty.ordinals members).size_pos
  size_le := (Ty.ordinals members).size_le
  refuses store c hfree :=
    ⟨.int (Ty.ordinals members), by rw [result_stepExcept, enum, integer_refuses store hfree]; rfl⟩
  decodes raw hraw := by
    let ordinal := integerOfBytes (Ty.ordinals members) raw
    refine ⟨.enum ordinal (Ty.memberAt? members ordinal.toNat), fun store c next hpacks => ?_⟩
    rw [result_stepExcept, enum_ok hpacks hraw, mapError_ok]

namespace ReadsSpan

variable {read : Store → Cursor → Except Halt (Decoded Value)}

/-- What is said of a value does not change what is read. -/
theorem entering {body : Store → Cursor → Decoding (Decoded Value)}
    (h : ReadsSpan size fun store c => (body store c).result) (hname : t.checkName = .ok ()) :
    ReadsSpan size fun store c => (Decode.entering t c (body store c)).result where
  size_pos := h.size_pos
  size_le := h.size_le
  refuses store c hfree := by
    obtain ⟨type, htype⟩ := h.refuses store c hfree
    exact ⟨type, by rw [result_entering hname, htype]; rfl⟩
  decodes raw hraw := by
    obtain ⟨v, hv⟩ := h.decodes raw hraw
    refine ⟨v, fun store c next hpacks => ?_⟩
    rw [result_entering hname, hv store c next hpacks]
    rfl

/-- A store whose words fit has a value wherever there is room, which any other store has that has
the same bytes there. -/
theorem exists_value (h : ReadsSpan size read) {store : Store} (hs : store.WordsFit)
    (hfree : size ≤ c.free) :
    ∃ v next, c.advance size = .ok next ∧ read store c = .ok (v, next) ∧
      ∀ store' : Store, store'.WordsFit →
        (∀ w w', store.word c.slot.toNat = .ok w → store'.word c.slot.toNat = .ok w' →
          c.span size w' = c.span size w) → read store' c = .ok (v, next) := by
  obtain ⟨w, hw⟩ := hs.wordAt_ok c.slot.toNat
  rw [Store.wordAt_toNat] at hw
  obtain ⟨next, hnext⟩ := Cursor.advance_ok hfree
  have hlength : (c.span size w).length = size := Cursor.length_span hfree (Store.length_word hw)
  have hpacks : ∀ (store' : Store) w', store'.word c.slot.toNat = .ok w' →
      c.span size w' = c.span size w → store'.Packs c (c.span size w) next := by
    intro store' w' hw' hspan
    refine ⟨hlength.le.trans hfree, ?_, by rwa [hlength]⟩
    rw [hlength, Store.readBefore_eq_span h.size_pos hfree, hw', ok_bind, hspan]
  obtain ⟨v, hv⟩ := h.decodes _ hlength
  refine ⟨v, next, hnext, hv store c next (hpacks store w hw rfl), fun store' hs' hsame => ?_⟩
  obtain ⟨w', hw'⟩ := hs'.wordAt_ok c.slot.toNat
  rw [Store.wordAt_toNat] at hw'
  exact hv store' c next (hpacks store' w' hw' (hsame w w' hw hw'))

end ReadsSpan

/-! ## Types -/

variable {ctx : Context} {limits : Limits} {nested nested' : Nested} {depth : Int}

/-- A value type is decoded from a span of the size that it has. The induction is on the aliases. -/
theorem readsSpan_atType (limits : Limits) (nested : Nested) : ∀ {t : Ty}, t.IsValueType r →
    ∃ size, (r.sizeOf t).result = .ok size ∧
      ReadsSpan size fun store c => (atType ⟨store, r, limits⟩ nested t c).result
  | .elementary e, ht => by
    obtain ⟨size, hsize, hreads⟩ := readsSpan_elementary ht
    exact ⟨size, Resolver.result_sizeOfElementary hsize, hreads.entering rfl⟩
  | .contract .., ht => ⟨addressSize, rfl, (readsSpan_address _).entering ht.checkName⟩
  | .enum _ _ members, ht => ⟨_, rfl, (readsSpan_enum members).entering ht.checkName⟩
  | .aliasOf d underlying, ht => by
    obtain ⟨size, hsize, hreads⟩ := readsSpan_atType limits nested (t := underlying) ht.2
    refine ⟨size, hsize, ?_⟩
    simp only [atType]
    exact hreads.entering ht.checkName
  | .aliasNode d node, ht => by
    have hname := ht.checkName
    obtain ⟨-, e, he⟩ := ht
    obtain ⟨size, hsize, hreads⟩ := readsSpan_elementary (Resolver.isSized_of_elementaryOfAlias he)
    have hbody : ∀ (store : Store) (c : Cursor),
        (step (r.elementaryOfAlias d node) >>= fun e =>
          entering (.elementary e) c (stepExcept (elementary store e c))).result =
        (entering (.elementary e) c (stepExcept (elementary store e c))).result := by
      intro store c
      rw [Traced.result_bind, result_step, he, mapError_ok, ok_bind]
    refine ⟨size, ?_, ReadsSpan.entering (t := .aliasNode d node) ?_ hname⟩
    · rw [Resolver.sizeOf, Traced.result_bind, he, ok_bind, Resolver.result_sizeOfElementary hsize]
    · simp only [hbody]
      exact hreads.entering rfl

/-- A value type has no parts, so it does not matter how these would be decoded. -/
theorem atType_nested_eq (nested nested' : Nested) : ∀ {t : Ty}, t.IsValueType ctx.resolver →
    ∀ c, atType ctx nested t c = atType ctx nested' t c
  | .aliasOf _ underlying, ht, c => by
    simp only [atType]
    rw [atType_nested_eq nested nested' (t := underlying) ht.2 c]
  | .elementary _, _, _ | .contract .., _, _ | .enum .., _, _ | .aliasNode .., _, _ => rfl

/-- Whether decoding ends because it was asked for what it does not do: to read a type where it is
not, or one that there is no way of reading. -/
def IsMisuse : Halt → Prop
  | .fault (.layout _) | .fault (.unsupported _) => True
  | _ => False

/-- Where there is room for a value type is known from its size. -/
theorem result_fits (ht : t.IsValueType r) (hsize : (r.sizeOf t).result = .ok size)
    (hle : size ≤ wordSize) (c : Cursor) : (r.fits t c).result = .ok (decide (size ≤ c.free)) := by
  rw [Resolver.fits, if_neg (by simp [ht.isPointer]), Traced.result_bind, hsize, ok_bind,
    if_neg (Nat.not_lt.2 hle), Traced.result_pure]

/--
The size of a value type is what decoding asks for, consumes and reads, at every place, in every
store and at every depth within the limit. It is at least a byte and at most a word. A place that
is too small for it is refused, and no other place is. Elsewhere there is a value, which is the same
in every store that has the same bytes in front of the place, as many as the size says; and the
place behind it is as many bytes further on. So there is a value at the place that is found for one.
A run, which bounds the values inside of each other, decodes the same.
-/
theorem value_type_size (ht : t.IsValueType ctx.resolver) (hs : ctx.store.WordsFit)
    (hdepth : depth ≤ ctx.limits.maxDepth) (c : Cursor) :
    ∃ size, 1 ≤ size ∧ size ≤ 32 ∧ (ctx.resolver.sizeOf t).result = .ok size ∧
      (ctx.resolver.fits t c).result = .ok (decide (size ≤ c.free)) ∧
      ((∃ halt, (value ctx depth t c).result = .error halt ∧ IsMisuse halt) ↔
        (ctx.resolver.fits t c).result = .ok false) ∧
      (size ≤ c.free → ∃ v next, c.advance size = .ok next ∧
        (value ctx depth t c).result = .ok (v, next) ∧
        ∀ store : Store, store.WordsFit →
          (∀ w w', ctx.store.word c.slot.toNat = .ok w → store.word c.slot.toNat = .ok w' →
            c.span size w' = c.span size w) →
          (value { ctx with store } depth t c).result = .ok (v, next)) ∧
      (∃ place v next, (ctx.resolver.place t c).result = .ok place ∧
        (value ctx depth t place).result = .ok (v, next)) ∧
      boundedValue ctx depth t c = value ctx depth t c := by
  obtain ⟨size, hsize, hreads⟩ := readsSpan_atType ctx.limits (value ctx (depth + 1)) ht
  have hpos := hreads.size_pos
  have hle : size ≤ wordSize := hreads.size_le
  have hfits : ∀ c, (ctx.resolver.fits t c).result = .ok (decide (size ≤ c.free)) :=
    result_fits ht hsize hle
  have hvalue : ∀ (store : Store) (c : Cursor), value { ctx with store } depth t c =
      atType { ctx with store } (value ctx (depth + 1)) t c := by
    intro store c
    rw [@value_eq_atType { ctx with store } depth hdepth]
    exact @atType_nested_eq { ctx with store } _ _ t ht c
  have hread : ∀ c : Cursor, size ≤ c.free → _ := fun c => hreads.exists_value (c := c) hs
  refine ⟨size, hpos, hle, hsize, hfits c, ⟨?_, ?_⟩, ?_, ?_, ?_⟩
  · rintro ⟨halt, hhalt, -⟩
    by_cases hfree : size ≤ c.free
    · obtain ⟨v, next, -, hv, -⟩ := hread c hfree
      rw [hvalue ctx.store c, hv] at hhalt
      cases hhalt
    · rw [hfits c, decide_eq_false hfree]
  · intro hfit
    rw [hfits c, Except.ok.injEq, decide_eq_false_iff_not, Nat.not_le] at hfit
    obtain ⟨type, htype⟩ := hreads.refuses ctx.store c hfit
    exact ⟨_, (congrArg _ (hvalue ctx.store c)).trans htype, trivial⟩
  · intro hfree
    obtain ⟨v, next, hnext, hv, hsame⟩ := hread c hfree
    refine ⟨v, next, hnext, (congrArg _ (hvalue ctx.store c)).trans hv, fun store hs' hspan => ?_⟩
    rw [hvalue store c]
    exact hsame store hs' hspan
  · have hroom : ∃ place, (ctx.resolver.place t c).result = .ok place ∧ size ≤ place.free := by
      refine ⟨_, Resolver.result_place_value ht.isPointer hsize hle c, ?_⟩
      split
      next hfree => exact hfree
      next => exact hle
    obtain ⟨place, hplace, hfree⟩ := hroom
    obtain ⟨v, next, -, hv, -⟩ := hread place hfree
    exact ⟨place, v, next, hplace, (congrArg _ (hvalue ctx.store place)).trans hv⟩
  · rw [boundedValue]
    split
    next => rfl
    next =>
      rw [value_eq_atType hdepth]
      exact atType_nested_eq _ _ ht c

/-! ## An alias of an alias -/

namespace Height

def declared (name : String) : Declaration := ⟨⟨none, .int 0⟩, .text name, .text name⟩

/-- An enum of 300 members, so of two bytes, behind two names. -/
def type : Ty := .aliasOf (declared "Height") (.aliasOf (declared "Level")
  (.enum (declared "Floor") .null (List.replicate 300 (.text "floor"))))

def resolver : Resolver := .plain

/-- A store with the bytes of the ordinal 258 between others. -/
def stored : Store where
  words := [(0, [7, 1, 2, 9])]

/-- A store with the same bytes between others yet. -/
def changed : Store where
  words := [(0, [8, 8, 1, 2, 8])]

theorem narrow_le : 1 ≤ 32 := by decide

/-- A place with a single byte left. -/
def narrow : Cursor := ⟨0, 1, Nat.one_pos, narrow_le⟩

theorem isValueType : type.IsValueType resolver := by
  have hdeclared : ∀ name, (declared name).IsWritable := fun _ => ⟨rfl, nofun⟩
  refine ⟨hdeclared _, hdeclared _, hdeclared _, ?_⟩
  rw [List.length_replicate]
  decide

theorem result_sizeOf : (resolver.sizeOf type).result = .ok 2 := by
  simp only [type, Resolver.sizeOf, Ty.ordinals, List.length_replicate]
  rfl

theorem span_eq (w w' : Bytes) (hw : stored.word Signed.place.slot.toNat = .ok w)
    (hw' : changed.word Signed.place.slot.toNat = .ok w') :
    Signed.place.span 2 w' = Signed.place.span 2 w := by
  cases hw
  cases hw'
  decide

end Height

/-- The ordinal of a height takes two bytes, and is not read where there is only one. -/
theorem value_type_size_height :
    (∃ halt, (value ⟨Height.stored, Height.resolver, {}⟩ 0 Height.type Height.narrow).result =
      .error halt ∧ IsMisuse halt) ∧
    ∃ v next, (value ⟨Height.stored, Height.resolver, {}⟩ 0 Height.type Signed.place).result =
        .ok (v, next) ∧
      (value ⟨Height.changed, Height.resolver, {}⟩ 0 Height.type Signed.place).result =
        .ok (v, next) ∧ next.free = 29 := by
  have hagrees : ∀ c : Cursor, _ := @value_type_size Height.type
    ⟨Height.stored, Height.resolver, {}⟩ 0 Height.isValueType (by decide) (by decide)
  obtain ⟨size, -, -, hsize, hfits, hrefused, -⟩ := hagrees Height.narrow
  obtain ⟨size', -, -, hsize', -, -, hvalue, -⟩ := hagrees Signed.place
  cases Height.result_sizeOf.symm.trans hsize
  cases Height.result_sizeOf.symm.trans hsize'
  obtain ⟨v, next, hnext, hv, hsame⟩ := hvalue (by decide)
  refine ⟨hrefused.2 hfits, v, next, hv, hsame Height.changed (by decide) Height.span_eq, ?_⟩
  cases hnext
  rfl

end Decode

end StorageSnapshot

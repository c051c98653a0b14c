-- SUMMARY: Decoding from a fresh word meets no internal fault, whatever the store holds.
import StorageSnapshot.Proofs.Depth
import StorageSnapshot.Proofs.Moves

/-!
# Safety

Decoding faults where a type and a place do not agree. From a fresh word on it never comes to such a
place: a value of a pointer type is decoded at a fresh word only, and a value of a value type only
where it has room. That leaves one fault, for a mapping, whose contents cannot be listed.
-/

namespace StorageSnapshot

variable {nodes : Datum → Prop} {r : Resolver} {t u : Ty} {c c' : Cursor} {count : Nat}
  {halt : Halt}

/-! ## Places that are ready -/

/-- Whether a value of a type can be decoded at a place. -/
structure Ready (r : Resolver) (nodes : Datum → Prop) (t : Ty) (c : Cursor) : Prop where
  wellFormed : t.WellFormed nodes
  fresh : t.isPointer = true → c.isFresh = true
  room : t.isPointer = false → ∀ size, (r.sizeOf t).result = .ok size → size ≤ c.free

/-- Every value has room in a fresh word. -/
theorem Ready.of_isFresh (hr : r.Resolves nodes) (ht : t.WellFormed nodes)
    (hc : c.isFresh = true) : Ready r nodes t c := by
  refine ⟨ht, fun _ => hc, ?_⟩
  intro hpointer size hsize
  obtain ⟨-, hle⟩ : 0 < size ∧ size ≤ wordSize := (Takes.value hpointer hsize).isSized hr ht
  rw [Cursor.isFresh, beq_iff_eq] at hc
  rwa [hc]

/-- A place for a value is ready for it. -/
theorem Ready.of_place (hr : r.Resolves nodes) (ht : t.WellFormed nodes)
    (hplace : (r.place t c).result = .ok c') : Ready r nodes t c' := by
  cases hpointer : t.isPointer with
  | true =>
    rw [Resolver.result_place_pointer hpointer, Except.ok.injEq] at hplace
    exact .of_isFresh hr ht (hplace ▸ c.isFresh_roundUp)
  | false =>
    rcases ht.sizeOf hr hpointer with ⟨size, hsize, -, hle⟩ | ⟨e, he⟩
    · rw [Resolver.result_place_value hpointer hsize hle, Except.ok.injEq] at hplace
      by_cases hroom : size ≤ c.free
      · rw [if_pos hroom] at hplace
        subst hplace
        refine ⟨ht, by simp [hpointer], ?_⟩
        intro _ size' hsize'
        rw [hsize, Except.ok.injEq] at hsize'
        exact hsize' ▸ hroom
      · rw [if_neg hroom] at hplace
        exact .of_isFresh hr ht (hplace ▸ c.isFresh_nextWord)
    · rw [Resolver.result_place_error hpointer he] at hplace
      cases hplace

/-- There is a place for a value unless its type does not resolve. -/
theorem Resolver.Resolves.place_error (hr : r.Resolves nodes) (ht : t.WellFormed nodes) {f : Fault}
    (hplace : (r.place t c).result = .error f) : ∃ e, f = .unresolved e := by
  cases hpointer : t.isPointer with
  | true =>
    rw [Resolver.result_place_pointer hpointer] at hplace
    cases hplace
  | false =>
    rcases ht.sizeOf hr hpointer with ⟨size, hsize, -, hle⟩ | ⟨e, he⟩
    · rw [Resolver.result_place_value hpointer hsize hle] at hplace
      cases hplace
    · rw [Resolver.result_place_error hpointer he, Except.error.injEq] at hplace
      exact ⟨e, hplace.symm⟩

namespace Decode

variable {ctx : Context} {nested : Nested}

/-! ## Visits -/

/-- Whether decoding `count` elements from a place on comes to one at another place. -/
inductive VisitsElement (ctx : Context) (nested : Nested) (t : Ty) : Nat → Cursor → Cursor → Prop
  | first {count : Nat} {c : Cursor} : VisitsElement ctx nested t (count + 1) c c
  | later {count : Nat} {c next place c' : Cursor} {v : Value}
    (hv : (nested t c).result = .ok (v, next))
    (hplace : (ctx.resolver.place t next).result = .ok place)
    (h : VisitsElement ctx nested t count place c') : VisitsElement ctx nested t (count + 1) c c'

/-- Whether decoding members from a place on comes to one of a type at another place. -/
inductive VisitsMember (ctx : Context) (nested : Nested) : List Member → Cursor → Ty → Cursor → Prop
  | first {m : Member} {ms : List Member} {t : Ty} {c place : Cursor}
    (ht : (ctx.resolver.memberType m).result = .ok t)
    (hplace : (ctx.resolver.place t c).result = .ok place) :
    VisitsMember ctx nested (m :: ms) c t place
  | later {m : Member} {ms : List Member} {t u : Ty} {c place next c' : Cursor} {v : Value}
    (ht : (ctx.resolver.memberType m).result = .ok t)
    (hplace : (ctx.resolver.place t c).result = .ok place)
    (hv : (nested t place).result = .ok (v, next)) (h : VisitsMember ctx nested ms next u c') :
    VisitsMember ctx nested (m :: ms) c u c'

/-- Whether decoding a value of a type at a place comes to one of a type at another place. -/
inductive Visits (ctx : Context) : (depth : Int) → Ty → Cursor → Ty → Cursor → Prop
  | here {depth : Int} {t : Ty} {c : Cursor} (hdepth : depth ≤ ctx.limits.maxDepth) :
    Visits ctx depth t c t c
  | element {depth : Int} {typeString : Datum} {origin : Origin} {t u : Ty} {length : Option Int}
    {c start place c' : Cursor} {count : Nat} (hdepth : depth ≤ ctx.limits.maxDepth)
    (hstart : (elementsOf ctx (.array typeString origin t length) length c).result =
      .ok (count, start))
    (hplace : VisitsElement ctx (value ctx (depth + 1)) t count start place)
    (h : Visits ctx (depth + 1) t place u c') :
    Visits ctx depth (.array typeString origin t length) c u c'
  | member {depth : Int} {d : Declaration} {ms : List Member} {t u : Ty} {c place c' : Cursor}
    (hdepth : depth ≤ ctx.limits.maxDepth)
    (hplace : VisitsMember ctx (value ctx (depth + 1)) ms c t place)
    (h : Visits ctx (depth + 1) t place u c') : Visits ctx depth (.struct d ms) c u c'

/-- What may become of decoding that comes to the types and places in `visits`: a value, or none
with a warning, or a fault that says that one of these types is a mapping. -/
inductive Safe (visits : Ty → Cursor → Prop) : Except Halt (Decoded Value) → Prop
  | value (a : Decoded Value) : Safe visits (.ok a)
  | givenUp : Safe visits (.error .abort)
  | mapping {typeString : Datum} {origin : Origin} {key value : Ty} {c : Cursor}
    (h : visits (.mapping typeString origin key value) c) : Safe visits
      (.error (.fault (.unsupported (.mappingContents (.mapping typeString origin key value) c))))

variable {visits visits' : Ty → Cursor → Prop}

theorem Safe.mono (hle : ∀ t c, visits t c → visits' t c) {a : Except Halt (Decoded Value)}
    (h : Safe visits a) : Safe visits' a := by
  cases h with
  | value a => exact .value a
  | givenUp => exact .givenUp
  | mapping h => exact .mapping (hle _ _ h)

/-- What goes on to a value from what may give up is safe. -/
theorem Safe.bind {α : Type} {x : Except Halt α} (h : (∃ a, x = .ok a) ∨ x = .error .abort)
    (f : α → Decoded Value) : Safe visits (x >>= fun a => .ok (f a)) := by
  rcases h with ⟨a, rfl⟩ | rfl
  · exact .value (f a)
  · exact .givenUp

/-- A part that does not resolve gives up the whole, which is safe. -/
theorem Safe.settle {a : Except Halt (Decoded Value)}
    (h : Safe visits a ∨ ∃ e, a = .error (.fault (.unresolved e))) : Safe visits (settle a) := by
  rcases h with h | ⟨e, rfl⟩
  · cases h with
    | value a => exact .value a
    | givenUp => exact .givenUp
    | mapping h => exact .mapping h
  · exact .givenUp

/-! ## Parts -/

/-- Elements have no value because one that is visited has none, at a place that is ready. -/
theorem elements_error (hr : ctx.resolver.Resolves nodes) (h : Ready ctx.resolver nodes t c)
    (herror : (elements ctx nested t count [] c).result = .error halt) :
    (∃ e, halt = .fault (.unresolved e)) ∨ ∃ place, VisitsElement ctx nested t count c place ∧
      Ready ctx.resolver nodes t place ∧ (nested t place).result = .error halt := by
  induction count generalizing c with
  | zero => cases herror
  | succ count ih =>
    rw [result_elements_succ] at herror
    cases hv : (nested t c).result with
    | error halt' =>
      rw [hv, error_bind, Except.error.injEq] at herror
      exact .inr ⟨c, .first, h, herror ▸ hv⟩
    | ok found =>
      obtain ⟨v, next⟩ := found
      rw [hv, ok_bind] at herror
      cases hplace : (ctx.resolver.place t next).result with
      | error f =>
        obtain ⟨e, rfl⟩ := hr.place_error h.wellFormed hplace
        rw [hplace, mapError_error, error_bind, Except.error.injEq] at herror
        exact .inl ⟨e, herror.symm⟩
      | ok place =>
        rw [hplace, mapError_ok, ok_bind] at herror
        have hrest := bind_ok_eq_error herror
        rcases ih (.of_place hr h.wellFormed hplace) hrest with hleft | ⟨c', hvisits, hready, hc'⟩
        · exact .inl hleft
        · exact .inr ⟨c', .later hv hplace hvisits, hready, hc'⟩

/-- Members have no values because one that is visited has none, at a place that is ready. -/
theorem fields_error (hr : ctx.resolver.Resolves nodes) {ms : List Member}
    (hms : Member.AllWellFormed nodes ms)
    (herror : (fields ctx nested [] ms c).result = .error halt) :
    (∃ e, halt = .fault (.unresolved e)) ∨ ∃ t place, VisitsMember ctx nested ms c t place ∧
      Ready ctx.resolver nodes t place ∧ (nested t place).result = .error halt := by
  induction ms generalizing c with
  | nil => cases herror
  | cons m ms ih =>
    rw [result_fields_cons] at herror
    rcases hr.memberType hms.1 with ⟨t, htype, ht⟩ | ⟨e, he⟩
    · rw [htype, mapError_ok, ok_bind] at herror
      cases hplace : (ctx.resolver.place t c).result with
      | error f =>
        obtain ⟨e, rfl⟩ := hr.place_error ht hplace
        rw [hplace, mapError_error, error_bind, Except.error.injEq] at herror
        exact .inl ⟨e, herror.symm⟩
      | ok place =>
        rw [hplace, mapError_ok, ok_bind] at herror
        cases hv : (nested t place).result with
        | error halt' =>
          rw [hv, error_bind, Except.error.injEq] at herror
          exact .inr ⟨t, place, .first htype hplace, .of_place hr ht hplace, herror ▸ hv⟩
        | ok found =>
          obtain ⟨v, next⟩ := found
          rw [hv, ok_bind] at herror
          have hrest := bind_ok_eq_error herror
          rcases ih hms.2 hrest with hleft | ⟨u, c', hvisits, hready, hc'⟩
          · exact .inl hleft
          · exact .inr ⟨u, c', .later htype hplace hv hvisits, hready, hc'⟩
    · rw [he, mapError_error, error_bind, Except.error.injEq] at herror
      exact .inl ⟨e, herror.symm⟩

/-! ## Value types -/

/-- An elementary value that has room is decoded. -/
theorem elementary_safe (hs : ctx.store.WordsFit) {e : Elementary} (he : e.shape.IsSized)
    (hroom : ∀ size, Resolver.sizeOfShape? e.shape = some size → size ≤ c.free) :
    ∃ a, elementary ctx.store e c = .ok a := by
  obtain ⟨size, hsize, hpos, -⟩ := he.size
  obtain ⟨raw, next, hlength, hpacks⟩ := hs.packs hpos (hroom size hsize)
  obtain ⟨v, hv⟩ := exists_reads hsize hlength
  exact ⟨_, elementary_ok hpacks (hlength ▸ hsize) hv⟩

theorem address_safe (hs : ctx.store.WordsFit) (t : Ty) (hroom : addressSize ≤ c.free) :
    ∃ a, address ctx.store t c = .ok a := by
  obtain ⟨raw, next, hlength, hpacks⟩ := hs.packs (by decide) hroom
  exact ⟨_, address_ok t (a := ⟨raw, hlength⟩) hpacks⟩

theorem enum_safe (hs : ctx.store.WordsFit) {members : List Datum}
    (hroom : (Ty.ordinals members).size ≤ c.free) : ∃ a, enum ctx.store members c = .ok a := by
  obtain ⟨raw, next, hlength, hpacks⟩ := hs.packs (Ty.ordinals members).size_pos hroom
  exact ⟨_, enum_ok hpacks hlength⟩

/-- A value of a value type is decoded where it has room, unless an alias does not resolve. -/
theorem atType_safe_of_value (hr : ctx.resolver.Resolves nodes) (hs : ctx.store.WordsFit) :
    ∀ {t : Ty}, t.isPointer = false → Ready ctx.resolver nodes t c →
      Safe visits (atType ctx nested t c).result
  | .elementary e, _, h => by
    obtain ⟨a, ha⟩ := elementary_safe hs (e := e) h.wellFormed fun size hsize =>
      h.room rfl size (Resolver.result_sizeOfElementary hsize)
    rw [atType, result_entering h.wellFormed.checkName, result_stepExcept, ha]
    exact .value a
  | .contract .., _, h => by
    obtain ⟨a, ha⟩ := address_safe hs (.contract ..) (h.room rfl addressSize rfl)
    rw [atType, result_entering h.wellFormed.checkName, result_stepExcept, ha]
    exact .value a
  | .enum _ _ members, _, h => by
    have hroom : (Ty.ordinals members).size ≤ c.free := h.room rfl _ rfl
    obtain ⟨a, ha⟩ := enum_safe hs hroom
    rw [atType, result_entering h.wellFormed.checkName, result_stepExcept, ha]
    exact .value a
  | .aliasOf d underlying, _, h => by
    obtain ⟨-, hvalue, hunderlying⟩ := h.wellFormed
    have hready : Ready ctx.resolver nodes underlying c :=
      ⟨hunderlying, by simp [hvalue], fun _ => h.room rfl⟩
    rw [atType, result_entering h.wellFormed.checkName]
    exact .settle (.inl (atType_safe_of_value hr hs hvalue hready))
  | .aliasNode d node, _, h => by
    rw [atType, result_entering h.wellFormed.checkName, Traced.result_bind, result_step]
    apply Safe.settle
    rcases hr.elementaryOfAlias h.wellFormed.1 h.wellFormed.2 with ⟨e, he, hsized⟩ | ⟨e, he⟩
    · have hroom : ∀ size, Resolver.sizeOfShape? e.shape = some size → size ≤ c.free := by
        intro size hsize
        apply h.room rfl size
        rw [Resolver.sizeOf, Traced.result_bind, he, ok_bind,
          Resolver.result_sizeOfElementary hsize]
      obtain ⟨a, ha⟩ := elementary_safe hs hsized hroom
      have hname : (Ty.elementary e).checkName = .ok () := rfl
      rw [he, mapError_ok, ok_bind, result_entering hname, result_stepExcept, ha]
      exact .inl (.value a)
    · rw [he, mapError_error, error_bind]
      exact .inr ⟨e, rfl⟩

/-! ## Pointer types -/

/-- The header of a byte string is a word, and so is each word of its contents. -/
theorem byteString_safe (hs : ctx.store.WordsFit) (t : Ty) (hc : c.isFresh = true) :
    (∃ a, (byteString ctx t c).result = .ok a) ∨ (byteString ctx t c).result = .error .abort := by
  have hfresh : checkFresh t c = .ok () := by rw [checkFresh, if_pos hc]
  obtain ⟨header, hheader⟩ := hs.wordAt_ok c.slot.toNat
  rw [Store.wordAt_toNat] at hheader
  simp only [byteString, Traced.result_bind, result_stepExcept, hfresh, hheader, mapError_ok,
    ok_bind]
  split
  next =>
    split
    next => exact .inr rfl
    next => exact .inl ⟨_, rfl⟩
  next =>
    split
    next => exact .inr rfl
    next =>
      obtain ⟨raw, hraw, -⟩ := hs.read_ok c.slot.contents.toNat ((header.toNat - 1) / 2)
      rw [Slot.toNat_mod_count] at hraw
      rw [Traced.result_bind, result_stepExcept, hraw]
      exact .inl ⟨_, rfl⟩

/-- The header of an array is a word, and its elements start at a fresh word. -/
theorem elementsOf_safe (hs : ctx.store.WordsFit) (t : Ty) (length : Option Int)
    (hc : c.isFresh = true) :
    (∃ count start, (elementsOf ctx t length c).result = .ok (count, start) ∧
      start.isFresh = true) ∨ (elementsOf ctx t length c).result = .error .abort := by
  cases length with
  | none =>
    have hfree : IntType.uint256.size ≤ c.free := by
      rw [Cursor.isFresh, beq_iff_eq] at hc
      exact Nat.le_of_eq hc.symm
    obtain ⟨raw, next, hlength, hpacks⟩ := hs.packs (by decide) hfree
    simp only [elementsOf, Traced.result_bind, result_stepExcept, integer_ok hpacks hlength,
      mapError_ok, ok_bind]
    split
    next => exact .inr rfl
    next => exact .inl ⟨_, _, rfl, rfl⟩
  | some n =>
    rw [elementsOf]
    split
    next => exact .inr rfl
    next => exact .inl ⟨_, _, rfl, hc⟩

/-! ## Levels -/

/-- One level is safe if the level below it is. -/
theorem atType_safe (hr : ctx.resolver.Resolves nodes) (hs : ctx.store.WordsFit) {depth : Int}
    (hdepth : depth ≤ ctx.limits.maxDepth)
    (ih : ∀ t c, Ready ctx.resolver nodes t c →
      Safe (Visits ctx (depth + 1) t c) (value ctx (depth + 1) t c).result)
    (h : Ready ctx.resolver nodes t c) :
    Safe (Visits ctx depth t c) (atType ctx (value ctx (depth + 1)) t c).result := by
  have hname := h.wellFormed.checkName
  cases t with
  | elementary | contract | enum | aliasOf | aliasNode => exact atType_safe_of_value hr hs rfl h
  | bytes =>
    rw [atType, result_entering hname, Traced.result_bind]
    exact .settle (.inl (.bind (byteString_safe hs .bytes (h.fresh rfl)) fun a =>
      (.bytes a.1, a.2)))
  | string =>
    rw [atType, result_entering hname, Traced.result_bind]
    exact .settle (.inl (.bind (byteString_safe hs .string (h.fresh rfl)) fun a =>
      (.string (Text.decodeUtf8 a.1), a.2)))
  | array typeString origin element length =>
    rw [atType, result_entering hname, result_array]
    apply Safe.settle
    rcases elementsOf_safe hs (.array typeString origin element length) length (h.fresh rfl) with
      ⟨count, start, hstart, hfresh⟩ | habort
    · have hready : Ready ctx.resolver nodes element start :=
        .of_isFresh hr h.wellFormed.1 hfresh
      rw [hstart, ok_bind]
      cases hvs : (elements ctx (value ctx (depth + 1)) element count [] start).result with
      | ok vs => exact .inl (.value _)
      | error halt =>
        rcases elements_error hr hready hvs with ⟨e, rfl⟩ | ⟨place, hvisits, hready', hplace⟩
        · exact .inr ⟨e, rfl⟩
        · have hpart := ih element place hready'
          rw [hplace] at hpart
          exact .inl (hpart.mono fun _ _ hu => .element hdepth hstart hvisits hu)
    · rw [habort]
      exact .inl .givenUp
  | struct d ms =>
    rw [atType, result_entering hname, result_struct (h.fresh rfl)]
    apply Safe.settle
    cases hfs : (fields ctx (value ctx (depth + 1)) [] ms c).result with
    | ok fs => exact .inl (.value _)
    | error halt =>
      rcases fields_error hr h.wellFormed.2 hfs with ⟨e, rfl⟩ | ⟨u, place, hvisits, hready, hplace⟩
      · exact .inr ⟨e, rfl⟩
      · have hpart := ih u place hready
        rw [hplace] at hpart
        exact .inl (hpart.mono fun _ _ hu => .member hdepth hvisits hu)
  | mapping typeString origin key value =>
    rw [atType, result_entering hname]
    exact .mapping (.here hdepth)

/-- Decoding is safe at every place that is ready, by induction on the levels that are left. -/
theorem value_safe_of_ready (hr : ctx.resolver.Resolves nodes) (hs : ctx.store.WordsFit)
    (depth : Int) (h : Ready ctx.resolver nodes t c) :
    Safe (Visits ctx depth t c) (value ctx depth t c).result := by
  obtain ⟨levels, hlevels⟩ : ∃ n, n = budget ctx depth := ⟨_, rfl⟩
  induction levels generalizing depth t c with
  | zero =>
    have hdepth : (ctx.limits.maxDepth : Int) < depth := by
      simp only [budget] at hlevels
      omega
    rw [value_eq_tooDeep hdepth, tooDeep, Traced.result_bind,
      result_checkName h.wellFormed.checkName]
    exact .givenUp
  | succ levels ih =>
    have hdepth : depth ≤ ctx.limits.maxDepth := by
      simp only [budget] at hlevels
      omega
    have hbelow : levels = budget ctx (depth + 1) := by
      simp only [budget] at hlevels ⊢
      omega
    rw [value_eq_atType hdepth]
    exact atType_safe hr hs hdepth (fun t c hready => ih (depth + 1) hready hbelow) h

/--
Decoding a value of any type from a fresh word on yields a value or gives up, or it came to a
mapping; and so it does in a run, as long as the limit on depth does not admit more nested values
than a run can decode.
-/
theorem value_safe (hr : ctx.resolver.Resolves nodes) (hs : ctx.store.WordsFit)
    (ht : t.WellFormed nodes) (depth : Int) (slot : Slot) :
    Safe (Visits ctx depth t (.fresh slot)) (value ctx depth t (.fresh slot)).result ∧
      (budget ctx depth ≤ mostNested → Safe (Visits ctx depth t (.fresh slot))
        (boundedValue ctx depth t (.fresh slot)).result) := by
  have hready : Ready ctx.resolver nodes t (.fresh slot) := .of_isFresh hr ht rfl
  have hsafe := value_safe_of_ready hr hs depth hready
  refine ⟨hsafe, fun hbudget => ?_⟩
  rwa [boundedValue_eq_value hbudget]

/-! ## A struct that holds itself -/

namespace Chain

def weight : Datum :=
  .object [("nodeType", .text "ElementaryTypeName"), ("name", .text "uint128")]

def rest : Datum :=
  .object [("nodeType", .text "UserDefinedTypeName"), ("referencedDeclaration", .int 1)]

/-- Every reference leads to the struct. -/
def resolver : Resolver where
  lookup _ := .ok (.object [("nodeType", .text "StructDefinition"), ("name", .text "Chain"),
    ("canonicalName", .text "Chain"), ("id", .int 1), ("members", .list
      [.object [("name", .text "weight"), ("typeName", weight)],
        .object [("name", .text "rest"), ("typeName", rest)]])])

def type : Ty :=
  .struct ⟨⟨none, .int 1⟩, .text "Chain", .text "Chain"⟩
    [.node (.text "weight") weight, .node (.text "rest") rest]

def list : Ty := .array (.text "Chain[]") ⟨none, .int 0⟩ type none

def context : Context where
  store := { words := [(0, [0xff, 1]), ((Slot.count - 1 : Nat), Bytes.zeros 31 ++ [2])] }
  resolver := resolver
  limits := {}

theorem wellFormed : type.WellFormed fun node => node = weight ∨ node = rest :=
  ⟨rfl, .inl rfl, .inr rfl, trivial⟩

theorem wellFormed_list : list.WellFormed fun node => node = weight ∨ node = rest :=
  ⟨wellFormed, nofun⟩

theorem resolves : context.resolver.Resolves fun node => node = weight ∨ node = rest := by
  rintro node (rfl | rfl)
  · refine .inl ⟨.elementary ⟨"uint128", .text "uint128", .int ⟨false, 16, by decide, by decide⟩⟩,
      ?_, trivial⟩
    rw [Resolver.typeOfName, Ast.typeOfName]
    rfl
  · refine .inl ⟨type, ?_, wellFormed⟩
    rw [Resolver.typeOfName, Ast.typeOfName]
    rfl

end Chain

/-- An array of structs that hold themselves is decoded safely, and so it is in a run. -/
theorem value_safe_cyclic :
    Safe (Visits Chain.context 3 Chain.list (.fresh (BitVec.allOnes 256)))
        (value Chain.context 3 Chain.list (.fresh (BitVec.allOnes 256))).result ∧
      Safe (Visits Chain.context 3 Chain.list (.fresh (BitVec.allOnes 256)))
        (boundedValue Chain.context 3 Chain.list (.fresh (BitVec.allOnes 256))).result := by
  obtain ⟨hsafe, hbounded⟩ :=
    value_safe Chain.resolves (by decide) Chain.wellFormed_list 3 (BitVec.allOnes 256)
  exact ⟨hsafe, hbounded (by decide)⟩

/-! ## A limit that admits more than a run can decode -/

namespace Endless

/-- A reference to the struct. -/
def next : Datum :=
  .object [("nodeType", .text "UserDefinedTypeName"), ("referencedDeclaration", .int 1)]

/-- Every reference leads to a struct whose only member refers to it. -/
def resolver : Resolver where
  lookup _ := .ok (.object [("nodeType", .text "StructDefinition"), ("name", .text "S"),
    ("canonicalName", .text "S"), ("id", .int 1),
    ("members", .list [.object [("name", .text "next"), ("typeName", next)]])])

def type : Ty := .struct ⟨⟨none, .int 1⟩, .text "S", .text "S"⟩ [.node (.text "next") next]

/-- An empty store, and a limit on depth that is more than twice what a run can decode. -/
def context : Context where
  store := {}
  resolver := resolver
  limits := { depth := .ofNat 1000 }

theorem result_memberType :
    (context.resolver.memberType (.node (.text "next") next)).result = .ok type := by
  rw [Resolver.memberType, Resolver.typeOfName, Ast.typeOfName]
  rfl

theorem resolves : context.resolver.Resolves fun node => node = next := by
  rintro node rfl
  exact .inl ⟨type, result_memberType, rfl, rfl, trivial⟩

/-- However many levels are followed, the last of them decides. -/
theorem result_within (levels : Nat) {c : Cursor} (hc : c.isFresh = true) :
    (within context (fun _ _ => Traced.fail (.fault (.data .nestedTooDeep))) levels type c).result =
      .error (.fault (.data .nestedTooDeep)) := by
  induction levels generalizing c with
  | zero => rfl
  | succ levels ih =>
    have hpointer : type.isPointer = true := rfl
    have hplace := context.resolver.result_place_pointer hpointer c
    have hnext := ih c.isFresh_roundUp
    rw [within, type, atType, result_entering rfl, result_struct hc, result_fields_cons,
      result_memberType, mapError_ok, ok_bind, hplace, mapError_ok, ok_bind, hnext, error_bind,
      error_bind]
    rfl

end Endless

/-- A struct that holds itself meets the bound on nested values before the limit on depth. -/
theorem nested_too_deep_within_limit :
    Endless.context.resolver.Resolves (fun node => node = Endless.next) ∧
      Endless.context.store.WordsFit ∧ Endless.type.WellFormed (fun node => node = Endless.next) ∧
      (boundedValue Endless.context 0 Endless.type (.fresh 0)).result =
        .error (.fault (.data .nestedTooDeep)) ∧
      ¬ Safe (Visits Endless.context 0 Endless.type (.fresh 0))
        (boundedValue Endless.context 0 Endless.type (.fresh 0)).result := by
  have hbudget : ¬ budget Endless.context 0 ≤ mostNested := by decide
  have hresult : (boundedValue Endless.context 0 Endless.type (.fresh 0)).result =
      .error (.fault (.data .nestedTooDeep)) := by
    rw [boundedValue, if_neg hbudget]
    exact Endless.result_within mostNested rfl
  refine ⟨Endless.resolves, by decide, ⟨rfl, rfl, trivial⟩, hresult, ?_⟩
  rw [hresult]
  rintro ⟨⟩

end Decode

end StorageSnapshot

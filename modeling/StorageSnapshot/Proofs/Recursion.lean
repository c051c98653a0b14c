-- SUMMARY: The recursions over types end, on types that may refer to themselves.
import StorageSnapshot.Key
import StorageSnapshot.Proofs.Safety

/-!
# Recursion

A type may refer to itself, so recursion over types has no end of its own. Decoding goes one level
deeper with every part, up to the limit on depth. Looking through an alias stays on the same level;
but what an attached alias stands for is smaller, and a node leads to an elementary type only. Sizes
and keys of types know no depth, and need none: all that they look through are aliases. A struct
that is a member of itself runs into the limit, and has no value.
-/

namespace StorageSnapshot

/-! ## Recursions that end -/

/-- Whether a recursion ends, and yields `f`: `body` says what one call yields if `g` says it of the
calls inside of it, which are those in `calls`; and no sequence of calls inside of each other is
endless. -/
structure Terminates {α β : Type} (body : (g : α → β) → α → β) (calls : α → α → Prop) (f : α → β) :
    Prop where
  eq_body : ∀ x, f x = body f x
  congr_calls : ∀ g g' x, (∀ y, calls y x → g y = g' y) → body g x = body g' x
  wellFounded : WellFounded calls

/-- A recursion that ends yields nothing else. -/
theorem Terminates.unique {α β : Type} {body : (α → β) → α → β} {calls : α → α → Prop} {f g : α → β}
    (h : Terminates body calls f) (hg : ∀ x, g x = body g x) : g = f := by
  funext x
  induction x using h.wellFounded.induction with
  | _ x ih =>
    calc g x = body g x := hg x
      _ = body f x := h.congr_calls g f x ih
      _ = f x := (h.eq_body x).symm

/-! ## Aliases -/

/-- How many aliases a type leads through. -/
def Ty.aliases : Ty → Nat
  | .aliasOf _ underlying => underlying.aliases + 1
  | .aliasNode .. => 1
  | _ => 0

namespace Resolver

variable {r : Resolver} {t u : Ty} {α : Type}

/-- What an alias stands for. -/
def underlying? (r : Resolver) : Ty → Option (Traced Fault Ty)
  | .aliasOf _ underlying => some (pure underlying)
  | .aliasNode d node => some do return .elementary (← r.elementaryOfAlias d node)
  | _ => none

/-- The steps from an alias to what it stands for. -/
inductive Unwraps (r : Resolver) : Ty → Ty → Prop
  | attached (d : Declaration) (underlying : Ty) : Unwraps r underlying (.aliasOf d underlying)
  | node {d : Declaration} {node : Datum} {e : Elementary}
    (h : (r.elementaryOfAlias d node).result = .ok e) :
    Unwraps r (.elementary e) (.aliasNode d node)

theorem unwraps_of_underlying {x : Traced Fault Ty} (hx : r.underlying? t = some x)
    (hu : x.result = .ok u) : r.Unwraps u t := by
  cases t with
  | aliasOf d underlying =>
    cases hx
    cases hu
    exact .attached d _
  | aliasNode d node =>
    cases hx
    rw [Traced.result_bind] at hu
    obtain ⟨e, he, hu⟩ := bind_eq_ok.1 hu
    cases hu
    exact .node he
  | _ => cases hx

/-- Behind an alias is what is attached to it, or an elementary type. -/
theorem Unwraps.cases (h : r.Unwraps u t) :
    (∃ d, t = .aliasOf d u ∧ SizeOf.sizeOf u < SizeOf.sizeOf t) ∨
      ∃ d node e, t = .aliasNode d node ∧ u = .elementary e := by
  cases h with
  | attached d underlying =>
    refine .inl ⟨d, rfl, ?_⟩
    rw [Ty.aliasOf.sizeOf_spec]
    omega
  | node h => exact .inr ⟨_, _, _, rfl, rfl⟩

theorem Unwraps.aliases_lt (h : r.Unwraps u t) : u.aliases < t.aliases := by
  cases h with
  | attached d underlying => exact Nat.lt_succ_self _
  | node h => exact Nat.zero_lt_one

theorem wellFounded_unwraps (r : Resolver) : WellFounded r.Unwraps :=
  Subrelation.wf Unwraps.aliases_lt (InvImage.wf Ty.aliases Nat.lt_wfRel.wf)

/-- A node that an alias is declared by is either that of an elementary type or refused. -/
theorem result_elementaryOfAlias {d : Declaration} {node : Datum}
    (hu : (r.typeOfName node).result = .ok u) :
    (∃ e, u = .elementary e ∧ (r.elementaryOfAlias d node).result = .ok e) ∨
      (∀ e, u ≠ .elementary e) ∧
        (r.elementaryOfAlias d node).result = .error (.ofUnresolved (.notElementary u d)) := by
  rw [elementaryOfAlias, Traced.result_bind, hu, ok_bind]
  cases u with
  | elementary e => exact .inl ⟨e, rfl, rfl⟩
  | _ => exact .inr ⟨(by rintro e ⟨⟩), rfl⟩

/-- What a recursion through aliases yields at a type, where `here` says it of other types. -/
def throughAlias (r : Resolver) (here recurse : Ty → Traced Fault α) (t : Ty) : Traced Fault α :=
  match r.underlying? t with
  | some underlying => underlying >>= recurse
  | none => here t

theorem terminates_throughAlias {f : Ty → Traced Fault α}
    (h : ∀ t underlying, r.underlying? t = some underlying → f t = underlying >>= f) :
    Terminates (r.throughAlias f) r.Unwraps f where
  eq_body t := by
    unfold throughAlias
    split
    next underlying hunderlying => exact h t underlying hunderlying
    next => rfl
  congr_calls g g' t hg := by
    unfold throughAlias
    split
    next underlying hunderlying =>
      exact Traced.bind_congr_ok fun u hu => hg u (unwraps_of_underlying hunderlying hu)
    next => rfl
  wellFounded := r.wellFounded_unwraps

theorem terminates_sizeOf (r : Resolver) :
    Terminates (r.throughAlias r.sizeOf) r.Unwraps r.sizeOf := by
  apply terminates_throughAlias
  intro t underlying hunderlying
  cases t with
  | aliasOf d u =>
    cases hunderlying
    rw [sizeOf, pure_bind]
  | aliasNode d node =>
    cases hunderlying
    rw [sizeOf, bind_assoc]
    rfl
  | _ => cases hunderlying

theorem terminates_encodeRaw (r : Resolver) (key : Datum) :
    Terminates (r.throughAlias (Key.encodeRaw r key)) r.Unwraps (Key.encodeRaw r key) := by
  apply terminates_throughAlias
  intro t underlying hunderlying
  cases t with
  | aliasOf d u =>
    cases hunderlying
    rw [Key.encodeRaw, pure_bind]
  | aliasNode d node =>
    cases hunderlying
    rw [Key.encodeRaw, bind_assoc]
    rfl
  | _ => cases hunderlying

end Resolver

namespace Decode

variable {ctx : Context}

/-! ## Calls -/

/-- What a value is decoded from, with `depth` composite values around it. -/
structure Call where
  depth : Int
  type : Ty
  place : Cursor

/-- What one call of decoding yields if `decode` says it of the calls inside of it. -/
def callBy (ctx : Context) (decode : Call → Decoding (Decoded Value)) (x : Call) :
    Decoding (Decoded Value) :=
  if x.depth ≤ ctx.limits.maxDepth then
    match ctx.resolver.underlying? x.type with
    | some underlying => entering x.type x.place do
      let type ← step underlying
      decode { x with type }
    | none => atType ctx (fun type place => decode ⟨x.depth + 1, type, place⟩) x.type x.place
  else tooDeep ctx x.type x.place

/-- Which calls may be inside of a call. -/
inductive Calls (ctx : Context) : Call → Call → Prop
  | underlying {x : Call} {u : Ty} (hdepth : x.depth ≤ ctx.limits.maxDepth)
    (hu : ctx.resolver.Unwraps u x.type) : Calls ctx { x with type := u } x
  | element {x : Call} {typeString : Datum} {origin : Origin} {element : Ty} {length : Option Int}
    (hdepth : x.depth ≤ ctx.limits.maxDepth)
    (htype : x.type = .array typeString origin element length) (place : Cursor) :
    Calls ctx ⟨x.depth + 1, element, place⟩ x
  | member {x : Call} {d : Declaration} {ms : List Member} {m : Member} {t : Ty}
    (hdepth : x.depth ≤ ctx.limits.maxDepth) (htype : x.type = .struct d ms) (hm : m ∈ ms)
    (ht : (ctx.resolver.memberType m).result = .ok t) (place : Cursor) :
    Calls ctx ⟨x.depth + 1, t, place⟩ x

/-- A call inside of another is one level deeper, or is what an alias stands for. -/
theorem Calls.deeper_or_unwraps {x y : Call} (h : Calls ctx y x) :
    y.depth = x.depth + 1 ∨ y = { x with type := y.type } ∧ ctx.resolver.Unwraps y.type x.type := by
  cases h with
  | underlying hdepth hu => exact .inr ⟨rfl, hu⟩
  | element hdepth htype place => exact .inl rfl
  | member hdepth htype hm ht place => exact .inl rfl

/-- Levels are left for fewer calls inside of a call, or there are fewer aliases in front. -/
theorem Calls.lt {x y : Call} (h : Calls ctx y x) :
    Prod.Lex (· < ·) (· < ·) (budget ctx y.depth, y.type.aliases)
      (budget ctx x.depth, x.type.aliases) := by
  have hdeeper : x.depth ≤ ctx.limits.maxDepth → budget ctx (x.depth + 1) < budget ctx x.depth := by
    intro hdepth
    simp only [budget]
    omega
  cases h with
  | underlying hdepth hu => exact .right _ hu.aliases_lt
  | element hdepth htype place => exact .left _ _ (hdeeper hdepth)
  | member hdepth htype hm ht place => exact .left _ _ (hdeeper hdepth)

theorem wellFounded_calls (ctx : Context) : WellFounded (Calls ctx) :=
  Subrelation.wf Calls.lt (InvImage.wf (fun x : Call => (budget ctx x.depth, x.type.aliases))
    (WellFounded.prod_lex Nat.lt_wfRel.wf Nat.lt_wfRel.wf))

/-- Elements are decoded alike if the elements that decoding comes to are, out of any store. -/
theorem elements_congr {store : Store} {nested nested' : Nested} {t : Ty} {count : Nat} {c : Cursor}
    (h : ∀ place, VisitsElement ctx nested t count c place → nested t place = nested' t place)
    (done : List Value) :
    elements ctx nested t count done c = elements { ctx with store } nested' t count done c := by
  induction count generalizing done c with
  | zero => rfl
  | succ count ih =>
    rw [elements, elements, ← h c .first]
    refine Traced.bind_congr_ok fun v hv => Traced.bind_congr_ok fun place hplace => ?_
    exact ih (fun c' hc' => h c' (.later hv (mapError_eq_ok.1 hplace) hc')) _

theorem fields_congr {store : Store} {nested nested' : Nested} {ms : List Member} {c : Cursor}
    (h : ∀ t place, VisitsMember ctx nested ms c t place → nested t place = nested' t place)
    (done : List (Datum × Value)) :
    fields ctx nested done ms c = fields { ctx with store } nested' done ms c := by
  induction ms generalizing done c with
  | nil => rfl
  | cons m ms ih =>
    rw [fields, fields]
    refine Traced.bind_congr_ok fun t ht => Traced.bind_congr_ok fun place hplace => ?_
    have ht := mapError_eq_ok.1 ht
    have hplace := mapError_eq_ok.1 hplace
    rw [← h t place (.first ht hplace)]
    refine Traced.bind_congr_ok fun v hv => ?_
    exact ih (fun u c' hu => h u c' (.later ht hplace hv hu)) _

/-- The members that decoding comes to are members, and have the types that these resolve to. -/
theorem VisitsMember.exists_mem {nested : Nested} {ms : List Member} {c place : Cursor} {t : Ty}
    (h : VisitsMember ctx nested ms c t place) :
    ∃ m ∈ ms, (ctx.resolver.memberType m).result = .ok t := by
  induction h with
  | first ht => exact ⟨_, List.mem_cons_self, ht⟩
  | later _ _ _ _ ih =>
    obtain ⟨m, hm, ht⟩ := ih
    exact ⟨m, List.mem_cons_of_mem _ hm, ht⟩

/-- One call looks at nothing but what the calls inside of it yield. -/
theorem callBy_congr {decode decode' : Call → Decoding (Decoded Value)} {x : Call}
    (h : ∀ y, Calls ctx y x → decode y = decode' y) :
    callBy ctx decode x = callBy ctx decode' x := by
  unfold callBy
  split
  next hdepth =>
    split
    next underlying hunderlying =>
      congr 1
      refine Traced.bind_congr_ok fun u hu => h _ (.underlying hdepth ?_)
      exact Resolver.unwraps_of_underlying hunderlying (mapError_eq_ok.1 hu)
    next hother =>
      obtain ⟨depth, t, c⟩ := x
      cases t with
      | array typeString origin element length =>
        simp only [atType, array]
        congr 1
        refine bind_congr fun start => congrArg (· >>= _) ?_
        exact elements_congr (fun place _ => h _ (.element hdepth rfl place)) _
      | struct d ms =>
        simp only [atType, struct]
        congr 1
        refine bind_congr fun _ => congrArg (· >>= _) ?_
        refine fields_congr (fun u place hvisits => ?_) _
        obtain ⟨m, hm, hu⟩ := hvisits.exists_mem
        exact h _ (.member hdepth rfl hm hu place)
      | aliasOf d underlying => cases hother
      | aliasNode d node => cases hother
      | _ => rfl
  next => rfl

/-- Decoding is what its calls yield. -/
theorem value_eq_callBy (ctx : Context) (x : Call) :
    value ctx x.depth x.type x.place =
      callBy ctx (fun y => value ctx y.depth y.type y.place) x := by
  obtain ⟨depth, t, c⟩ := x
  unfold callBy
  split
  next hdepth =>
    have hvalue := value_eq_atType hdepth
    cases t with
    | aliasOf d underlying =>
      rw [hvalue, atType]
      exact congrArg _ (hvalue underlying c).symm
    | aliasNode d node =>
      rw [hvalue, atType]
      refine congrArg (entering _ c) (Eq.symm ?_)
      calc (step do return Ty.elementary (← ctx.resolver.elementaryOfAlias d node)) >>=
            (fun type => value ctx depth type c)
          = step (ctx.resolver.elementaryOfAlias d node) >>= fun e =>
            value ctx depth (.elementary e) c := by rw [step_bind, bind_assoc]; rfl
        _ = _ := bind_congr fun e => hvalue (.elementary e) c
    | _ => exact hvalue _ c
  next hdepth => exact value_eq_tooDeep (Int.lt_of_not_ge hdepth) t c

theorem terminates_value (ctx : Context) :
    Terminates (callBy ctx) (Calls ctx) fun x => value ctx x.depth x.type x.place where
  eq_body := value_eq_callBy ctx
  congr_calls _ _ _ := callBy_congr
  wellFounded := wellFounded_calls ctx

/-! ## Structs that hold themselves -/

/-- A struct that is a member of itself has no value: there is always one more level. -/
theorem value_ne_ok_of_member {d : Declaration} {ms : List Member} {m : Member} (hm : m ∈ ms)
    (ht : (ctx.resolver.memberType m).result = .ok (.struct d ms)) (depth : Int) (c : Cursor)
    (a : Decoded Value) : (value ctx depth (.struct d ms) c).result ≠ .ok a := by
  induction depth using level_induction ctx generalizing c a with
  | tooDeep depth hdeep =>
    rw [value_eq_tooDeep hdeep]
    exact result_tooDeep_ne_ok _ c a
  | level depth hdepth ih =>
    intro h
    rw [value_eq_atType hdepth, atType] at h
    have hbody := result_entering_eq_ok h
    simp only [struct, Traced.result_bind] at hbody
    obtain ⟨-, -, hbody⟩ := bind_eq_ok.1 hbody
    obtain ⟨fs, hfs, -⟩ := bind_eq_ok.1 hbody
    obtain ⟨t, place, v, ht', hv⟩ := (fields_eq_ok hfs).2 m hm
    rw [ht, Except.ok.injEq] at ht'
    exact ih place v (ht' ▸ hv)

/-- Nor has it a value in a run, which bounds the values inside of each other besides. -/
theorem boundedValue_ne_ok_of_member {d : Declaration} {ms : List Member} {m : Member} (hm : m ∈ ms)
    (ht : (ctx.resolver.memberType m).result = .ok (.struct d ms)) (depth : Int) (c : Cursor)
    (a : Decoded Value) : (boundedValue ctx depth (.struct d ms) c).result ≠ .ok a := by
  intro h
  rcases boundedValue_agrees ctx depth (.struct d ms) c with hsame | ⟨-, hbound⟩
  · exact value_ne_ok_of_member hm ht depth c a (hsame ▸ h)
  · cases hbound.symm.trans h

/--
Decoding, sizes and keys are recursions that end on any types, also on those that refer to
themselves. A call inside of decoding is one level deeper, or is made for what an alias stands for:
for an attached type, which is smaller, or for the elementary type that a node leads to. A node that
leads to another type is refused. A struct that is a member of itself has no value.
-/
theorem recursion_terminates (ctx : Context) :
    Terminates (callBy ctx) (Calls ctx) (fun x => value ctx x.depth x.type x.place) ∧
    Terminates (ctx.resolver.throughAlias ctx.resolver.sizeOf) ctx.resolver.Unwraps
      ctx.resolver.sizeOf ∧
    (∀ key,
      Terminates (ctx.resolver.throughAlias (Key.encodeRaw ctx.resolver key)) ctx.resolver.Unwraps
        (Key.encodeRaw ctx.resolver key) ∧
      ∀ t, Key.encode ctx.resolver t key =
        (Key.encodeRaw ctx.resolver key t).mapError (Key.refusal t key)) ∧
    (∀ x y, Calls ctx y x →
      y.depth = x.depth + 1 ∨
        y = { x with type := y.type } ∧ ctx.resolver.Unwraps y.type x.type) ∧
    (∀ t u, ctx.resolver.Unwraps u t →
      (∃ d, t = .aliasOf d u ∧ sizeOf u < sizeOf t) ∨
        ∃ d node e, t = .aliasNode d node ∧ u = .elementary e) ∧
    (∀ d node u, (ctx.resolver.typeOfName node).result = .ok u →
      (∃ e, u = .elementary e ∧ (ctx.resolver.elementaryOfAlias d node).result = .ok e) ∨
        (∀ e, u ≠ .elementary e) ∧ (ctx.resolver.elementaryOfAlias d node).result =
          .error (.ofUnresolved (.notElementary u d))) ∧
    ∀ d ms m, m ∈ ms → (ctx.resolver.memberType m).result = .ok (.struct d ms) →
      ∀ depth c a, (value ctx depth (.struct d ms) c).result ≠ .ok a ∧
        (boundedValue ctx depth (.struct d ms) c).result ≠ .ok a := by
  refine ⟨terminates_value ctx, ctx.resolver.terminates_sizeOf, fun key => ?_,
    fun _ _ => Calls.deeper_or_unwraps, fun _ _ => Resolver.Unwraps.cases,
    fun _ _ _ => Resolver.result_elementaryOfAlias, ?_⟩
  · exact ⟨ctx.resolver.terminates_encodeRaw key, fun _ => rfl⟩
  · intro d ms m hm ht depth c a
    exact ⟨value_ne_ok_of_member hm ht depth c a, boundedValue_ne_ok_of_member hm ht depth c a⟩

/-! ## A chain of structs -/

theorem Chain.typeOfName_rest : (context.resolver.typeOfName rest).result = .ok type := by
  rw [Resolver.typeOfName, Ast.typeOfName]
  rfl

/-- A chain has no end, and so no value; and an alias that stands for a chain is refused. -/
theorem recursion_terminates_chain :
    (∀ depth c a, (value Chain.context depth Chain.type c).result ≠ .ok a) ∧
      ∀ d : Declaration, d.IsWritable →
        (Chain.context.resolver.elementaryOfAlias d Chain.rest).result =
          .error (.unresolved (.notElementary Chain.type d)) := by
  obtain ⟨-, -, -, -, -, halias, hmember⟩ := recursion_terminates Chain.context
  refine ⟨fun depth c a => ?_, fun d hd => ?_⟩
  · exact (hmember _ _ (.node (.text "rest") Chain.rest) (by simp) Chain.typeOfName_rest
      depth c a).1
  · rcases halias d Chain.rest Chain.type Chain.typeOfName_rest with ⟨e, he, -⟩ | ⟨-, hrefused⟩
    · cases he
    · rw [hrefused, Fault.ofUnresolved_of_check]
      exact hd.checkCalled

end Decode

end StorageSnapshot

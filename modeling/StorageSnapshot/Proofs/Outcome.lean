-- SUMMARY: The outcomes of decoding apart from its records, and the outcome of parts in order.
import Mathlib.Data.List.Forall2
import StorageSnapshot.Decode.Value

/-!
# Outcomes

What decoding comes to is its result; the records beside it do not decide anything. Here are the
results of the steps that decoders are made of, without the values done so far that they carry
along, and what it means that parts are decoded in order up to the first that has no value.
-/

namespace StorageSnapshot

theorem bind_eq_ok {ε α β : Type} {x : Except ε α} {f : α → Except ε β} {b : β} :
    x >>= f = .ok b ↔ ∃ a, x = .ok a ∧ f a = .ok b := by
  cases x <;> simp [bind, Except.bind]

theorem map_eq_ok {ε α β : Type} {f : α → β} {x : Except ε α} {b : β} :
    f <$> x = .ok b ↔ ∃ a, x = .ok a ∧ f a = b := by
  cases x <;> simp [Functor.map, Except.map]

theorem map_eq_error {ε α β : Type} {f : α → β} {x : Except ε α} {e : ε} :
    f <$> x = .error e ↔ x = .error e := by
  cases x <;> simp [Functor.map, Except.map]

/-- What only goes on from a value has no value because of what stands in front. -/
theorem bind_ok_eq_error {ε α β : Type} {x : Except ε α} {f : α → β} {e : ε}
    (h : (x >>= fun a => .ok (f a)) = .error e) : x = .error e := by
  cases x with
  | ok a => cases h
  | error e' => exact congrArg Except.error (Except.error.inj h)

@[simp] theorem ok_bind {ε α β : Type} (a : α) (f : α → Except ε β) :
    (Except.ok a : Except ε α) >>= f = f a := rfl

@[simp] theorem error_bind {ε α β : Type} (e : ε) (f : α → Except ε β) :
    (Except.error e : Except ε α) >>= f = .error e := rfl

@[simp] theorem mapError_ok {ε δ α : Type} (f : ε → δ) (a : α) :
    (Except.ok a).mapError f = .ok a := rfl

@[simp] theorem mapError_error {ε δ α : Type} (f : ε → δ) (e : ε) :
    (Except.error e : Except ε α).mapError f = .error (f e) := rfl

theorem mapError_eq_ok {ε δ α : Type} {f : ε → δ} {x : Except ε α} {a : α} :
    x.mapError f = .ok a ↔ x = .ok a := by
  cases x <;> simp

/-- A list of steps that each succeed succeeds, with their results. -/
theorem mapM_eq_ok {ε α β : Type} {f : α → Except ε β} {as : List α}
    (h : ∀ a ∈ as, ∃ b, f a = .ok b) :
    ∃ bs, as.mapM f = .ok bs ∧ (∀ a ∈ as, ∃ b ∈ bs, f a = .ok b) ∧
      ∀ b ∈ bs, ∃ a ∈ as, f a = .ok b := by
  induction as with
  | nil => exact ⟨[], rfl, by simp, by simp⟩
  | cons a as ih =>
    obtain ⟨b, hb⟩ := h a List.mem_cons_self
    obtain ⟨bs, hbs, hto, hfrom⟩ := ih fun a ha => h a (List.mem_cons_of_mem _ ha)
    refine ⟨b :: bs, ?_, ?_, ?_⟩
    · rw [List.mapM_cons, hb, ok_bind, hbs]
      rfl
    · intro a' ha'
      rcases List.mem_cons.1 ha' with rfl | ha'
      · exact ⟨b, List.mem_cons_self, hb⟩
      · obtain ⟨b', hb', hf⟩ := hto a' ha'
        exact ⟨b', List.mem_cons_of_mem _ hb', hf⟩
    · intro b' hb'
      rcases List.mem_cons.1 hb' with rfl | hb'
      · exact ⟨a, List.mem_cons_self, hb⟩
      · obtain ⟨a', ha', hf⟩ := hfrom b' hb'
        exact ⟨a', List.mem_cons_of_mem _ ha', hf⟩

/-- Steps all succeed if each one does, with its own result. -/
theorem mapM_eq_ok_iff {ε α β : Type} {f : α → Except ε β} {as : List α}
    {bs : List β} : as.mapM f = .ok bs ↔ List.Forall₂ (fun a b => f a = .ok b) as bs := by
  induction as generalizing bs with
  | nil =>
    rw [List.mapM_nil, List.forall₂_nil_left_iff]
    simp only [pure, Except.pure, Except.ok.injEq, eq_comm]
  | cons a as ih =>
    rw [List.mapM_cons, List.forall₂_cons_left_iff, bind_eq_ok]
    constructor
    · rintro ⟨b, hb, h⟩
      obtain ⟨rest, hrest, h⟩ := bind_eq_ok.1 h
      cases h
      exact ⟨b, rest, hb, ih.1 hrest, rfl⟩
    · rintro ⟨b, rest, hb, hrest, rfl⟩
      refine ⟨b, hb, ?_⟩
      rw [ih.2 hrest]
      rfl

theorem mapM_congr {ε α β : Type} {f g : α → Except ε β} {as : List α}
    (h : ∀ a ∈ as, f a = g a) : as.mapM f = as.mapM g := by
  induction as with
  | nil => rfl
  | cons a as ih =>
    obtain ⟨ha, has⟩ := List.forall_mem_cons.1 h
    rw [List.mapM_cons, List.mapM_cons, ha, ih has]

/-- The first step that fails ends all of them. -/
theorem mapM_eq_error {ε α β : Type} {f : α → Except ε β} {first rest : List α} {a : α} {e : ε}
    (hfirst : ∀ x ∈ first, ∃ b, f x = .ok b) (ha : f a = .error e) :
    (first ++ a :: rest).mapM f = .error e := by
  obtain ⟨bs, hbs, -⟩ := mapM_eq_ok hfirst
  rw [List.mapM_append, hbs, ok_bind, List.mapM_cons, ha]
  rfl

/-- The results of steps that all succeed are those of the steps. -/
theorem exists_of_mapM_eq_ok {ε α β : Type} {f : α → Except ε β} {as : List α} {bs : List β}
    (h : as.mapM f = .ok bs) :
    (∀ a ∈ as, ∃ b ∈ bs, f a = .ok b) ∧ ∀ b ∈ bs, ∃ a ∈ as, f a = .ok b := by
  have heach : ∀ a ∈ as, ∃ b, f a = .ok b := by
    intro a ha
    induction mapM_eq_ok_iff.1 h with
    | nil => cases ha
    | @cons a' b' as bs hb _ ih =>
      rcases List.mem_cons.1 ha with rfl | ha
      · exact ⟨b', hb⟩
      · exact ih (mapM_eq_ok_iff.2 ‹_›) ha
  obtain ⟨bs', hbs', hparts⟩ := mapM_eq_ok heach
  cases h.symm.trans hbs'
  exact hparts

/-- What goes on from a result depends on no other result. -/
theorem Traced.bind_congr_ok {ε α β : Type} {x : Traced ε α} {f g : α → Traced ε β}
    (h : ∀ a, x.result = .ok a → f a = g a) : x >>= f = x >>= g := by
  cases hx : x.result with
  | ok a => rw [bind_of_ok hx, bind_of_ok hx, h a hx]
  | error e => rw [bind_of_error hx, bind_of_error hx]

namespace Decode

variable {ctx : Context} {nested : Nested}

/-! ## Steps -/

@[simp] theorem result_step {α : Type} (x : Traced Fault α) :
    (step x).result = x.result.mapError .fault := rfl

@[simp] theorem result_stepExcept {α : Type} (x : Except Fault α) :
    (stepExcept x).result = x.mapError .fault := rfl

theorem step_bind {α β : Type} (x : Traced Fault α) (f : α → Traced Fault β) :
    step (x >>= f) = step x >>= fun a => step (f a) := by
  rcases x with ⟨trace, fault | a⟩ <;> rfl

/-- A part that does not resolve gives up the whole. -/
def settle {α : Type} : Except Halt α → Except Halt α
  | .error (.fault (.unresolved _)) => .error .abort
  | outcome => outcome

theorem settle_eq_ok {α : Type} {outcome : Except Halt α} {a : α} :
    settle outcome = .ok a ↔ outcome = .ok a := by
  unfold settle
  split <;> simp_all

theorem result_checkName {type : Ty} (h : type.checkName = .ok ()) :
    (checkName type).result = .ok () := by
  simp [checkName, h, Fault.lift]

theorem result_entering_bind (type : Ty) (c : Cursor) (body : Decoding (Decoded Value)) :
    (entering type c body).result = (checkName type).result >>= fun _ => settle body.result := by
  have hdebug : ∀ topic message, (Traced.debug topic message : Decoding Unit).result = .ok () :=
    fun _ _ => rfl
  rw [entering, Traced.result_bind]
  congr 1; funext _
  rw [Traced.result_bind, hdebug, ok_bind, Traced.rescue]
  cases hbody : body.result with
  | ok a => rfl
  | error halt =>
    cases halt with
    | abort => rfl
    | fault f => cases f <;> rfl

theorem result_entering {type : Ty} (h : type.checkName = .ok ()) (c : Cursor)
    (body : Decoding (Decoded Value)) :
    (entering type c body).result = settle body.result := by
  rw [result_entering_bind, result_checkName h, ok_bind]

theorem result_entering_eq_ok {type : Ty} {c : Cursor} {body : Decoding (Decoded Value)}
    {a : Decoded Value} (h : (entering type c body).result = .ok a) : body.result = .ok a := by
  rw [result_entering_bind] at h
  obtain ⟨-, -, h⟩ := bind_eq_ok.1 h
  exact settle_eq_ok.1 h

/-! ## Loops -/

private theorem result_fields_done (done : List (Datum × Value)) (ms : List Member) (c : Cursor) :
    (fields ctx nested done ms c).result =
      (fields ctx nested [] ms c).result >>= fun fs => .ok (done.reverse ++ fs.1, fs.2) := by
  induction ms generalizing done c with
  | nil => simp [fields]
  | cons m ms ih =>
    simp only [fields, Traced.result_bind, bind_assoc]
    congr 1; funext type
    congr 1; funext place
    congr 1; funext v
    rw [ih, ih [(m.name, v.1)], bind_assoc]
    simp

theorem result_fields_nil (c : Cursor) : (fields ctx nested [] [] c).result = .ok ([], c) := rfl

/-- One member, and the members behind it. -/
theorem result_fields_cons (m : Member) (ms : List Member) (c : Cursor) :
    (fields ctx nested [] (m :: ms) c).result =
      (ctx.resolver.memberType m).result.mapError .fault >>= fun type =>
      (ctx.resolver.place type c).result.mapError .fault >>= fun place =>
      (nested type place).result >>= fun v =>
      (fields ctx nested [] ms v.2).result >>= fun fs => .ok ((m.name, v.1) :: fs.1, fs.2) := by
  simp only [fields, Traced.result_bind, result_step]
  congr 1; funext type
  congr 1; funext place
  congr 1; funext v
  rw [result_fields_done]
  rfl

private theorem result_elements_done (type : Ty) (count : Nat) (done : List Value) (c : Cursor) :
    (elements ctx nested type count done c).result =
      (elements ctx nested type count [] c).result >>= fun vs => .ok (done.reverse ++ vs) := by
  induction count generalizing done c with
  | zero => simp [elements]
  | succ count ih =>
    simp only [elements, Traced.result_bind, bind_assoc]
    congr 1; funext v
    congr 1; funext place
    rw [ih, ih [v.1], bind_assoc]
    simp

/-- One element, and the elements behind it. -/
theorem result_elements_succ (type : Ty) (count : Nat) (c : Cursor) :
    (elements ctx nested type (count + 1) [] c).result =
      (nested type c).result >>= fun v =>
      (ctx.resolver.place type v.2).result.mapError .fault >>= fun place =>
      (elements ctx nested type count [] place).result >>= fun vs => .ok (v.1 :: vs) := by
  simp only [elements, Traced.result_bind, result_step]
  congr 1; funext v
  congr 1; funext place
  rw [result_elements_done]
  rfl

/-- As many elements are decoded as there are, each of them by itself. -/
theorem elements_eq_ok {t : Ty} {c : Cursor} {count : Nat} {vs : List Value}
    (h : (elements ctx nested t count [] c).result = .ok vs) :
    vs.length = count ∧
      ∀ v ∈ vs, ∃ place next, (nested t place).result = .ok (v, next) := by
  induction count generalizing c vs with
  | zero =>
    cases h
    exact ⟨rfl, by simp⟩
  | succ count ih =>
    rw [result_elements_succ] at h
    obtain ⟨⟨v, next⟩, hv, h⟩ := bind_eq_ok.1 h
    obtain ⟨place, -, h⟩ := bind_eq_ok.1 h
    obtain ⟨rest, hrest, h⟩ := bind_eq_ok.1 h
    obtain ⟨hlength, hparts⟩ := ih hrest
    cases h
    refine ⟨by simp [hlength], ?_⟩
    intro u hu
    rcases List.mem_cons.1 hu with rfl | hu
    · exact ⟨c, next, hv⟩
    · exact hparts u hu

/-- The fields that are decoded are values of parts, and every member has one of them. -/
theorem fields_eq_ok {ms : List Member} {c next : Cursor} {fs : List (Datum × Value)}
    (h : (fields ctx nested [] ms c).result = .ok (fs, next)) :
    (∀ f ∈ fs, ∃ t place next, (nested t place).result = .ok (f.2, next)) ∧
      ∀ m ∈ ms, ∃ t place a, (ctx.resolver.memberType m).result = .ok t ∧
        (nested t place).result = .ok a := by
  induction ms generalizing c fs next with
  | nil =>
    cases h
    exact ⟨by simp, by simp⟩
  | cons m ms ih =>
    rw [result_fields_cons] at h
    obtain ⟨t, ht, h⟩ := bind_eq_ok.1 h
    obtain ⟨place, -, h⟩ := bind_eq_ok.1 h
    obtain ⟨⟨v, behind⟩, hv, h⟩ := bind_eq_ok.1 h
    obtain ⟨⟨rest, last⟩, hrest, h⟩ := bind_eq_ok.1 h
    obtain ⟨hfields, hmembers⟩ := ih hrest
    cases h
    refine ⟨?_, ?_⟩
    · intro f hf
      rcases List.mem_cons.1 hf with rfl | hf
      · exact ⟨t, place, behind, hv⟩
      · exact hfields f hf
    · intro n hn
      rcases List.mem_cons.1 hn with rfl | hn
      · exact ⟨t, place, (v, behind), mapError_eq_ok.1 ht, hv⟩
      · exact hmembers n hn

/-! ## Composite values -/

theorem result_struct {type : Ty} {c : Cursor} (h : c.isFresh = true) (ms : List Member) :
    (struct ctx nested type ms c).result =
      (fields ctx nested [] ms c).result >>= fun fs => .ok (.struct fs.1, fs.2.roundUp) := by
  have hfresh : checkFresh type c = .ok () := by rw [checkFresh, if_pos h]
  simp only [struct, Traced.result_bind, result_stepExcept, hfresh, mapError_ok, ok_bind,
    Traced.result_pure]

theorem result_array (type element : Ty) (length : Option Int) (c : Cursor) :
    (array ctx nested type element length c).result =
      (elementsOf ctx type length c).result >>= fun start =>
      (elements ctx nested element start.1 [] start.2).result >>= fun vs =>
      .ok (.array vs, c.nextWord) := by
  simp only [array, Traced.result_bind, Traced.result_pure]

end Decode

/-! ## Parts in order -/

/-- What decoding `count` parts in order comes to, if `At i` says what may become of part `i`: the
values of all parts, or else what became of the first part that has no value. -/
def InOrder (At : Nat → Except Halt (Decoded Value) → Prop) (count : Nat) :
    Except Halt (List Value) → Prop
  | .ok vs => vs.length = count ∧ ∀ i v, vs[i]? = some v → ∃ next, At i (.ok (v, next))
  | .error halt =>
    ∃ i < count, At i (.error halt) ∧ ∀ j < i, ∃ v next, At j (.ok (v, next))

namespace InOrder

variable {At : Nat → Except Halt (Decoded Value) → Prop} {count : Nat}

theorem zero : InOrder At 0 (.ok []) := ⟨rfl, by simp⟩

theorem stop {halt : Halt} (h : At 0 (.error halt)) : InOrder At (count + 1) (.error halt) :=
  ⟨0, Nat.succ_pos _, h, by simp⟩

/-- A part with a value, and what becomes of the parts behind it. -/
theorem succ {v : Value} {next : Cursor} {rest : Except Halt (List Value)}
    (h : At 0 (.ok (v, next))) (hrest : InOrder (fun i => At (i + 1)) count rest) :
    InOrder At (count + 1) (rest >>= fun vs => .ok (v :: vs)) := by
  cases rest with
  | ok vs =>
    refine ⟨by simp [hrest.1], ?_⟩
    intro i u hu
    cases i with
    | zero =>
      simp only [List.getElem?_cons_zero, Option.some.injEq] at hu
      exact ⟨next, hu ▸ h⟩
    | succ i => exact hrest.2 i u (by simpa using hu)
  | error halt =>
    obtain ⟨i, hi, hhalt, hbefore⟩ := hrest
    refine ⟨i + 1, by omega, hhalt, ?_⟩
    intro j hj
    cases j with
    | zero => exact ⟨v, next, h⟩
    | succ j => exact hbefore j (by omega)

theorem mono {Bt : Nat → Except Halt (Decoded Value) → Prop} (hle : ∀ i a, At i a → Bt i a)
    {outcome : Except Halt (List Value)} (h : InOrder At count outcome) :
    InOrder Bt count outcome := by
  cases outcome with
  | ok vs =>
    refine ⟨h.1, ?_⟩
    intro i v hv
    obtain ⟨next, hnext⟩ := h.2 i v hv
    exact ⟨next, hle i _ hnext⟩
  | error halt =>
    obtain ⟨i, hi, hhalt, hbefore⟩ := h
    refine ⟨i, hi, hle i _ hhalt, ?_⟩
    intro j hj
    obtain ⟨v, next, hv⟩ := hbefore j hj
    exact ⟨v, next, hle j _ hv⟩

/-- If only one thing may become of each part, only one thing may become of all of them. -/
theorem unique {a b : Except Halt (List Value)} (ha : InOrder At count a)
    (hb : InOrder At count b) (hAt : ∀ i a b, At i a → At i b → a = b) : a = b := by
  cases a with
  | ok vs =>
    cases b with
    | ok us =>
      congr 1
      apply List.ext_getElem?
      intro i
      by_cases hi : i < count
      · have hv := List.getElem?_eq_getElem (ha.1.symm ▸ hi : i < vs.length)
        have hu := List.getElem?_eq_getElem (hb.1.symm ▸ hi : i < us.length)
        obtain ⟨next, hnext⟩ := ha.2 i _ hv
        obtain ⟨next', hnext'⟩ := hb.2 i _ hu
        have heq := hAt i _ _ hnext hnext'
        simp only [Except.ok.injEq, Prod.mk.injEq] at heq
        rw [hv, hu, heq.1]
      · rw [List.getElem?_eq_none (by have := ha.1; omega),
          List.getElem?_eq_none (by have := hb.1; omega)]
    | error halt =>
      obtain ⟨i, hi, hhalt, -⟩ := hb
      obtain ⟨next, hnext⟩ := ha.2 i _ (List.getElem?_eq_getElem (ha.1.symm ▸ hi))
      cases hAt i _ _ hnext hhalt
  | error halt =>
    obtain ⟨i, hi, hhalt, hbefore⟩ := ha
    cases b with
    | ok us =>
      obtain ⟨next, hnext⟩ := hb.2 i _ (List.getElem?_eq_getElem (hb.1.symm ▸ hi))
      cases hAt i _ _ hnext hhalt
    | error halt' =>
      obtain ⟨j, hj, hhalt', hbefore'⟩ := hb
      -- Both stop at the same part: all parts in front of either have values.
      rcases Nat.lt_trichotomy i j with hlt | heq | hgt
      · obtain ⟨v, next, hv⟩ := hbefore' i hlt
        cases hAt i _ _ hv hhalt
      · subst heq
        have heq := hAt i _ _ hhalt hhalt'
        simpa using heq
      · obtain ⟨v, next, hv⟩ := hbefore j hgt
        cases hAt j _ _ hv hhalt'

end InOrder

/-- What becomes of a whole with `count` parts that are decoded in order: what the values of all
parts make, if `Makes` says it, or else what became of the first part that has no value. -/
inductive Composed {α : Type} (At : Nat → Except Halt (Decoded Value) → Prop) (count : Nat)
    (Makes : List Value → α → Prop) : Except Halt α → Prop
  | done {vs : List Value} {a : α} (hvs : InOrder At count (.ok vs)) (ha : Makes vs a) :
    Composed At count Makes (.ok a)
  | stopped {halt : Halt} (h : InOrder At count (.error halt)) :
    Composed At count Makes (.error halt)

theorem Composed.unique {α : Type} {At : Nat → Except Halt (Decoded Value) → Prop} {count : Nat}
    {Makes : List Value → α → Prop} {x y : Except Halt α} (hx : Composed At count Makes x)
    (hy : Composed At count Makes y) (hAt : ∀ i a b, At i a → At i b → a = b)
    (hMakes : ∀ vs a b, Makes vs a → Makes vs b → a = b) : x = y := by
  cases hx with
  | done hvs ha => cases hy with
    | done hvs' hb =>
      have hsame := hvs.unique hvs' hAt
      rw [Except.ok.injEq] at hsame
      subst hsame
      rw [hMakes _ _ _ ha hb]
    | stopped h => cases hvs.unique h hAt
  | stopped h => cases hy with
    | done hvs _ => cases h.unique hvs hAt
    | stopped h' =>
      have hsame := h.unique h' hAt
      rw [Except.error.injEq] at hsame
      rw [hsame]

end StorageSnapshot

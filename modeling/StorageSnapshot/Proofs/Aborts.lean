-- SUMMARY: Values that are given up: decoding leaves one warning for each, and no other.
import StorageSnapshot.Decode.MappingPath
import StorageSnapshot.Proofs.Outcome

/-!
# Values that are given up

Whoever gives a value up leaves a warning that says why. What is around the value is given up with
it, and adds nothing. So decoding leaves one such warning if it gives the value up in the end, and
none if it has a value or a fault ends it.
-/

namespace StorageSnapshot

/-- Whether a record says that a value was given up. -/
def Record.isAbort (r : Record) : Bool := Topic.aborts.contains r.topic && r.level == .warning

namespace Traced

variable {ε δ α β : Type}

/-- The records that say that a value was given up. -/
def aborts (x : Traced ε α) : List Record := x.trace.filter Record.isAbort

/-! ## Silence -/

/-- Whether no record says that a value was given up. -/
def Silent (x : Traced ε α) : Prop := x.aborts = []

theorem aborts_bind_of_ok {x : Traced ε α} {a : α} (h : x.result = .ok a) (f : α → Traced ε β) :
    (x >>= f).aborts = x.aborts ++ (f a).aborts := by
  rw [bind_of_ok h]
  exact List.filter_append ..

theorem aborts_bind_of_error {x : Traced ε α} {e : ε} (h : x.result = .error e)
    (f : α → Traced ε β) : (x >>= f).aborts = x.aborts := by
  rw [bind_of_error h]
  rfl

/-- What comes of a sequence comes of its last step, and each step reports for itself. -/
theorem ok_of_bind {x : Traced ε α} {f : α → Traced ε β} {b : β} (h : (x >>= f).result = .ok b) :
    ∃ a, x.result = .ok a ∧ (f a).result = .ok b ∧ (x >>= f).aborts = x.aborts ++ (f a).aborts := by
  rw [result_bind] at h
  obtain ⟨a, ha, hb⟩ := bind_eq_ok.1 h
  exact ⟨a, ha, hb, aborts_bind_of_ok ha f⟩

theorem ok_of_bind_pure {x : Traced ε α} {f : α → β} {b : β}
    (h : (x >>= fun a => Pure.pure (f a)).result = .ok b) :
    ∃ a, x.result = .ok a ∧ f a = b ∧ (x >>= fun a => Pure.pure (f a)).aborts = x.aborts := by
  obtain ⟨a, ha, hb, haborts⟩ := ok_of_bind h
  rw [result_pure, Except.ok.injEq] at hb
  exact ⟨a, ha, hb, haborts.trans (List.append_nil _)⟩

theorem rescue_of_ok {x : Traced ε α} {a : α} (h : x.result = .ok a)
    (handler : ε → Traced δ α) : x.rescue handler = ⟨x.trace, .ok a⟩ := by
  simp only [rescue, h]

theorem rescue_of_error {x : Traced ε α} {e : ε} (h : x.result = .error e)
    (handler : ε → Traced δ α) :
    x.rescue handler = ⟨x.trace ++ (handler e).trace, (handler e).result⟩ := by
  simp only [rescue, h]

theorem aborts_rescue_of_error {x : Traced ε α} {e : ε} (h : x.result = .error e)
    (handler : ε → Traced δ α) :
    (x.rescue handler).aborts = x.aborts ++ (handler e).aborts := by
  rw [rescue_of_error h]
  exact List.filter_append ..

namespace Silent

theorem pure (a : α) : Silent (Pure.pure a : Traced ε α) := rfl

theorem fail (e : ε) : Silent (Traced.fail e : Traced ε α) := rfl

theorem lift (x : Except ε α) : Silent (liftM x : Traced ε α) := rfl

theorem debug (topic message : String) : Silent (Traced.debug topic message : Traced ε Unit) := by
  have hlevel : Record.isAbort ⟨topic, .debug, message⟩ = false := Bool.and_false _
  simp [Silent, aborts, Traced.debug, record, hlevel]

/-- Warnings on other topics are about other things. -/
theorem warning {topic : String} (h : Topic.aborts.contains topic = false) (message : String) :
    Silent (Traced.warning topic message : Traced ε Unit) := by
  have htopic : Record.isAbort ⟨topic, .warning, message⟩ = false := by
    rw [Record.isAbort, h, Bool.false_and]
  simp [Silent, aborts, Traced.warning, record, htopic]

theorem bind {x : Traced ε α} {f : α → Traced ε β} (hx : Silent x) (hf : ∀ a, Silent (f a)) :
    Silent (x >>= f) := by
  cases h : x.result with
  | ok a => rw [Silent, aborts_bind_of_ok h, hx, hf a, List.append_nil]
  | error e => rw [Silent, aborts_bind_of_error h, hx]

theorem ok_of_bind {x : Traced ε α} (hx : Silent x) {f : α → Traced ε β} {b : β}
    (h : (x >>= f).result = .ok b) :
    ∃ a, x.result = .ok a ∧ (f a).result = .ok b ∧ (x >>= f).aborts = (f a).aborts := by
  obtain ⟨a, ha, hb, haborts⟩ := Traced.ok_of_bind h
  rw [hx, List.nil_append] at haborts
  exact ⟨a, ha, hb, haborts⟩

theorem mapError {x : Traced ε α} (h : Silent x) (f : ε → δ) : Silent (x.mapError f) := h

theorem ite {p : Prop} [Decidable p] {x y : Traced ε α} (hx : Silent x) (hy : Silent y) :
    Silent (if p then x else y) := by
  split
  · exact hx
  · exact hy

/-- Records that are left in front of others. -/
theorem after {x : Traced ε α} {y : Traced δ β} (hx : Silent x) (hy : Silent y) :
    Silent (⟨x.trace ++ y.trace, y.result⟩ : Traced δ β) := by
  have happend : (⟨x.trace ++ y.trace, y.result⟩ : Traced δ β).aborts = x.aborts ++ y.aborts :=
    List.filter_append ..
  rw [Silent, happend, hx, hy, List.append_nil]

theorem foldlM {f : β → α → Traced ε β} (hf : ∀ b a, Silent (f b a)) (xs : List α) (b : β) :
    Silent (xs.foldlM f b) := by
  induction xs generalizing b with
  | nil => exact .pure b
  | cons x xs ih =>
    rw [List.foldlM_cons]
    exact (hf b x).bind ih

end Silent

end Traced

open Traced (Silent)

/-! ## Resolving -/

namespace Resolver

/-- Failures to resolve a type are no news by themselves. -/
theorem silent_typeOfName (r : Resolver) (node : Datum) : Silent (r.typeOfName node) := by
  have hdebug : ∀ e, (recordsOfNode e).filter Record.isAbort = [] := by
    intro e
    cases e <;> simp [recordsOfNode, Record.isAbort]
  unfold typeOfName
  split
  next e _ =>
    split
    · simp [Silent, Traced.aborts, recordsOfFailure, hdebug, Record.isAbort]
    · exact hdebug e
  next => rfl

theorem silent_boundedTypeOfName (r : Resolver) (node : Datum) :
    Silent (r.boundedTypeOfName node) :=
  .ite (r.silent_typeOfName node) (.fail _)

theorem silent_memberType (r : Resolver) (m : Member) : Silent (r.memberType m) := by
  cases m with
  | attached name type => exact .pure type
  | node name typeName => exact r.silent_typeOfName typeName

theorem silent_elementaryOfAlias (r : Resolver) (d : Declaration) (node : Datum) :
    Silent (r.elementaryOfAlias d node) := by
  refine (r.silent_typeOfName node).bind fun type => ?_
  cases type with
  | elementary e => exact .pure e
  | _ => exact .fail _

theorem silent_sizeOfElementary (e : Elementary) : Silent (sizeOfElementary e) := by
  unfold sizeOfElementary
  split
  · exact .pure _
  · exact .fail _

theorem silent_sizeOf (r : Resolver) : ∀ t : Ty, Silent (r.sizeOf t)
  | .elementary e => silent_sizeOfElementary e
  | .contract .. => .pure _
  | .enum .. => .pure _
  | .aliasOf _ underlying => silent_sizeOf r underlying
  | .aliasNode d node => (r.silent_elementaryOfAlias d node).bind silent_sizeOfElementary
  | .bytes | .string | .mapping .. | .array .. | .struct .. =>
    (Silent.lift _).bind fun _ => .fail _

theorem silent_place (r : Resolver) (t : Ty) (c : Cursor) : Silent (r.place t c) := by
  have hfits : Silent (r.fits t c) :=
    .ite (.pure _) ((r.silent_sizeOf t).bind fun _ =>
      .ite ((Silent.lift _).bind fun _ => .fail _) (.pure _))
  exact hfits.bind fun _ => .ite (.pure _) (.pure _)

end Resolver

namespace Key

theorem silent_encodeRaw (r : Resolver) (key : Datum) : ∀ t : Ty, Silent (encodeRaw r key t)
  | .aliasOf _ underlying => silent_encodeRaw r key underlying
  | .aliasNode d node => (r.silent_elementaryOfAlias d node).bind fun _ => .lift _
  | .elementary _ | .bytes | .string | .contract .. | .enum .. => .lift _
  | .mapping .. | .array .. | .struct .. => (Silent.lift _).bind fun _ => .fail _

theorem silent_encode (r : Resolver) (type : Ty) (key : Datum) : Silent (encode r type key) :=
  (silent_encodeRaw r key type).mapError _

end Key

/-! ## Giving up -/

namespace Decode

/-- The number of values that an outcome gives up. -/
def givenUp {α : Type} : Except Halt α → Nat
  | .error .abort => 1
  | _ => 0

/-- Whether a decoding leaves one record if it is given up, and otherwise none. -/
def Reports {α : Type} (x : Decoding α) : Prop := x.aborts.length = givenUp x.result

namespace Reports

variable {α β : Type}

theorem pure (a : α) : Reports (Pure.pure a : Decoding α) := rfl

theorem fault (f : Fault) : Reports (Traced.fail (.fault f) : Decoding α) := rfl

theorem giveUp (reason : String) : Reports (giveUp reason : Decoding α) := rfl

theorem step {x : Traced Fault α} (h : Silent x) : Reports (step x) := by
  have haborts : (Decode.step x).aborts = [] := h
  rw [Reports, haborts, result_step]
  cases x.result <;> rfl

theorem stepExcept (x : Except Fault α) : Reports (stepExcept x) := step (.lift x)

theorem debug (topic message : String) : Reports (Traced.debug topic message : Decoding Unit) := by
  rw [Reports, Silent.debug]
  rfl

theorem bind {x : Decoding α} {f : α → Decoding β} (hx : Reports x) (hf : ∀ a, Reports (f a)) :
    Reports (x >>= f) := by
  rw [Reports] at hx ⊢
  cases h : x.result with
  | ok a =>
    rw [h] at hx
    rw [Traced.aborts_bind_of_ok h, List.length_append, hx, hf a, Traced.result_bind, h]
    exact Nat.zero_add _
  | error halt =>
    rw [h] at hx
    rw [Traced.aborts_bind_of_error h, hx, Traced.result_bind, h]
    cases halt <;> rfl

theorem ite {p : Prop} [Decidable p] {x y : Decoding α} (hx : Reports x) (hy : Reports y) :
    Reports (if p then x else y) := by
  split
  · exact hx
  · exact hy

/-- Who gives up instead of a fault leaves the record that the fault did not leave. -/
theorem rescue {x : Decoding α} (hx : Reports x) {handler : Halt → Decoding α}
    (habort : handler .abort = Traced.fail .abort) (hfault : ∀ f, Reports (handler (.fault f))) :
    Reports (x.rescue handler) := by
  rw [Reports] at hx ⊢
  cases h : x.result with
  | ok a =>
    rw [h] at hx
    rw [Traced.rescue_of_ok h]
    exact hx
  | error halt =>
    rw [h] at hx
    rw [Traced.aborts_rescue_of_error h, Traced.rescue_of_error h, List.length_append, hx]
    cases halt with
    | abort =>
      rw [habort]
      rfl
    | fault f =>
      rw [hfault f]
      exact Nat.zero_add _

theorem rescue_silent {x : Traced Fault α} (hx : Silent x) {handler : Fault → Decoding α}
    (h : ∀ f, Reports (handler f)) : Reports (x.rescue handler) := by
  rw [Reports]
  cases hresult : x.result with
  | ok a =>
    rw [Traced.rescue_of_ok hresult]
    exact congrArg List.length hx
  | error f =>
    rw [Traced.aborts_rescue_of_error hresult, Traced.rescue_of_error hresult, hx, List.nil_append]
    exact h f

end Reports

variable {nested : Nested}

/-! ## Decoders -/

theorem reports_byteString (ctx : Context) (t : Ty) (c : Cursor) :
    Reports (byteString ctx t c) := by
  refine .bind (.stepExcept _) fun _ => .bind (.stepExcept _) fun header => ?_
  refine .ite (.ite (.giveUp _) (.pure _)) (.ite (.giveUp _) ?_)
  exact .bind (.stepExcept _) fun _ => .pure _

theorem reports_elementsOf (ctx : Context) (t : Ty) (length : Option Int) (c : Cursor) :
    Reports (elementsOf ctx t length c) := by
  cases length with
  | none => exact .bind (.stepExcept _) fun _ => .ite (.giveUp _) (.pure _)
  | some n => exact .ite (.giveUp _) (.pure _)

theorem reports_elements (ctx : Context) (h : ∀ t c, Reports (nested t c)) (t : Ty) (count : Nat)
    (done : List Value) (c : Cursor) : Reports (elements ctx nested t count done c) := by
  induction count generalizing done c with
  | zero => exact .pure _
  | succ count ih =>
    refine .bind (h t c) fun v => .bind (.step ?_) fun place => ih _ _
    exact ctx.resolver.silent_place t v.2

theorem reports_fields (ctx : Context) (h : ∀ t c, Reports (nested t c)) (ms : List Member)
    (done : List (Datum × Value)) (c : Cursor) : Reports (fields ctx nested done ms c) := by
  induction ms generalizing done c with
  | nil => exact .pure _
  | cons m ms ih =>
    refine .bind (.step (ctx.resolver.silent_memberType m)) fun type => ?_
    refine .bind (.step (ctx.resolver.silent_place type c)) fun place => ?_
    exact .bind (h type place) fun v => ih _ _

/-- What is around a value that is given up adds no record, unless a type does not resolve. -/
theorem reports_entering (t : Ty) (c : Cursor) {body : Decoding (Decoded Value)}
    (h : Reports body) : Reports (entering t c body) := by
  refine .bind (.stepExcept _) fun _ => .bind (.debug _ _) fun _ => h.rescue rfl fun f => ?_
  cases f with
  | unresolved e => exact .giveUp _
  | _ => exact .fault _

/-- One case for each type: what its parts report is all that there is to report. -/
theorem reports_atType (ctx : Context) (h : ∀ t c, Reports (nested t c)) :
    ∀ t c, Reports (atType ctx nested t c)
  | .elementary _, c | .contract .., c | .enum .., c => reports_entering _ c (.stepExcept _)
  | .aliasOf _ underlying, c => reports_entering _ c (reports_atType ctx h underlying c)
  | .aliasNode d node, c => by
    refine reports_entering _ c (.bind (.step ?_) fun e => reports_entering _ c (.stepExcept _))
    exact ctx.resolver.silent_elementaryOfAlias d node
  | .bytes, c | .string, c =>
    reports_entering _ c (.bind (reports_byteString ctx _ c) fun _ => .pure _)
  | .array _ _ element length, c => by
    refine reports_entering _ c (.bind (reports_elementsOf ctx _ length c) fun start => ?_)
    exact .bind (reports_elements ctx h element start.1 [] start.2) fun _ => .pure _
  | .struct _ ms, c => by
    refine reports_entering _ c (.bind (.stepExcept _) fun _ => ?_)
    exact .bind (reports_fields ctx h ms [] c) fun _ => .pure _
  | .mapping .., c => reports_entering _ c (.fault _)

theorem reports_within (ctx : Context) {deeper : Nested} (h : ∀ t c, Reports (deeper t c))
    (budget : Nat) (t : Ty) (c : Cursor) : Reports (within ctx deeper budget t c) := by
  induction budget generalizing t c with
  | zero => exact h t c
  | succ budget ih => exact reports_atType ctx ih t c

theorem reports_value (ctx : Context) (depth : Int) (t : Ty) (c : Cursor) :
    Reports (value ctx depth t c) :=
  reports_within ctx (fun _ _ => .bind (.stepExcept _) fun _ => .giveUp _) _ t c

theorem reports_boundedValue (ctx : Context) (depth : Int) (t : Ty) (c : Cursor) :
    Reports (boundedValue ctx depth t c) :=
  .ite (reports_value ctx depth t c) (reports_within ctx (fun _ _ => .fault _) _ t c)

/-! ## Entries of mappings -/

theorem reports_entryPlace (ctx : Context) (t keyType : Ty) (c : Cursor) (key : Datum) :
    Reports (entryPlace ctx t keyType c key) := by
  refine .bind (.rescue_silent (Key.silent_encode ctx.resolver keyType key) fun f => ?_)
    fun _ => .bind (.stepExcept _) fun _ => .bind (.stepExcept _) fun _ =>
      .bind (.debug _ _) fun _ => .pure _
  cases f with
  | unresolved e => exact .bind (.stepExcept _) fun _ => .giveUp _
  | _ => exact .fault _

/-- The induction is on the keys. A place that is not known leaves no key to follow. -/
theorem reports_followKeys (ctx : Context) (t : Ty) (c : Cursor) (keys : List Datum) :
    Reports (followKeys ctx t c keys) := by
  induction keys generalizing t c with
  | nil => cases t <;> exact .pure _
  | cons key keys ih =>
    cases t with
    | mapping typeString origin keyType value =>
      exact .bind (reports_entryPlace ctx _ keyType c key) fun place => ih value place
    | _ => exact .stepExcept _

theorem reports_mappingPathBy (ctx : Context) {decode : Int → Nested}
    (h : ∀ depth t c, Reports (decode depth t c)) (t : Ty) (c : Cursor) (keys : List Datum) :
    Reports (mappingPathBy decode ctx t c keys) := by
  refine .bind (.stepExcept _) fun _ => .bind (.stepExcept _) fun _ => ?_
  refine .bind (reports_followKeys ctx t c keys) fun valuePlace => ?_
  exact .bind (h _ _ _) fun _ => .pure _

theorem reports_mappingPath (ctx : Context) (t : Ty) (c : Cursor) (keys : List Datum) :
    Reports (mappingPath ctx t c keys) :=
  reports_mappingPathBy ctx (reports_value ctx) t c keys

theorem reports_boundedMappingPath (ctx : Context) (t : Ty) (c : Cursor) (keys : List Datum) :
    Reports (boundedMappingPath ctx t c keys) :=
  reports_mappingPathBy ctx (reports_boundedValue ctx) t c keys

end Decode

end StorageSnapshot

-- SUMMARY: What a computation may end in: values of one kind, and errors of another.
import StorageSnapshot.Proofs.Outcome

/-!
# Kinds of failure

A computation that ends in errors of one kind only does so because all of its steps do. The kinds of
errors are sets of faults; those that a caller is told about are few.
-/

namespace StorageSnapshot

theorem ok_of_toOption {ε α : Type} {x : Except ε α} {a : α} (h : x.toOption = some a) :
    x = .ok a := by
  cases x with
  | ok b => exact congrArg Except.ok (Option.some.inj h)
  | error e => cases h

/-! ## Ends -/

section

variable {ε δ α β : Type} {P P' : ε → Prop} {Q Q' : α → Prop} {x : Except ε α}

/-- Whether a computation ends in an error of a kind, or in a value of a kind. -/
def EndsIn (P : ε → Prop) (Q : α → Prop) : Except ε α → Prop
  | .ok a => Q a
  | .error e => P e

theorem EndsIn.of_ok {a : α} (h : EndsIn P Q x) (hx : x = .ok a) : Q a := by
  subst hx
  exact h

theorem EndsIn.of_error {e : ε} (h : EndsIn P Q x) (hx : x = .error e) : P e := by
  subst hx
  exact h

theorem EndsIn.mono (h : EndsIn P Q x) (hP : ∀ e, P e → P' e) (hQ : ∀ a, Q a → Q' a) :
    EndsIn P' Q' x := by
  cases x with
  | ok a => exact hQ a h
  | error e => exact hP e h

theorem EndsIn.bind {R : β → Prop} {f : α → Except ε β} (h : EndsIn P Q x)
    (hf : ∀ a, Q a → EndsIn P R (f a)) : EndsIn P R (x >>= f) := by
  cases x with
  | ok a => exact hf a h
  | error e => exact h

theorem EndsIn.ite {c : Prop} [Decidable c] {y : Except ε α} (hx : c → EndsIn P Q x)
    (hy : ¬c → EndsIn P Q y) : EndsIn P Q (if c then x else y) := by
  split
  next hc => exact hx hc
  next hc => exact hy hc

/-- As `EndsIn.bind`, where what the value is does matter. -/
theorem EndsIn.bind_eq {R : β → Prop} {f : α → Except ε β} (h : EndsIn P Q x)
    (hf : ∀ a, x = .ok a → Q a → EndsIn P R (f a)) : EndsIn P R (x >>= f) := by
  cases x with
  | ok a => exact hf a rfl h
  | error e => exact h

theorem EndsIn.mapM {f : β → Except ε α} {bs : List β} (h : ∀ b ∈ bs, EndsIn P Q (f b)) :
    EndsIn P (fun as => ∀ a ∈ as, Q a) (bs.mapM f) := by
  induction bs with
  | nil =>
    intro a ha
    cases ha
  | cons b bs ih =>
    rw [List.mapM_cons]
    refine (h b List.mem_cons_self).bind fun a ha => ?_
    refine (ih fun b' hb' => h b' (List.mem_cons_of_mem _ hb')).bind fun as has => ?_
    intro a' ha'
    rcases List.mem_cons.1 ha' with rfl | ha'
    · exact ha
    · exact has a' ha'

theorem EndsIn.foldlM {f : α → β → Except ε α} {bs : List β} {a : α} (ha : Q a)
    (h : ∀ a, Q a → ∀ b ∈ bs, EndsIn P Q (f a b)) : EndsIn P Q (bs.foldlM f a) := by
  induction bs generalizing a with
  | nil => exact ha
  | cons b bs ih =>
    rw [List.foldlM_cons]
    exact (h a ha b List.mem_cons_self).bind fun a' ha' =>
      ih ha' fun a ha b' hb' => h a ha b' (List.mem_cons_of_mem _ hb')

/-- A step that can fail in one way only fails in that way. -/
theorem EndsIn.lift [Coe δ Fault] {P : Fault → Prop} {x : Except δ α}
    (h : EndsIn (fun e => P (Coe.coe e)) Q x) : EndsIn P Q (Fault.lift x) := by
  cases x with
  | ok a => exact h
  | error e => exact h

theorem Traced.result_foldlM (f : α → β → Traced ε α) (a : α) (bs : List β) :
    (bs.foldlM f a).result = bs.foldlM (fun a b => (f a b).result) a := by
  induction bs generalizing a with
  | nil => rfl
  | cons b bs ih =>
    rw [List.foldlM_cons, List.foldlM_cons, Traced.result_bind]
    congr 1
    funext a'
    exact ih a'

end

/-! ## Members of nodes -/

namespace Ast

variable {P : Fault → Prop}

theorem ends_field (hdata : ∀ e, P (.data e)) (node : Datum) (name : String) :
    EndsIn P (fun _ => True) (field node name) := by
  cases node with
  | object => trivial
  | _ => exact hdata _

theorem ends_require (hdata : ∀ e, P (.data e)) (hmissing : ∀ name : String, P (.missing name))
    (node : Datum) (name : String) : EndsIn P (fun _ => True) (require node name) := by
  cases node with
  | object ms =>
    unfold require
    dsimp only
    split
    · trivial
    · exact hmissing name
  | _ => exact hdata _

/-- A member of an object is found, or missing. -/
theorem ends_require_object (hmissing : ∀ name : String, P (.missing name))
    (ms : List (String × Datum)) (name : String) :
    EndsIn P (fun d => Datum.find? name ms = some d) (require (.object ms) name) := by
  unfold require
  dsimp only
  split
  next v h => exact h
  next => exact hmissing name

end Ast

end StorageSnapshot

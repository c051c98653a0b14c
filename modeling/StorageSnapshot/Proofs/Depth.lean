-- SUMMARY: Decoding level by level, and what the bound on nested values changes about it.
import StorageSnapshot.Proofs.Outcome

/-!
# Depth

Up to the limit on depth a value is decoded with its parts one level deeper. A run bounds the values
inside of each other besides. Whether a bound is met or a limit, a value halts with all that is
around it; if none is met, nothing about the outcome is due to it.
-/

namespace StorageSnapshot.Decode

variable {ctx : Context} {limits : Limits} {nested nested' : Nested} {halt : Halt}

/-! ## Levels -/

/-- Within the limit a value is decoded with its parts one level deeper. -/
theorem value_eq_atType {depth : Int} (h : depth ≤ ctx.limits.maxDepth) (t : Ty) (c : Cursor) :
    value ctx depth t c = atType ctx (value ctx (depth + 1)) t c := by
  have hbudget : budget ctx depth = budget ctx (depth + 1) + 1 := by
    simp only [budget]
    omega
  rw [value, hbudget]
  rfl

theorem value_eq_tooDeep {depth : Int} (h : (ctx.limits.maxDepth : Int) < depth) (t : Ty)
    (c : Cursor) : value ctx depth t c = tooDeep ctx t c := by
  have hbudget : budget ctx depth = 0 := by
    simp only [budget]
    omega
  rw [value, hbudget]
  rfl

/-- What holds at every depth below the limit, and at a depth if it holds one level deeper, holds at
every depth. -/
theorem level_induction (ctx : Context) {motive : Int → Prop}
    (tooDeep : ∀ depth, (ctx.limits.maxDepth : Int) < depth → motive depth)
    (level : ∀ depth, depth ≤ (ctx.limits.maxDepth : Int) → motive (depth + 1) → motive depth)
    (depth : Int) : motive depth := by
  obtain ⟨levels, hlevels⟩ : ∃ n, n = budget ctx depth := ⟨_, rfl⟩
  induction levels generalizing depth with
  | zero =>
    apply tooDeep
    simp only [budget] at hlevels
    omega
  | succ levels ih =>
    apply level
    · simp only [budget] at hlevels
      omega
    · apply ih
      simp only [budget] at hlevels ⊢
      omega

/-! ## Outcomes apart from one way of halting -/

/-- Whether an outcome is another one or is one way of halting. -/
def Agrees {α : Type} (halt : Halt) (a b : Except Halt α) : Prop := a = b ∨ a = .error halt

/-- Whether a part that halts in this way halts the whole in the same way. -/
def Settled (halt : Halt) : Prop := ∀ α, settle (.error halt : Except Halt α) = .error halt

/-- Whether headers are read alike under the limits of a context and under others. -/
structure HeadersAgree (halt : Halt) (ctx : Context) (limits : Limits) : Prop where
  byteString : ∀ t c,
    Agrees halt (byteString ctx t c).result (byteString { ctx with limits } t c).result
  elementsOf : ∀ t length c,
    Agrees halt (elementsOf ctx t length c).result
      (elementsOf { ctx with limits } t length c).result

namespace Agrees

theorem refl {α : Type} (a : Except Halt α) : Agrees halt a a := .inl rfl

theorem bind {α β : Type} {a b : Except Halt α} {f g : α → Except Halt β} (h : Agrees halt a b)
    (hfg : ∀ x, Agrees halt (f x) (g x)) : Agrees halt (a >>= f) (b >>= g) := by
  rcases h with rfl | rfl
  · cases a with
    | ok x => exact hfg x
    | error halt => exact .refl _
  · exact .inr rfl

theorem settle {α : Type} {a b : Except Halt α} (hsettled : Settled halt) (h : Agrees halt a b) :
    Agrees halt (settle a) (settle b) := by
  rcases h with rfl | rfl
  · exact .refl _
  · exact .inr (hsettled α)

theorem entering {a b : Decoding (Decoded Value)} (hsettled : Settled halt)
    (h : Agrees halt a.result b.result) (t : Ty) (c : Cursor) :
    Agrees halt (entering t c a).result (entering t c b).result := by
  rw [result_entering_bind, result_entering_bind]
  exact bind (.refl _) fun _ => h.settle hsettled

theorem elements (h : ∀ t c, Agrees halt (nested t c).result (nested' t c).result) (t : Ty)
    (count : Nat) (c : Cursor) :
    Agrees halt (elements ctx nested t count [] c).result
      (elements { ctx with limits } nested' t count [] c).result := by
  induction count generalizing c with
  | zero => exact .refl _
  | succ count ih =>
    rw [result_elements_succ, result_elements_succ]
    refine bind (h t c) fun v => bind (.refl _) fun place => ?_
    exact bind (ih place) fun _ => .refl _

theorem fields (h : ∀ t c, Agrees halt (nested t c).result (nested' t c).result)
    (ms : List Member) (c : Cursor) :
    Agrees halt (fields ctx nested [] ms c).result
      (fields { ctx with limits } nested' [] ms c).result := by
  induction ms generalizing c with
  | nil => exact .refl _
  | cons m ms ih =>
    rw [result_fields_cons, result_fields_cons]
    refine bind (.refl _) fun type => bind (.refl _) fun place => bind (h type place) fun v => ?_
    exact bind (ih v.2) fun _ => .refl _

/-- A type is decoded alike if its header and its parts are. -/
theorem atType (hsettled : Settled halt) (hheaders : HeadersAgree halt ctx limits)
    (h : ∀ t c, Agrees halt (nested t c).result (nested' t c).result) :
    ∀ t c, Agrees halt (atType ctx nested t c).result
      (atType { ctx with limits } nested' t c).result
  | .aliasOf d underlying, c => by
    rw [Decode.atType, Decode.atType]
    exact (atType hsettled hheaders h underlying c).entering hsettled _ c
  | .bytes, c => by
    refine entering hsettled ?_ _ c
    rw [Traced.result_bind, Traced.result_bind]
    exact bind (hheaders.byteString .bytes c) fun _ => .refl _
  | .string, c => by
    refine entering hsettled ?_ _ c
    rw [Traced.result_bind, Traced.result_bind]
    exact bind (hheaders.byteString .string c) fun _ => .refl _
  | .array _ _ element length, c => by
    refine entering hsettled ?_ _ c
    rw [result_array, result_array]
    exact bind (hheaders.elementsOf _ length c) fun start =>
      bind (elements h element start.1 start.2) fun _ => .refl _
  | .struct d ms, c => by
    refine entering hsettled ?_ _ c
    simp only [struct, Traced.result_bind]
    exact bind (.refl _) fun _ => bind (fields h ms c) fun _ => .refl _
  | .elementary _, _ | .contract .., _ | .enum .., _ | .aliasNode .., _ | .mapping .., _ => .refl _

end Agrees

/-! ## The bound on nested values -/

private theorem within_agrees (ctx : Context) {b b' : Nat} (hle : b ≤ b') (t : Ty) (c : Cursor) :
    Agrees (.fault (.data .nestedTooDeep))
      (within ctx (fun _ _ => Traced.fail (.fault (.data .nestedTooDeep))) b t c).result
      (within ctx (tooDeep ctx) b' t c).result := by
  induction b generalizing b' t c with
  | zero => exact .inr rfl
  | succ b ih =>
    obtain ⟨b', rfl⟩ : ∃ n, b' = n + 1 := ⟨b' - 1, by omega⟩
    have hheaders : HeadersAgree (.fault (.data .nestedTooDeep)) ctx ctx.limits :=
      ⟨fun _ _ => .refl _, fun _ _ _ => .refl _⟩
    exact Agrees.atType (fun _ => rfl) hheaders (fun t c => ih (by omega) t c) t c

/-- A run decodes what decoding gives, unless the limit on depth admits more than the bound. -/
theorem boundedValue_agrees (ctx : Context) (depth : Int) (t : Ty) (c : Cursor) :
    (boundedValue ctx depth t c).result = (value ctx depth t c).result ∨
      mostNested < budget ctx depth ∧
        (boundedValue ctx depth t c).result = .error (.fault (.data .nestedTooDeep)) := by
  by_cases hbudget : budget ctx depth ≤ mostNested
  · rw [boundedValue_eq_value hbudget]
    exact .inl rfl
  · rw [boundedValue, if_neg hbudget]
    rcases within_agrees ctx (Nat.le_of_not_le hbudget) t c with hsame | hbound
    · exact .inl hsame
    · exact .inr ⟨by omega, hbound⟩

end StorageSnapshot.Decode

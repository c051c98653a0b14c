-- SUMMARY: Limits only ever turn results into values that are given up.
import StorageSnapshot.Proofs.Depth

/-!
# Larger limits

Limits are there to give values up, and have no other part in decoding. What decoding comes to under
some limits it comes to under all that admit longer containers and deeper values, unless it was the
smaller limits that gave the value up.
-/

namespace StorageSnapshot

/-- What exceeds a bound exceeds every smaller one. -/
theorem Bound.exceededBy_of_le {a b : Bound} (hle : a.most ≤ b.most) {n : Int}
    (h : b.exceededBy n = true) : a.exceededBy n = true := by
  rw [exceededBy_iff] at h ⊢
  omega

namespace Decode

variable {ctx : Context} {limits limits' : Limits} {store : Store} {resolver : Resolver}
  {depth depth' : Int}

/-! ## Headers -/

/-- What a check of a length lets through is let through under a larger bound. -/
private theorem agrees_exceededBy {α : Type} {a b : Bound} (hle : a.most ≤ b.most) (n : Int)
    (reason reason' : String) (rest : Decoding α) :
    Agrees .abort (if a.exceededBy n then giveUp reason else rest).result
      (if b.exceededBy n then giveUp reason' else rest).result := by
  by_cases ha : a.exceededBy n = true
  · rw [if_pos ha]
    exact .inr rfl
  · have hb : ¬b.exceededBy n = true := fun hb => ha (Bound.exceededBy_of_le hle hb)
    rw [if_neg ha, if_neg hb]
    exact .refl _

/-- A length is checked against a bound, and has no other use for it. -/
theorem headersAgree_of_le (hle : ctx.limits.maxLength ≤ limits.maxLength) :
    HeadersAgree .abort ctx limits := by
  constructor
  · intro t c
    simp only [byteString, Traced.result_bind]
    refine .bind (.refl _) fun _ => .bind (.refl _) fun header => ?_
    split
    next => exact .refl _
    next => exact agrees_exceededBy hle _ _ _ _
  · intro t length c
    cases length with
    | none =>
      simp only [elementsOf, Traced.result_bind]
      exact .bind (.refl _) fun n => agrees_exceededBy hle n.1 _ _ _
    | some n => exact agrees_exceededBy hle n _ _ _

/-! ## Levels -/

/-- Before a value is decoded its type must have a name. -/
theorem result_atType_checkName (ctx : Context) (nested : Nested) (t : Ty) (c : Cursor) :
    ∃ body, (atType ctx nested t c).result = (checkName t).result >>= fun _ => body := by
  cases t with
  | aliasOf d underlying =>
    rw [atType]
    exact ⟨_, result_entering_bind ..⟩
  | _ => exact ⟨_, result_entering_bind ..⟩

/-- A value that is too deep is given up, unless its type has no name. -/
private theorem tooDeep_agrees (limits : Limits) (budget : Nat) (t : Ty) (c : Cursor) :
    Agrees .abort (tooDeep ctx t c).result
      (within { ctx with limits } (tooDeep { ctx with limits }) budget t c).result := by
  rw [tooDeep, Traced.result_bind]
  cases budget with
  | zero =>
    rw [within, tooDeep, Traced.result_bind]
    exact .refl _
  | succ budget =>
    obtain ⟨body, hbody⟩ := result_atType_checkName { ctx with limits }
      (within { ctx with limits } (tooDeep { ctx with limits }) budget) t c
    rw [within, hbody]
    exact .bind (.refl _) fun _ => .inr rfl

/-- The induction is on the levels that the smaller limits leave. -/
theorem within_agrees_of_le (hlength : ctx.limits.maxLength ≤ limits.maxLength)
    {budget budget' : Nat} (hle : budget ≤ budget') (t : Ty) (c : Cursor) :
    Agrees .abort (within ctx (tooDeep ctx) budget t c).result
      (within { ctx with limits } (tooDeep { ctx with limits }) budget' t c).result := by
  induction budget generalizing budget' t c with
  | zero => exact tooDeep_agrees limits budget' t c
  | succ budget ih =>
    obtain ⟨budget', rfl⟩ : ∃ n, budget' = n + 1 := ⟨budget' - 1, by omega⟩
    exact Agrees.atType (fun _ => rfl) (headersAgree_of_le hlength)
      (fun t c => ih (by omega) t c) t c

namespace Note

def type : Ty :=
  .struct ⟨⟨none, .int 1⟩, .text "Note", .text "Note"⟩
    [.attached (.text "marks") (.array (.text "uint8[2]") ⟨none, .int 0⟩ (.int .uint8) (some 2)),
      .attached (.text "label") .string]

def stored : Store where
  words := [(0, [9, 7]), (1, [0x68, 0x69] ++ Bytes.zeros 29 ++ [4])]

def narrow : Limits := ⟨.ofNat 2, .ofNat 2⟩

def wide : Limits := ⟨.ofNat 3, .ofNat 8⟩

end Note

end Decode

end StorageSnapshot

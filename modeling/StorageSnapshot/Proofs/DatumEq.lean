-- SUMMARY: Equality of untyped values can be decided.
import StorageSnapshot.Datum.Basic

/-!
# Equality of untyped values

Two values are equal if they are built alike. This is finer than `Datum.same`, which takes numbers
of different kinds for the same.
-/

namespace StorageSnapshot.Datum

mutual

/-- Whether two values are the same in every part. -/
def beq : Datum → Datum → Bool
  | .null, .null => true
  | .bool a, .bool b => a = b
  | .int m, .int n => m = n
  | .float x, .float y => x = y
  | .text s, .text t => s = t
  | .bytes b, .bytes c => b = c
  | .list xs, .list ys => beqItems xs ys
  | .object ms, .object ns => beqMembers ms ns
  | _, _ => false

def beqItems : List Datum → List Datum → Bool
  | [], [] => true
  | x :: xs, y :: ys => beq x y && beqItems xs ys
  | _, _ => false

def beqMembers : List (String × Datum) → List (String × Datum) → Bool
  | [], [] => true
  | (k, x) :: ms, (l, y) :: ns => k = l && beq x y && beqMembers ms ns
  | _, _ => false

end

mutual

theorem beq_iff : ∀ a b : Datum, beq a b = true ↔ a = b
  | .list xs, .list ys => by rw [beq, beqItems_iff xs ys, list.injEq]
  | .object ms, .object ns => by rw [beq, beqMembers_iff ms ns, object.injEq]
  | .null, b | .bool _, b | .int _, b | .float _, b | .text _, b | .bytes _, b => by
    cases b <;> simp [beq]
  | .list _, .null | .list _, .bool _ | .list _, .int _ | .list _, .float _ | .list _, .text _
  | .list _, .bytes _ | .list _, .object _ => by simp [beq]
  | .object _, .null | .object _, .bool _ | .object _, .int _ | .object _, .float _
  | .object _, .text _ | .object _, .bytes _ | .object _, .list _ => by simp [beq]

theorem beqItems_iff : ∀ xs ys : List Datum, beqItems xs ys = true ↔ xs = ys
  | [], [] => by simp [beqItems]
  | [], _ :: _ => by simp [beqItems]
  | _ :: _, [] => by simp [beqItems]
  | x :: xs, y :: ys => by
    rw [beqItems, Bool.and_eq_true, beq_iff x y, beqItems_iff xs ys, List.cons.injEq]

theorem beqMembers_iff : ∀ ms ns : List (String × Datum), beqMembers ms ns = true ↔ ms = ns
  | [], [] => by simp [beqMembers]
  | [], _ :: _ => by simp [beqMembers]
  | _ :: _, [] => by simp [beqMembers]
  | (k, x) :: ms, (l, y) :: ns => by
    rw [beqMembers, Bool.and_eq_true, Bool.and_eq_true, beq_iff x y, beqMembers_iff ms ns]
    simp [and_assoc]

end

instance : DecidableEq Datum := fun a b => decidable_of_iff _ (beq_iff a b)

end StorageSnapshot.Datum

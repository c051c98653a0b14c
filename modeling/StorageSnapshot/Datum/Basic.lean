-- SUMMARY: Untyped values, as dump files, compiler output and mapping keys hold them.
import StorageSnapshot.Bytes
import StorageSnapshot.Double.Basic

/-!
# Untyped values

A `Datum` is what a dump file, a compiler's output or a mapping key may hold before anything is
known about it: a JSON value, or a byte string. Objects keep the order of their members.
-/

namespace StorageSnapshot

inductive Datum where
  | null
  | bool (b : Bool)
  | int (n : Int)
  | float (x : Double)
  | text (s : String)
  | bytes (b : Bytes)
  | list (items : List Datum)
  | object (members : List (String × Datum))
  deriving Inhabited

namespace Datum

/-! ## Members -/

/-- The value of the first member called `key`. -/
def find? (key : String) : List (String × Datum) → Option Datum
  | [] => none
  | (k, v) :: ms => if k = key then some v else find? key ms

/-- Gives the member called `key` a value. A new member goes to the end. -/
def put (key : String) (value : Datum) : List (String × Datum) → List (String × Datum)
  | [] => [(key, value)]
  | (k, v) :: ms => if k = key then (k, value) :: ms else (k, v) :: put key value ms

/-- The object with these members, where a later member of a name takes the place of an earlier. -/
def ofMembers (ms : List (String × Datum)) : Datum :=
  .object (ms.foldl (fun acc m => put m.1 m.2 acc) [])

@[simp] theorem find?_put_self (key : String) (value : Datum) (ms : List (String × Datum)) :
    find? key (put key value ms) = some value := by
  induction ms with
  | nil => simp [put, find?]
  | cons m ms ih => by_cases h : m.1 = key <;> simp [put, find?, h, ih]

theorem find?_put_of_ne {key other : String} (value : Datum) (ms : List (String × Datum))
    (h : key ≠ other) : find? other (put key value ms) = find? other ms := by
  induction ms with
  | nil => simp [put, find?, h]
  | cons m ms ih =>
    by_cases hk : m.1 = key
    · have : ¬m.1 = other := fun ho => h (hk.symm.trans ho)
      simp [put, find?, hk, h]
    · simp [put, find?, hk, ih]

/-! ## Classes of values -/

/-- Whether a value counts as true: it is not null, false, zero or empty. -/
def isTruthy : Datum → Bool
  | .null => false
  | .bool b => b
  | .int n => n != 0
  | .float x => x.isNaN || not (x.isFinite && x.significand == 0)
  | .text s => s != ""
  | .bytes b => not b.isEmpty
  | .list xs => not xs.isEmpty
  | .object ms => not ms.isEmpty

/-- The integer that a value is equal to as a number. -/
def integer? : Datum → Option Int
  | .bool b => some (if b then 1 else 0)
  | .int n => some n
  | .float x => x.toInt?
  | _ => none

/-- Whether a value may be the key of a table: lists and objects may not. -/
def isKey : Datum → Bool
  | .list _ | .object _ => false
  | _ => true

mutual

/-- Equality of values, in which an integer, a truth value and a float may be the same number. -/
def same : Datum → Datum → Bool
  | .null, .null => true
  | .text a, .text b => a == b
  | .bytes a, .bytes b => a == b
  | .list xs, .list ys => sameItems xs ys
  | .object ms, .object ns => ms.length == ns.length && sameMembers ms ns
  | .float x, .float y =>
    if x.isNaN || y.isNaN then false
    else x == y || (x.isFinite && y.isFinite && x.significand == 0 && y.significand == 0)
  | a, b =>
    match a.integer?, b.integer? with
    | some m, some n => m == n
    | _, _ => false

def sameItems : List Datum → List Datum → Bool
  | [], [] => true
  | x :: xs, y :: ys => same x y && sameItems xs ys
  | _, _ => false

/-- Whether every member has a counterpart in the other object, in whatever place. -/
def sameMembers : List (String × Datum) → List (String × Datum) → Bool
  | [], _ => true
  | (k, v) :: ms, ns =>
    (match find? k ns with
      | some w => same v w
      | none => false) && sameMembers ms ns

end

instance : Coe String Datum := ⟨.text⟩

end Datum

end StorageSnapshot

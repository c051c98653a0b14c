-- SUMMARY: Decoded values and their parts.
import StorageSnapshot.Fault

/-!
# Decoded values

A value is what was read from storage at a declared type. Values are trees: arrays and structs hold
the values of their elements and members, in order.
-/

namespace StorageSnapshot

/-- The bytes of an account address. -/
structure Address where
  bytes : Bytes
  length_bytes : bytes.length = 20

namespace Address

def ofBytes (b : Bytes) : Except BrokenRule Address :=
  if h : b.length = 20 then .ok ⟨b, h⟩ else .error (.notAnAddress b)

instance : DecidableEq Address := fun a b =>
  decidable_of_iff (a.bytes = b.bytes) ⟨by cases a; cases b; simp, by rintro rfl; rfl⟩

end Address

inductive Value where
  | int (n : Int)
  | bool (b : Bool)
  | fixedBytes (b : Bytes)
  | address (a : Address)
  /-- An ordinal outside the range of its enum names no member. -/
  | enum (ordinal : Int) (member : Option Datum)
  | bytes (b : Bytes)
  | string (s : String)
  | array (elements : List Value)
  | struct (fields : List (Datum × Value))

namespace Value

/-! ## Equality -/

mutual

/-- Whether two values are of one kind and have the same contents. -/
def same : Value → Value → Bool
  | .int m, .int n => m == n
  | .bool a, .bool b => a == b
  | .fixedBytes a, .fixedBytes b => a == b
  | .address a, .address b => a == b
  | .enum m none, .enum n none => m == n
  | .enum m (some x), .enum n (some y) => m == n && x.same y
  | .bytes a, .bytes b => a == b
  | .string s, .string t => s == t
  | .array xs, .array ys => sameElements xs ys
  | .struct fs, .struct gs => sameFields fs gs
  | _, _ => false

def sameElements : List Value → List Value → Bool
  | [], [] => true
  | x :: xs, y :: ys => same x y && sameElements xs ys
  | _, _ => false

def sameFields : List (Datum × Value) → List (Datum × Value) → Bool
  | [], [] => true
  | (k, v) :: fs, (l, w) :: gs => k.same l && same v w && sameFields fs gs
  | _, _ => false

end

instance : BEq Value := ⟨same⟩

/-! ## Parts -/

/-- The value of the first field of this name. -/
def field? (name : Datum) : List (Datum × Value) → Option Value
  | [] => none
  | (k, v) :: fs => if k.same name then some v else field? name fs

/-- The element at a place, where a negative place counts from the end. -/
def element? (elements : List Value) (index : Int) : Option Value :=
  let i := if index < 0 then index + elements.length else index
  if i < 0 then none else elements[i.toNat]?

/-- A part of a value: an element of an array by place, a field of a struct by name. -/
def part (v : Value) (key : Datum) : Except Fault Value :=
  match v with
  | .array elements =>
    match key.integer? with
    | some i =>
      match key, element? elements i with
      | .float _, _ => .error (.data (.notAnInteger key))
      | _, some e => .ok e
      | _, none => .error (.data .noSuchItem)
    | none => .error (.data (.notAnInteger key))
  | .struct fields =>
    match field? key fields with
    | some e => .ok e
    | none => .error (.missing key)
  | _ => .error (.data (.notIndexed key))

/-- A struct with one more field at its end. -/
def withField (fields : List (Datum × Value)) (name : Datum) (value : Value) : Value :=
  .struct (fields ++ [(name, value)])

end Value

end StorageSnapshot

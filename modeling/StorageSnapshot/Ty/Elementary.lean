-- SUMMARY: Elementary types by name: integers, truth values, addresses and fixed byte strings.
import StorageSnapshot.Datum.Basic
import StorageSnapshot.Text.Numeral

/-!
# Elementary types

An elementary type is a keyword of the language. Its shape says how its bytes are read; the name of
every shape is its keyword, and `Shape.ofName?` finds the shape again.
-/

namespace StorageSnapshot

/-! ## Integer types -/

@[ext]
structure IntType where
  signed : Bool
  /-- The number of bytes. -/
  size : Nat
  size_pos : 0 < size := by omega
  size_le : size ≤ 32 := by omega

instance : DecidableEq IntType := fun _ _ =>
  decidable_of_decidable_of_iff IntType.ext_iff.symm

namespace IntType

def bits (t : IntType) : Nat := 8 * t.size

/-- The number of integers of the type. -/
def count (t : IntType) : Nat := Bytes.count t.size

def minValue (t : IntType) : Int := if t.signed then -(t.count / 2 : Nat) else 0

def maxValue (t : IntType) : Int := (if t.signed then t.count / 2 else t.count : Nat) - 1

def fits (t : IntType) (n : Int) : Bool := t.minValue ≤ n && n ≤ t.maxValue

def name (t : IntType) : String :=
  (if t.signed then "int" else "uint") ++ Text.decimal t.bits

def uint8 : IntType where
  signed := false
  size := 1

theorem wholeWord_pos : 0 < 32 := by decide

theorem wholeWord_le : 32 ≤ 32 := Nat.le_refl 32

/-- The integers that fill a word. -/
def uint256 : IntType where
  signed := false
  size := 32
  size_pos := wholeWord_pos
  size_le := wholeWord_le

end IntType

/-! ## Shapes -/

/-- How the bytes of an elementary type are read. -/
inductive Shape where
  | int (t : IntType)
  | bool
  | fixedBytes (size : Nat)
  | address
  /-- A type that is known by its name alone. -/
  | bare
  deriving DecidableEq

namespace Shape

/-- The keyword of the shape. -/
def name : Shape → String
  | .int t => t.name
  | .bool => "bool"
  | .fixedBytes size => "bytes" ++ Text.decimal size
  | .address => "address"
  | .bare => ""

/-- The shapes that have a keyword of their own. -/
def all : List Shape :=
  .bool :: .address :: (List.finRange 32).flatMap fun (i : Fin 32) =>
    [.int ⟨false, i.val + 1, by omega, by omega⟩, .int ⟨true, i.val + 1, by omega, by omega⟩,
      .fixedBytes (i.val + 1)]

def keywords : List (String × Shape) := all.map fun s => (s.name, s)

def ofName? (name : String) : Option Shape := keywords.lookup name

end Shape

/-! ## Names -/

structure Elementary where
  /-- The keyword, where a keyword that stands for another one is replaced by it. -/
  name : String
  /-- The compiler's own name of the type, as it was given. -/
  typeString : Datum
  shape : Shape

namespace Elementary

/-- The keyword that another one stands for. -/
def canonicalName (name : String) : String :=
  if name = "uint" then "uint256"
  else if name = "int" then "int256"
  else if name = "byte" then "bytes1"
  else name

/-- The type of a keyword. -/
def ofName? (name : String) (typeString : Datum) : Option Elementary :=
  (Shape.ofName? (canonicalName name)).map fun shape => ⟨canonicalName name, typeString, shape⟩

/--
The type that reads a keyword as byte strings of fixed size, whatever it names: the size is what
stands behind its fifth character. There is none if that is no number.
-/
def fixedBytes? (name : String) (typeString : Datum) : Option Elementary :=
  (Text.number? 10 Text.decimalValue? ((canonicalName name).toList.drop 5)).map fun size =>
    ⟨canonicalName name, typeString, .fixedBytes size⟩

end Elementary

end StorageSnapshot

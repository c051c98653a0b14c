-- SUMMARY: Decimal text of doubles: the fewest digits that read back, and a fixed count of digits.
import StorageSnapshot.Double.Basic

/-!
# Decimal text of doubles

A double has one shortest text: the fewest significant digits that read back as it, and of those
the nearest. `decade` finds its order of magnitude, `shortest` the digits, and `Notation` says how
digits and order of magnitude become a text.
-/

namespace StorageSnapshot.Double

/-- `digits * 10 ^ exponent`. -/
structure Decimal where
  digits : Nat
  exponent : Int
  deriving DecidableEq

/-! ## Digits -/

/-- Whether `num / den < 10 ^ p`. -/
def belowPower (num den : Nat) (p : Int) : Bool :=
  if 0 ≤ p then num < den * Nat.pow 10 p.toNat else num * Nat.pow 10 (-p).toNat < den

/-- The least `p` with `num / den < 10 ^ p`, for a ratio that is not zero. -/
def decade (num den : Nat) : Int :=
  let guess := ((num.log2 : Int) - (den.log2 : Int)) * 30103 / 100000
  let near := [guess - 1, guess, guess + 1, guess + 2]
  (near.find? (belowPower num den)).getD (guess + 3)

/-- The ratio divided by `10 ^ e`, as a ratio. -/
def scaledTen (num den : Nat) (e : Int) : Nat × Nat :=
  if 0 ≤ e then (num, den * Nat.pow 10 e.toNat) else (num * Nat.pow 10 (-e).toNat, den)

/-- The finite double as a ratio, apart from its sign. -/
def ratio (x : Double) : Nat × Nat := scaled x.significand 1 (-x.exponent)

/-- Whether `num / den` is read back as the positive finite double `x`. -/
def readsBack (x : Double) (num den : Nat) : Bool := ofRatio false num den == ⟨x.bits⟩

/-- The two neighbours of the double on the grid of step `10 ^ e`, the nearer one first. -/
def neighbours (x : Double) (e : Int) : List Nat :=
  let r := scaledTen x.ratio.1 x.ratio.2 e
  let low := r.1 / r.2
  let near := roundHalfEven r.1 r.2
  if near = low then [low, low + 1] else [low + 1, low]

/-- The first grid, from coarse to fine, with a neighbour that reads back. -/
def shortest (x : Double) : Decimal :=
  let top := decade x.ratio.1 x.ratio.2
  let hit := fun (count : Nat) =>
    let e := top - count
    let grid := fun (n : Nat) =>
      if 0 ≤ e then (n * Nat.pow 10 e.toNat, 1) else (n, Nat.pow 10 (-e).toNat)
    ((neighbours x e).find? fun n => readsBack x (grid n).1 (grid n).2).map fun n =>
      (⟨n, e⟩ : Decimal)
  ((List.range' 1 17).findSome? hit).getD ⟨0, 0⟩

/-- `count` significant digits, a half to the even neighbour. -/
def significant (count : Nat) (x : Double) : Decimal :=
  let e := decade x.ratio.1 x.ratio.2 - count
  let r := scaledTen x.ratio.1 x.ratio.2 e
  ⟨roundHalfEven r.1 r.2, e⟩

/-! ## Notation -/

/-- How a decimal is written: positional for orders of magnitude from `low` to below `high`. -/
structure Style where
  low : Int
  high : Int
  keepPoint : Bool

/-- The digits without the zeros at their end, and the order of magnitude of the first one. -/
def normalized (d : Decimal) : List Char × Int :=
  let cs := Nat.toDigits 10 d.digits
  ((cs.reverse.dropWhile (· == '0')).reverse, d.exponent + (cs.length : Int) - 1)

def positional (keepPoint : Bool) (digits : List Char) (order : Int) : List Char :=
  if order < 0 then '0' :: '.' :: List.replicate (-order - 1).toNat '0' ++ digits
  else
    let whole := (order + 1).toNat
    if whole < digits.length then digits.take whole ++ '.' :: digits.drop whole
    else
      digits ++ List.replicate (whole - digits.length) '0' ++
        (if keepPoint then ['.', '0'] else [])

def scientific (digits : List Char) (order : Int) : List Char :=
  let power := Nat.toDigits 10 order.natAbs
  let tail := match digits.tail with
    | [] => []
    | cs => '.' :: cs
  digits.take 1 ++ tail ++ ['e', if order < 0 then '-' else '+'] ++
    List.replicate (2 - power.length) '0' ++ power

def written (style : Style) (x : Double) (d : Decimal) : String :=
  let sign := if x.isNegative then ['-'] else []
  if x.isNaN then "nan"
  else if x.isInfinite then String.ofList (sign ++ ['i', 'n', 'f'])
  else if d.digits = 0 then
    String.ofList (sign ++ '0' :: if style.keepPoint then ['.', '0'] else [])
  else
    let (digits, order) := normalized d
    let body :=
      if style.low ≤ order ∧ order < style.high then positional style.keepPoint digits order
      else scientific digits order
    String.ofList (sign ++ body)

/-- The fewest digits that read back, positional from `1e-4` to below `1e16`. -/
def text (x : Double) : String :=
  let magnitude : Double := ⟨UInt64.ofNat (x.bits.toNat % signUnit)⟩
  let d := if x.significand = 0 then ⟨0, 0⟩ else shortest magnitude
  written ⟨-4, 16, true⟩ x d

/-- Six significant digits, positional from `1e-4` to below `1e6`, without zeros at the end. -/
def brief (x : Double) : String :=
  let d := if x.significand = 0 then ⟨0, 0⟩ else significant 6 x
  written ⟨-4, 6, false⟩ x d

end StorageSnapshot.Double

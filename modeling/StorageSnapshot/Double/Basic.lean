-- SUMMARY: Double precision numbers as bit patterns: value, nearest double, integer part.

/-!
# Doubles

A double is kept as its 64 bits, and everything about it is computed in exact integer arithmetic
on its significand and exponent.
-/

namespace StorageSnapshot

structure Double where
  bits : UInt64
  deriving DecidableEq, Inhabited

namespace Double

/-! ## Fields -/

/-- What the sign bit counts for. -/
def signUnit : Nat := Nat.pow 2 63

/-- What the lowest bit of the exponent counts for. -/
def exponentUnit : Nat := Nat.pow 2 52

def isNegative (x : Double) : Bool := signUnit ≤ x.bits.toNat

def exponentField (x : Double) : Nat := x.bits.toNat / exponentUnit % 2048

def fractionField (x : Double) : Nat := x.bits.toNat % exponentUnit

def isFinite (x : Double) : Bool := x.exponentField != 2047

def isNaN (x : Double) : Bool := x.exponentField == 2047 && x.fractionField != 0

def isInfinite (x : Double) : Bool := x.exponentField == 2047 && x.fractionField == 0

/-- A finite double is `significand * 2 ^ exponent`, apart from its sign. -/
def significand (x : Double) : Nat :=
  if x.exponentField = 0 then x.fractionField else exponentUnit + x.fractionField

def exponent (x : Double) : Int :=
  if x.exponentField = 0 then -1074 else (x.exponentField : Int) - 1075

/-! ## Construction -/

def withSign (negative : Bool) (magnitude : Nat) : Double :=
  ⟨UInt64.ofNat (if negative then signUnit + magnitude else magnitude)⟩

def infinity (negative : Bool) : Double := withSign negative (2047 * exponentUnit)

def nan : Double := ⟨UInt64.ofNat (2047 * exponentUnit + exponentUnit / 2)⟩

def zero (negative : Bool) : Double := withSign negative 0

/-- `num / den` rounded to an integer, a half to the even neighbour. -/
def roundHalfEven (num den : Nat) : Nat :=
  let q := num / den
  let r := num % den
  if 2 * r < den then q
  else if den < 2 * r then q + 1
  else if q % 2 = 0 then q else q + 1

/-- The ratio `num / den` divided by `2 ^ e`, as a ratio. -/
def scaled (num den : Nat) (e : Int) : Nat × Nat :=
  if 0 ≤ e then (num, den * Nat.pow 2 e.toNat) else (num * Nat.pow 2 (-e).toNat, den)

/--
The double nearest to `num / den`, of two equally near ones the one with the even significand. The
exponent is first estimated from the sizes of both numbers and then moved until the significand
has 53 bits, unless the number is so small that the least exponent leaves it fewer.
-/
def ofRatio (negative : Bool) (num den : Nat) : Double :=
  if num = 0 then zero negative
  else
    let guess : Int := (num.log2 : Int) - (den.log2 : Int) - 52
    let e₀ := max guess (-1074)
    let size := fun (e : Int) => let r := scaled num den e; r.1 / r.2
    let e₁ :=
      if size e₀ < exponentUnit then max (e₀ - 1) (-1074)
      else if 2 * exponentUnit ≤ size e₀ then e₀ + 1
      else e₀
    let r := scaled num den e₁
    let m := roundHalfEven r.1 r.2
    if 971 < e₁ then infinity negative
    else if m < exponentUnit then withSign negative m
    else
      -- A significand rounded up to `2 ^ 53` carries into the exponent field by itself.
      let magnitude := (e₁ + 1074).toNat * exponentUnit + m
      if 2047 * exponentUnit ≤ magnitude then infinity negative else withSign negative magnitude

/-- The double nearest to `digits * 10 ^ e`. -/
def ofDecimal (negative : Bool) (digits : Nat) (e : Int) : Double :=
  let size : Int := (Nat.toDigits 10 digits).length
  if digits = 0 then zero negative
  else if 400 < size + e then infinity negative
  else if size + e < -400 then zero negative
  else if 0 ≤ e then ofRatio negative (digits * Nat.pow 10 e.toNat) 1
  else ofRatio negative digits (Nat.pow 10 (-e).toNat)

/-! ## Integer part -/

/-- The integer that remains when the digits behind the point are dropped. -/
def truncate (x : Double) : Int :=
  let magnitude :=
    if 0 ≤ x.exponent then x.significand * Nat.pow 2 x.exponent.toNat
    else x.significand / Nat.pow 2 (-x.exponent).toNat
  if x.isNegative then -(magnitude : Int) else magnitude

/-- The integer that a finite double without a fraction is. -/
def toInt? (x : Double) : Option Int :=
  if x.isFinite && (0 ≤ x.exponent || x.significand % Nat.pow 2 (-x.exponent).toNat == 0) then
    some x.truncate
  else none

end Double

end StorageSnapshot

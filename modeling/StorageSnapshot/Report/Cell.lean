-- SUMMARY: Cells of tables: which of them read as numbers, and their texts in a column of numbers.
import StorageSnapshot.Datum.Convert
import StorageSnapshot.Text.Escape

/-!
# Cells

A column is one of numbers if each of its cells is a number or reads as one. Numerals may have
blanks around them, a sign, and single underscores between digits of any script, or else commas
between groups of three ASCII digits. What counts of a text is what a terminal shows of it.
-/

namespace StorageSnapshot.Report

/-! ## Numerals -/

/-- The blanks that may stand around a numeral: information separators may not. -/
def isNumeralBlank (c : Char) : Bool := Text.isBlank c && not (28 ≤ c.toNat && c.toNat < 32)

/-- A numeral without the blanks around it, its digits in ASCII, and its sign taken off. -/
def unsigned (s : String) : Bool × List Char :=
  let bare := ((s.toList.dropWhile isNumeralBlank).reverse.dropWhile isNumeralBlank).reverse
  let cs := bare.map fun c =>
    match Text.decimalValue? c with
    | some n => Bytes.hexDigit n
    | none => c
  match cs with
  | '-' :: ds => (true, ds)
  | '+' :: ds => (false, ds)
  | ds => (false, ds)

def isInteger (s : String) : Bool := (Datum.underscored? (unsigned s).2).isSome

/-- Digits that may be missing altogether. -/
def digits? (cs : List Char) : Option (List Char) :=
  if cs.isEmpty then some [] else Datum.underscored? cs

/-- The sign and the digits of an exponent behind its letter. -/
def exponent? (cs : List Char) : Option Int :=
  let (negative, ds) := match cs with
    | '-' :: ds => (true, ds)
    | '+' :: ds => (false, ds)
    | ds => (false, ds)
  (Datum.underscored? ds).bind fun ds =>
    (Text.number? 10 Text.decimalValue? ds).map fun n => if negative then -(n : Int) else n

/-- The float that a text writes. -/
def float? (s : String) : Option Double :=
  let (negative, cs) := unsigned s
  let lower := String.ofList (cs.map Char.toLower)
  if lower = "inf" ∨ lower = "infinity" then some (Double.infinity negative)
  else if lower = "nan" then some Double.nan
  else do
    let mantissa := cs.takeWhile fun c => c ≠ 'e' ∧ c ≠ 'E'
    let power ← match cs.dropWhile fun c => c ≠ 'e' ∧ c ≠ 'E' with
      | [] => some 0
      | _ :: ds => exponent? ds
    let whole ← digits? (mantissa.takeWhile (· ≠ '.'))
    let fraction ← digits? ((mantissa.dropWhile (· ≠ '.')).drop 1)
    let n ← Text.number? 10 Text.decimalValue? (whole ++ fraction)
    return Double.ofDecimal negative n (power - fraction.length)

/-- Whether a text reads as a float. The words for infinities and for no number must be short. -/
def isFloat (s : String) : Bool :=
  match float? s with
  | none => false
  | some x =>
    x.isFinite || ["inf", "-inf", "nan"].contains (String.ofList (s.toList.map Char.toLower))

/-- Groups of three digits, each behind a comma. -/
def areGroups : List Char → Bool
  | [] => true
  | ',' :: a :: b :: c :: cs => a.isDigit && b.isDigit && c.isDigit && areGroups cs
  | _ => false

/-- A sign if there is one, one to three digits, and groups of digits. -/
def isGroupedWhole (cs : List Char) : Bool :=
  let ds := match cs with
    | '+' :: ds | '-' :: ds => ds
    | ds => ds
  let first := (ds.takeWhile Char.isDigit).length
  1 ≤ first && first ≤ 3 && areGroups (ds.dropWhile Char.isDigit)

/-- Whether a text is a grouped numeral, the digits behind its point in one group. Either part may
be missing, both of them together with the point. -/
def isGroupedLine (cs : List Char) : Bool :=
  let whole := cs.takeWhile (· ≠ '.')
  match cs.dropWhile (· ≠ '.') with
  | [] => whole.isEmpty || isGroupedWhole whole
  | _ :: ds =>
    ds.all Char.isDigit && (isGroupedWhole whole || (whole.isEmpty && not ds.isEmpty))

/-- Whether a text reads as a grouped numeral. A line feed may follow. -/
def isGrouped (s : String) : Bool :=
  let cs := s.toList
  isGroupedLine cs || (cs.getLast? == some '\n' && isGroupedLine cs.dropLast)

/-! ## Columns -/

/-- What the cells of a column have in common, the least first. -/
inductive ColumnKind where
  | absent
  | truth
  | integer
  | float
  | text
  deriving DecidableEq

namespace ColumnKind

def rank : ColumnKind → Nat
  | .absent => 0
  | .truth => 1
  | .integer => 2
  | .float => 3
  | .text => 4

def isNumeric (k : ColumnKind) : Bool := k == .integer || k == .float

def ofText (s : String) : ColumnKind :=
  if s = "" then .absent
  else if s = "True" ∨ s = "False" then .truth
  else if isInteger s || (isGrouped s && not (s.toList.contains '.')) then .integer
  else if isFloat s || isGrouped s then .float
  else .text

def ofCell : Datum → ColumnKind
  | .null => .absent
  | .bool _ => .truth
  | .int _ => .integer
  | .float _ => .float
  | .text s => ofText (String.ofList (Text.visible s.toList))
  | _ => .text

/-- The kind of a column of these cells, at least that of truth values. -/
def ofCells (cells : List Datum) : ColumnKind :=
  cells.foldl (fun k cell => if k.rank < (ofCell cell).rank then ofCell cell else k) .truth

end ColumnKind

/-! ## Numbers in a column of integers -/

/-- A numeral between a mark of colour in front of it and an escape behind it. -/
structure ColouredNumeral where
  mark : List Char
  numeral : List Char
  rest : List Char

/-- Whether a character is written in ASCII as itself. -/
def isPlain (c : Char) : Bool := 32 ≤ c.toNat && c.toNat < 127 && c ≠ '\\'

/-- The coloured numeral at the front of a text. -/
def ColouredNumeral.front? : List Char → Option ColouredNumeral
  | c :: '[' :: cs =>
    let isEnd (c : Char) : Bool := c == 'm' || c == 'M'
    let isNumeral (c : Char) : Bool := c.isDigit || c == '.'
    let code := cs.takeWhile Char.isDigit
    let ends := (cs.dropWhile Char.isDigit).takeWhile isEnd
    let behind := (cs.dropWhile Char.isDigit).dropWhile isEnd
    let numeral := behind.takeWhile isNumeral
    let rest := behind.dropWhile isNumeral
    if c = Text.escape ∧ code ≠ [] ∧ ends ≠ [] ∧ numeral ≠ [] ∧ rest.head?.any (!isPlain ·) then
      some ⟨c :: '[' :: code ++ ends, numeral, rest⟩
    else none
  | _ => none

/-- The first coloured numeral of a text. -/
def ColouredNumeral.find? : List Char → Option ColouredNumeral
  | [] => none
  | c :: cs => front? (c :: cs) <|> find? cs

/-- A text in a column of integers. A coloured integer loses the zeros in front, and everything in
front of its mark. -/
def integerText (s : String) : String :=
  match ColouredNumeral.find? s.toList with
  | none => s
  | some n =>
    match Text.number? 10 Text.decimalValue? n.numeral with
    | some value => String.ofList (n.mark ++ (Text.decimal value).toList ++ n.rest)
    | none => s

/-! ## Numbers in a column of floats -/

/-- The text with every occurrence of `old`, which is not empty, replaced; each step takes one
character of `fuel`. -/
def replaceWithin (old new : List Char) : (fuel : List Char) → List Char → List Char
  | [], _ | _, [] => []
  | _ :: fuel, c :: cs =>
    if old.isPrefixOf (c :: cs) then new ++ replaceWithin old new fuel ((c :: cs).drop old.length)
    else c :: replaceWithin old new fuel cs

/-- A text in a column of floats. In a table with escape sequences the visible part is rewritten
where it stands in one piece, in every other table the commas of groups are left out. -/
def floatText (escapes : Bool) (s : String) : String :=
  if escapes then
    let shown := Text.visible s.toList
    match float? (String.ofList shown) with
    | some x => String.ofList (replaceWithin shown x.brief.toList s.toList s.toList)
    | none => s
  else
    let bare := String.ofList (s.toList.filter (· ≠ ','))
    match float? bare with
    | some x => x.brief
    | none => bare

/-- The float nearest to an integer, if there is one. -/
def floatOfInt (n : Int) : Except DataError Double :=
  let x := Double.ofDecimal (n < 0) n.natAbs 0
  if x.isInfinite then .error .integerTooLarge else .ok x

/-- The text of a cell in a column of this kind. -/
def cellText (escapes : Bool) (kind : ColumnKind) (cell : Datum) : Except DataError String :=
  match kind, cell with
  | _, .null => .ok ""
  | .integer, .text s => .ok (integerText s)
  | .float, .text s => .ok (floatText escapes s)
  | .float, .int n => do return (← floatOfInt n).brief
  | .float, .bool b => .ok (if b then "1" else "0")
  | .float, .float x => .ok x.brief
  | _, cell => .ok cell.display

/-- The number of characters behind the point of a numeral, or behind the letter of its exponent. -/
def afterPoint? (s : String) : Option Nat :=
  if isInteger s || not (isFloat s || isGrouped s) then none
  else
    let backward := s.toList.reverse
    match backward.findIdx? (· = '.') with
    | some n => some n
    | none => backward.findIdx? fun c => c = 'e' ∨ c = 'E'

end StorageSnapshot.Report

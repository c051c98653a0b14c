-- SUMMARY: Tables in a frame of dashes and bars.
import StorageSnapshot.Report.Cell
import StorageSnapshot.Text.Blank

/-!
# Tables

A column is as wide as its widest cell, and at least two characters wider than its header. Columns
of numbers stand to the right with their points below each other, all others to the left. Escape
sequences have no width. A row whose first or second cell is a mark of its own becomes a rule.
-/

namespace StorageSnapshot.Report

/-! ## Texts of a given width -/

def blanks (n : Nat) : List Char := List.replicate n ' '

/-- A text with blanks on one side. -/
def pad (right : Bool) (width : Nat) (cs : List Char) : List Char :=
  let missing := blanks (width - Text.pointCount cs)
  if right then missing ++ cs else cs ++ missing

/-- How the texts of a table are measured and cut. -/
structure Measure where
  /-- Whether any text of the table has an escape sequence. -/
  escapes : Bool
  /-- Whether any text of the table has a line end. -/
  split : Bool

namespace Measure

/-- What the texts of a table ask for. -/
def ofTexts (texts : List String) : Measure where
  escapes := Text.hasSequence ("\t".intercalate texts).toList
  split := texts.any fun s => s.toList.any fun c => c = '\n' ∨ c = '\r'

/-- The width of a line. -/
def lineWidth (m : Measure) (cs : List Char) : Nat :=
  Text.pointCount (if m.escapes then Text.visible cs else cs)

/-- The parts of a text between line feeds and carriage returns; `part` is read already, the last
character first. -/
def parts (part : List Char) : List Char → List (List Char)
  | [] => [part.reverse]
  | c :: cs =>
    if c = '\n' ∨ c = '\r' then part.reverse :: parts [] cs else parts (c :: part) cs

/-- The parts of a text that are measured. -/
def measured (m : Measure) (s : String) : List (List Char) :=
  if m.split then parts [] s.toList else [s.toList]

/-- The lines of a text. -/
def lines (m : Measure) (s : String) : List (List Char) :=
  if m.split then Text.linesFrom [] s.toList else [s.toList]

/-- The width that a text asks for. -/
def width (m : Measure) (s : String) : Nat := ((m.measured s).map m.lineWidth).foldl max 0

/-- The lines of a text, filled up to a width. Escape sequences are not counted, and the lines are
those that were measured. -/
def padded (m : Measure) (right : Bool) (width : Nat) (s : String) : List (List Char) :=
  if m.escapes then
    List.zipWith (fun line part => pad right (width - m.lineWidth part + Text.pointCount part) line)
      (m.lines s) (m.measured s)
  else (m.lines s).map (pad right width)

end Measure

/-! ## Columns -/

/-- A column ready to be written: every cell is a list of lines. -/
structure Column where
  header : String
  right : Bool
  width : Nat
  cells : List (List (List Char))

namespace Column

/-- The texts of a column of numbers with the points below each other. -/
def alignPoints (texts : List String) : List String :=
  let depth (s : String) : Nat :=
    match afterPoint? (String.ofList (Text.visible s.toList)) with
    | some n => n + 1
    | none => 0
  let deepest := (texts.map depth).foldl max 0
  texts.map fun s => s ++ String.ofList (blanks (deepest - depth s))

def ofCells (m : Measure) (header : String) (cells : List Datum) : Except DataError Column := do
  let kind := ColumnKind.ofCells cells
  let texts ← cells.mapM (cellText m.escapes kind)
  let right := not cells.isEmpty && kind.isNumeric
  let ready := if right then alignPoints texts else texts.map Text.trimmed
  let least := header.length + 2
  let filled := ready.map (m.padded right ((ready.map m.width).foldl max least))
  return {
    header, right
    width := (filled.flatten.map m.lineWidth).foldl max least
    cells := filled }

end Column

/-! ## Lines -/

/-- A line of dashes between `left` and `right`. -/
def rule (left right : Char) (widths : List Nat) : List Char :=
  left :: ((widths.map fun w => List.replicate (w + 2) '-').intersperse ['+']).flatten ++ [right]

/-- A line of texts that have the widths of their columns. -/
def textLine (texts : List (List Char)) : List Char :=
  '|' :: ((texts.map fun t => ' ' :: t ++ [' ']).intersperse ['|']).flatten ++ ['|']

/-- The lines of the row with this number. A cell with fewer lines than others goes on blank. -/
def rowLines (columns : List Column) (row : Nat) : List (List Char) :=
  let cells := columns.map fun c => c.cells.getD row []
  let height := (cells.map List.length).foldl max 0
  (List.range height).map fun line =>
    textLine (columns.map fun c => (c.cells.getD row []).getD line (blanks c.width))

/-- Whether a cell says that its row is a rule. -/
def isRuleMark : Datum → Bool
  | .text s => Text.trimmed s = "\x01"
  | _ => false

def isRule (row : List Datum) : Bool := (row.take 2).any isRuleMark

/-- The lines of rows, the first of which is row `next` of the columns unless it is a rule. -/
def bodyLines (columns : List Column) (between : List Char) : (next : Nat) → List (List Datum) →
    List (List Char)
  | _, [] => []
  | next, row :: rows =>
    if isRule row then between :: bodyLines columns between next rows
    else rowLines columns next ++ bodyLines columns between (next + 1) rows

/-- The table of rows of cells below their headers. -/
def table (headers : List String) (rows : List (List Datum)) : Except DataError String := do
  let filled := rows.filter fun row => not (isRule row)
  let m := Measure.ofTexts (headers ++ filled.flatten.map Datum.display)
  let columns ← (List.range headers.length).mapM fun i =>
    Column.ofCells m (headers.getD i "") (filled.map fun row => row.getD i .null)
  let widths := columns.map Column.width
  let between := rule '|' '|' widths
  let lines :=
    [rule '+' '+' widths,
      textLine (columns.map fun c => pad c.right c.width c.header.toList), between] ++
      bodyLines columns between 0 rows ++ [rule '+' '+' widths]
  return "\n".intercalate (lines.map String.ofList)

end StorageSnapshot.Report

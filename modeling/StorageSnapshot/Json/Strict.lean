-- SUMMARY: Plain JSON.
import StorageSnapshot.Json.Reader

/-!
# Plain JSON

Strings stand between double quotes and hold no control characters, names are strings, and numbers
are decimal. The three words for numbers that are not finite are admitted.
-/

namespace StorageSnapshot.Json

namespace Strict

def skip (cs : List Char) : List Char :=
  cs.dropWhile fun c => c = ' ' ∨ c = '\t' ∨ c = '\n' ∨ c = '\r'

/-! ## Strings -/

/-- The code unit of four digits, behind which the string must go on. -/
def readUnit (u : Char) (cs : List Char) : Except ReadError (Nat × List Char) :=
  match readHex 4 cs with
  | .ok (n, rest@(_ :: _)) => .ok (n, rest)
  | _ => .error (.expected .codePoint (u :: cs))

/-- The code point of the escape whose letter is `u`. It takes two escapes to write a pair. -/
def readCodePoint (u : Char) (cs : List Char) : Except ReadError (Nat × List Char) := do
  let (high, rest) ← readUnit u cs
  match rest with
  | '\\' :: 'u' :: cs' =>
    match readUnit 'u' cs' with
    | .ok (low, rest') =>
      if Text.isHighUnit high && Text.isLowUnit low then return (Text.ofPair high low, rest')
      else return (high, rest)
    | .error _ => return (high, rest)
  | _ => return (high, rest)

/--
The spelling of the string up to the closing quote; `done` is what was read of it, the last
character first. A string that is not closed is an error of the place where it starts, at `start`.
Every step takes one character of `fuel`, which starts as the whole text, and at least one of the
text.
-/
def readText (start : List Char) :
    (fuel done : List Char) → List Char → Except ReadError (List Char × List Char)
  | [], _, _ => .error (.expected .closingQuote start)
  | _ :: _, _, [] => .error (.expected .closingQuote start)
  | _ :: fuel, done, c :: cs =>
    if c = '"' then .ok (done.reverse, cs)
    else if c = '\\' then
      match cs with
      | [] => .error (.expected .closingQuote start)
      | e :: rest =>
        match e with
        | '"' | '\\' | '/' => readText start fuel (e :: done) rest
        | 'b' => readText start fuel ('\x08' :: done) rest
        | 'f' => readText start fuel ('\x0c' :: done) rest
        | 'n' => readText start fuel ('\n' :: done) rest
        | 'r' => readText start fuel ('\r' :: done) rest
        | 't' => readText start fuel ('\t' :: done) rest
        | 'u' =>
          match readCodePoint e rest with
          | .ok (n, rest) => readText start fuel ((Text.spell n).reverse ++ done) rest
          | .error e => .error e
        | _ => .error (.expected .escape (c :: cs))
    else if c.toNat < 32 then .error (.expected .plainCharacter (c :: cs))
    else readText start fuel (c :: done) cs

def readString (cs : List Char) : Except ReadError (String × List Char) := do
  let (read, rest) ← readText ('"' :: cs) cs [] cs
  return (String.ofList read, rest)

/-! ## Numbers and constants -/

/-- The sign and digits of an exponent, if the text goes on with one. -/
def readExponent : List Char → Option (Bool × List Char) × List Char
  | cs@(e :: rest) =>
    if e = 'e' ∨ e = 'E' then
      let (negative, digits) := match rest with
        | '-' :: ds => (true, ds)
        | '+' :: ds => (false, ds)
        | ds => (false, ds)
      match splitDigits digits with
      | ([], _) => (none, cs)
      | (ds, rest) => (some (negative, ds), rest)
    else (none, cs)
  | [] => (none, [])

def readFraction : List Char → Option (List Char) × List Char
  | cs@('.' :: rest) =>
    match splitDigits rest with
    | ([], _) => (none, cs)
    | (ds, rest) => (some ds, rest)
  | cs => (none, cs)

/-- A numeral behind its sign. A leading zero stands alone in front of the point. -/
def readNumeral? (negative : Bool) (cs : List Char) : Option (Numeral × List Char) :=
  let (whole, rest) := match cs with
    | '0' :: rest => (['0'], rest)
    | _ => splitDigits cs
  if whole.isEmpty then none
  else
    let (fraction, rest) := readFraction rest
    let (exponent, rest) := readExponent rest
    some (⟨negative, whole, fraction, exponent⟩, rest)

/-- The words that stand for a value. -/
def words : List (List Char × Datum) :=
  [("null".toList, .null), ("true".toList, .bool true), ("false".toList, .bool false),
    ("NaN".toList, .float Double.nan), ("Infinity".toList, .float (Double.infinity false)),
    ("-Infinity".toList, .float (Double.infinity true))]

def readScalar (cs : List Char) : Except ReadError (Datum × List Char) :=
  match words.find? fun w => w.1.isPrefixOf cs with
  | some (w, d) => .ok (d, cs.drop w.length)
  | none =>
    let numeral? := match cs with
      | '-' :: rest => readNumeral? true rest
      | _ => readNumeral? false cs
    match numeral? with
    | some (numeral, rest) => do return (← numeral.value, rest)
    | none => .error (.expected .value cs)

end Strict

/-! ## Texts -/

/-- Plain JSON in which no more than `depth` brackets are open at once. -/
def strict (depth : Nat) : Notation where
  skip cs := .ok (Strict.skip cs)
  isQuote c := c == '"'
  string _ cs := Strict.readString cs
  name cs := .error (.expected .name cs)
  scalar := Strict.readScalar
  trailingComma := false
  nesting := .ofDepth depth

/--
The value that a JSON text writes in which no more than `depth` brackets are open at once. Of the
members of one name the last one counts.
-/
def parseWithin (depth : Nat) (s : String) : Except ReadError Datum :=
  match s.toList with
  | '\ufeff' :: cs => .error (.expected .noByteOrderMark ('\ufeff' :: cs))
  | cs => (readAll (strict depth) cs).map mergeNames

/-- The value that the text of a file writes. -/
def parse (s : String) : Except ReadError Datum := parseWithin 985 s

def Strict.expectationText : Expectation → String
  | .value => "Expecting value"
  | .name => "Expecting property name enclosed in double quotes"
  | .colon => "Expecting ':' delimiter"
  | .comma => "Expecting ',' delimiter"
  | .endOfText => "Extra data"
  | .closingQuote => "Unterminated string starting at"
  | .plainCharacter => "Invalid control character at"
  | .escape => "Invalid \\escape"
  | .noByteOrderMark => "Unexpected UTF-8 BOM (decode using utf-8-sig)"
  | .codePoint => "Invalid \\uXXXX escape"

/-- What to say about the error of reading `s`: what was expected, and where. -/
def Strict.errorText (s : String) (what : Expectation) (rest : List Char) : String :=
  let before := pointsBefore s rest
  let (row, column) := position before
  Strict.expectationText what ++ ": line " ++ Text.decimal row ++ " column " ++
    Text.decimal column ++ " (char " ++ Text.decimal before.length ++ ")"

end StorageSnapshot.Json

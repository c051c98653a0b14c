-- SUMMARY: JSON5: JSON with comments, unquoted names, single quotes and more numerals.
import StorageSnapshot.Json.Reader
import StorageSnapshot.Text.Letter
import StorageSnapshot.Text.Quoted

/-!
# JSON5

Names may be identifiers, strings may stand between single quotes, a comma may close a list, and
comments count as blanks. Numerals may have either sign, may be hexadecimal, and may leave out the
digits on one side of the point. A text is first read as a whole and its numerals get their values
afterwards, so that an error in the form of the text comes before an error in a numeral.
-/

namespace StorageSnapshot.Json.Five

/-! ## Blanks -/

def isLineEnd (c : Char) : Bool :=
  c == '\n' || c == '\r' || c == '\u2028' || c == '\u2029'

/-- Line ends, tabulators, the byte order mark, and the characters that leave a gap in a line. -/
def isBlank (c : Char) : Bool :=
  let n := c.toNat
  isLineEnd c || n == 9 || n == 11 || n == 12 || n == 0x20 || n == 0xa0 || n == 0xfeff ||
    n == 0x1680 || (0x2000 ≤ n && n ≤ 0x200a) || n == 0x202f || n == 0x205f || n == 0x3000

/-- The text behind a comment that runs up to a star and a slash, if it is closed. -/
def afterBlock? : List Char → Option (List Char)
  | [] => none
  | '*' :: '/' :: cs => some cs
  | _ :: cs => afterBlock? cs

/-- Each step passes one blank or one comment, and takes one character of `fuel`. -/
def skipWithin : (fuel : List Char) → List Char → Except ReadError (List Char)
  | [], cs => .ok cs
  | _ :: _, [] => .ok []
  | _ :: fuel, '/' :: rest =>
    match rest with
    | '/' :: cs => skipWithin fuel (cs.dropWhile fun c => not (isLineEnd c))
    | '*' :: cs =>
      match afterBlock? cs with
      | some cs => skipWithin fuel cs
      | none => .error (.expected .value [])
    | _ => .error (.expected .value rest)
  | _ :: fuel, c :: cs => if isBlank c then skipWithin fuel cs else .ok (c :: cs)

/-- The text behind its blanks and comments. There are no more of them than characters. -/
def skip (cs : List Char) : Except ReadError (List Char) := skipWithin cs cs

/-! ## Strings -/

/-- The spelling of what an escape stands for, read behind its backslash. -/
def readEscape : List Char → Except ReadError (List Char × List Char)
  | [] => .error (.expected .escape [])
  | c :: rest =>
    match c with
    | 'b' => .ok (['\x08'], rest)
    | 'f' => .ok (['\x0c'], rest)
    | 'n' => .ok (['\n'], rest)
    | 'r' => .ok (['\r'], rest)
    | 't' => .ok (['\t'], rest)
    | 'v' => .ok (['\x0b'], rest)
    | 'x' => (readHex 2 rest).map fun (n, rest) => (Text.spell n, rest)
    | 'u' => (readHex 4 rest).map fun (n, rest) => (Text.spell n, rest)
    | '0' =>
      match rest with
      | d :: _ => if d.isDigit then .error (.expected .escape rest) else .ok (['\x00'], rest)
      | [] => .ok (['\x00'], rest)
    | '\r' =>
      match rest with
      | '\n' :: rest => .ok ([], rest)
      | _ => .ok ([], rest)
    | _ =>
      if isLineEnd c then .ok ([], rest)
      else if c.isDigit then .error (.expected .escape (c :: rest))
      else .ok ([c], rest)

/--
The spelling of the string up to the closing quote; `done` is what was read of it, the last
character first. Every step takes one character of `fuel`, which starts as the whole text, and at
least one of the text.
-/
def readText (quote : Char) :
    (fuel done : List Char) → List Char → Except ReadError (List Char × List Char)
  | [], _, cs => .error (.expected .closingQuote cs)
  | _ :: _, _, [] => .error (.expected .closingQuote [])
  | _ :: fuel, done, c :: cs =>
    if c = quote then .ok (done.reverse, cs)
    else if c = '\\' then
      match readEscape cs with
      | .ok (meant, rest) => readText quote fuel (meant.reverse ++ done) rest
      | .error e => .error e
    else if c = '\n' ∨ c = '\r' then .error (.expected .plainCharacter (c :: cs))
    else readText quote fuel (c :: done) cs

def readString (quote : Char) (cs : List Char) : Except ReadError (String × List Char) := do
  let (read, rest) ← readText quote cs [] cs
  return (String.ofList read, rest)

/-! ## Names -/

def startsName (c : Char) : Bool := c.isAlpha || c == '$' || c == '_' || Text.isLetter c

def continuesName (c : Char) : Bool :=
  startsName c || c.isDigit || Text.isMark c || c == '\u200c' || c == '\u200d'

/-- The code point of an escape in a name, read behind its backslash. -/
def readNameEscape : List Char → Except ReadError (Nat × List Char)
  | 'u' :: rest => readHex 4 rest
  | cs => .error (.expected .name cs)

/-- The spelling of the rest of a name, read in the way of that of a string. -/
def readNameRest : (fuel done : List Char) → List Char →
    Except ReadError (List Char × List Char)
  | [], done, cs => .ok (done.reverse, cs)
  | _ :: _, done, [] => .ok (done.reverse, [])
  | _ :: fuel, done, '\\' :: rest =>
    match readNameEscape rest with
    | .ok (n, rest) => readNameRest fuel ((Text.spell n).reverse ++ done) rest
    | .error e => .error e
  | _ :: fuel, done, c :: rest =>
    if continuesName c then readNameRest fuel (c :: done) rest
    else .ok (done.reverse, c :: rest)

def readName : List Char → Except ReadError (String × List Char)
  | [] => .error (.expected .name [])
  | c :: rest =>
    if startsName c || c == '\\' then do
      let (read, rest) ← readNameRest (c :: rest) [] (c :: rest)
      return (String.ofList read, rest)
    else .error (.expected .name (c :: rest))

/-! ## Numerals -/

/-- The text of an exponent at the front: its letter, a sign if there is one, and digits. -/
def splitExponent : List Char → List Char × List Char
  | e :: rest =>
    if e = 'e' ∨ e = 'E' then
      match rest with
      | '+' :: ds => (e :: '+' :: (splitDigits ds).1, (splitDigits ds).2)
      | '-' :: ds => (e :: '-' :: (splitDigits ds).1, (splitDigits ds).2)
      | ds => (e :: (splitDigits ds).1, (splitDigits ds).2)
    else ([], e :: rest)
  | [] => ([], [])

def splitFraction : List Char → List Char × List Char
  | '.' :: rest => ('.' :: (splitDigits rest).1, (splitDigits rest).2)
  | cs => ([], cs)

/-- No name may follow a decimal numeral at once. -/
def endOfDecimal (numeral : List Char) : List Char → Except ReadError (List Char × List Char)
  | '\\' :: rest =>
    match readNameEscape rest with
    | .ok _ => .error (.expected .value ('\\' :: rest))
    | .error e => .error e
  | c :: rest =>
    if startsName c then .error (.expected .value (c :: rest)) else .ok (numeral, c :: rest)
  | [] => .ok (numeral, [])

/-- A decimal numeral behind its digits in front of the point. -/
def splitDecimal (whole rest : List Char) : Except ReadError (List Char × List Char) :=
  let (fraction, rest) := splitFraction rest
  let (exponent, rest) := splitExponent rest
  endOfDecimal (whole ++ fraction ++ exponent) rest

/-- The text of a numeral without a sign at the front. -/
def splitUnsigned : List Char → Except ReadError (List Char × List Char)
  | '0' :: rest =>
    match rest with
    | x :: digits =>
      if x = 'x' ∨ x = 'X' then
        let (hex, rest) := (digits.takeWhile fun c => (hexValue? c).isSome,
          digits.dropWhile fun c => (hexValue? c).isSome)
        if hex.isEmpty then .error (.expected .value rest) else .ok ('0' :: x :: hex, rest)
      else if x.isDigit then .error (.expected .value rest)
      else splitDecimal ['0'] rest
    | [] => .ok (['0'], [])
  | 'I' :: rest => do return ("Infinity".toList, ← expect .value "nfinity".toList rest)
  | 'N' :: rest => do return ("NaN".toList, ← expect .value "aN".toList rest)
  | c :: rest =>
    if c.isDigit then splitDecimal (splitDigits (c :: rest)).1 (splitDigits (c :: rest)).2
    else if c = '.' then splitDecimal [] (c :: rest)
    else .error (.expected .value (c :: rest))
  | [] => .error (.expected .value [])

/-- The sign of the numeral at the front, which is true for a minus, and what follows the sign. -/
def splitSign : List Char → Bool × List Char
  | '-' :: rest => (true, rest)
  | '+' :: rest => (false, rest)
  | cs => (false, cs)

/-- The sign and digits of an exponent's text. -/
def exponentParts : List Char → Option (Bool × List Char)
  | _ :: '-' :: ds => some (true, ds)
  | _ :: '+' :: ds => some (false, ds)
  | _ :: ds => some (false, ds)
  | [] => none

/-- The parts of a numeral with a point or an exponent, if it has the digits it needs. -/
def floatParts? (negative : Bool) (cs : List Char) : Option Numeral :=
  let (whole, rest) := splitDigits cs
  let (fraction, rest) := splitFraction rest
  let (exponent, rest) := splitExponent rest
  let behind := fraction.drop 1
  let bare := match exponentParts exponent with
    | some (_, ds) => ds.isEmpty
    | none => false
  if not rest.isEmpty || (whole.isEmpty && behind.isEmpty) || bare then none
  else some ⟨negative, whole, some behind, exponentParts exponent⟩

/-- What a numeral stands for, whose text without its sign is `digits`. -/
def numeralValue (negative : Bool) (digits : List Char) : Except ReadError Datum :=
  match digits with
  | '0' :: 'x' :: hex | '0' :: 'X' :: hex =>
    let magnitude : Int := hex.foldl (fun n c => 16 * n + (hexValue? c).getD 0) (0 : Nat)
    .ok (.int (if negative then -magnitude else magnitude))
  | 'I' :: _ => .ok (.float (Double.infinity negative))
  | 'N' :: _ => .ok (.float Double.nan)
  | _ =>
    if digits.all Char.isDigit then Numeral.value ⟨negative, digits, none, none⟩
    else
      match floatParts? negative digits with
      | some numeral => numeral.value
      | none => .error (.badFloat (String.ofList (if negative then '-' :: digits else digits)))

/-- A constant, or a numeral and what `value` makes of it. -/
def readScalar (value : Bool → List Char → Except ReadError Datum) (cs : List Char) :
    Except ReadError (Datum × List Char) := do
  match cs with
  | 'n' :: rest => return (.null, ← expect .value "ull".toList rest)
  | 't' :: rest => return (.bool true, ← expect .value "rue".toList rest)
  | 'f' :: rest => return (.bool false, ← expect .value "alse".toList rest)
  | _ =>
    let (negative, cs) := splitSign cs
    let (numeral, rest) ← splitUnsigned cs
    return (← value negative numeral, rest)

/-- The shares are the numbers of steps inside of each other that reading takes. -/
def nesting : Nesting where
  room := 977
  list := 16
  object := 22
  later := 4
  plain := 29

/-- The notation in which a numeral has the value that `value` gives it. -/
def notationWith (value : Bool → List Char → Except ReadError Datum) : Notation where
  skip := skip
  isQuote c := c == '"' || c == '\''
  string := readString
  name := readName
  scalar := readScalar value
  trailingComma := true
  nesting := nesting

/-! ## Texts -/

/-- The value that a text writes. Members of one name are all kept. -/
def parse (s : String) : Except ReadError Datum := do
  if s = "" then throw .emptyText
  let _ ← readAll (notationWith fun _ _ => .ok .null) s.toList
  readAll (notationWith numeralValue) s.toList

/-- The value that a text writes, which may use no name twice in one object. -/
def parseUnique (s : String) : Except ReadError Datum := do
  let d ← parse s
  match duplicate? d with
  | some name => throw (.duplicateName name)
  | none => return d

/-- What to say about the error of reading `s`. -/
def errorText (s : String) : ReadError → String
  | .expected _ rest =>
    let (row, column) := position (pointsBefore s rest)
    let found := match Text.codePoints rest with
      | [] => "end of input"
      | n :: _ => String.ofList ('"' :: Text.spell n ++ ['"'])
    "<string>:" ++ Text.decimal row ++ " Unexpected " ++ found ++ " at column " ++
      Text.decimal column
  | .tooManyDigits digits => Text.tooManyDigits digits
  | .tooDeep => "maximum recursion depth exceeded"
  | .badFloat numeral => "could not convert string to float: " ++ Text.quoted numeral
  | .emptyText => "Empty strings are not legal JSON5"
  | .duplicateName name => "Duplicate key \"" ++ name ++ "\" found in object"

end StorageSnapshot.Json.Five

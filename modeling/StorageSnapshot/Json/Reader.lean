-- SUMMARY: Reading values from text, for every notation that nests lists and objects in brackets.
import StorageSnapshot.Datum.Basic
import StorageSnapshot.Text.CodePoint
import StorageSnapshot.Text.Numeral

/-!
# Reading nested values

A `Notation` says what blanks, strings, member names and numbers look like, and how deep values may
nest. The brackets, commas and colons around them are the same for every notation. Reading stops at
the first character that fits no rule, and says what it expected and how much of the text was left.
-/

namespace StorageSnapshot.Json

/-! ## Outcomes -/

/-- What a text should have gone on with. -/
inductive Expectation where
  | value
  | name
  | colon
  | comma
  | endOfText
  | closingQuote
  | plainCharacter
  | escape
  | codePoint
  | noByteOrderMark

/-- Why a text is not a value. -/
inductive ReadError where
  /-- What was expected does not stand at the front of `rest`, the part that was left. -/
  | expected (what : Expectation) (rest : List Char)
  /-- A numeral has the right characters in an order that stands for no number. -/
  | badFloat (numeral : String)
  | tooManyDigits (digits : Nat)
  | tooDeep
  | emptyText
  | duplicateName (name : String)

/-- The line and column of the place behind the code points `ns`. -/
def position (ns : List Nat) : Nat × Nat :=
  ns.foldl (fun p n => if n = 10 then (p.1 + 1, 1) else (p.1, p.2 + 1)) (1, 1)

/-- The code points of the text `s` in front of `rest`, its end. -/
def pointsBefore (s : String) (rest : List Char) : List Nat :=
  Text.codePoints (s.toList.take (s.length - rest.length))

/-- What the nesting of values costs. Whatever is open takes its share of the room. -/
structure Nesting where
  room : Nat
  /-- The share of an open list. -/
  list : Nat
  /-- The share of an open object. -/
  object : Nat
  /-- What an item or member takes besides if it is not the first one. -/
  later : Nat
  /-- The share of a value that is not open. -/
  plain : Nat

structure Notation where
  /-- The text behind its leading blanks and comments. -/
  skip : List Char → Except ReadError (List Char)
  /-- Whether a character opens a string. -/
  isQuote : Char → Bool
  /-- The string behind its opening quote. -/
  string : Char → List Char → Except ReadError (String × List Char)
  /-- A member name that is not a string. -/
  name : List Char → Except ReadError (String × List Char)
  /-- A constant or a number. -/
  scalar : List Char → Except ReadError (Datum × List Char)
  /-- Whether a comma may stand in front of a closing bracket. -/
  trailingComma : Bool
  nesting : Nesting

/-! ## Nesting -/

namespace Nesting

/-- The nesting of brackets of either kind, of which no more than `depth` are open at once. -/
def ofDepth (depth : Nat) : Nesting where
  room := depth
  list := 1
  object := 1
  later := 0
  plain := 0

/-- The room inside of brackets that take `share` of it. A value has to fit in there. -/
def open? (n : Nesting) (share room : Nat) : Except ReadError Nat :=
  if room < share + n.plain then .error .tooDeep else .ok (room - share)

/-- The room for an item or a member behind those in `done`. -/
def roomBehind {α : Type} (n : Nesting) (done : List α) (room : Nat) : Nat :=
  if done.isEmpty then room else room - n.later

end Nesting

/-! ## Pieces -/

/-- The text behind `word`, or the first place where it differs. -/
def expect (what : Expectation) : (word : List Char) → List Char → Except ReadError (List Char)
  | [], cs => .ok cs
  | _ :: _, [] => .error (.expected what [])
  | w :: ws, c :: cs =>
    if c = w then expect what ws cs else .error (.expected what (c :: cs))

def readName (n : Notation) : List Char → Except ReadError (String × List Char)
  | [] => .error (.expected .name [])
  | c :: cs => if n.isQuote c then n.string c cs else n.name (c :: cs)

/-- A value without parts. -/
def readPlain (n : Notation) : List Char → Except ReadError (Datum × List Char)
  | [] => .error (.expected .value [])
  | c :: rest =>
    if n.isQuote c then do
      let (s, rest) ← n.string c rest
      return (.text s, rest)
    else n.scalar (c :: rest)

/-! ## Values -/

mutual

/-- A value at the front of `cs`, for which there is `room`. The fuel bounds the number of steps. -/
def readValue (n : Notation) (room : Nat) :
    (fuel : Nat) → List Char → Except ReadError (Datum × List Char)
  | 0, cs => .error (.expected .value cs)
  | fuel + 1, cs =>
    match cs with
    | '[' :: rest => do
      let room ← n.nesting.open? n.nesting.list room
      let rest ← n.skip rest
      match rest with
      | ']' :: rest => .ok (.list [], rest)
      | _ => readItems n room fuel [] rest
    | '\x7b' :: rest => do
      let room ← n.nesting.open? n.nesting.object room
      let rest ← n.skip rest
      match rest with
      | '\x7d' :: rest => .ok (.object [], rest)
      | _ => readMembers n room fuel [] rest
    | _ => if room < n.nesting.plain then .error .tooDeep else readPlain n cs

/-- The items behind those in `done`, the last one first. -/
def readItems (n : Notation) (room : Nat) : (fuel : Nat) → (done : List Datum) → List Char →
    Except ReadError (Datum × List Char)
  | 0, _, cs => .error (.expected .value cs)
  | fuel + 1, done, cs => do
    let (v, rest) ← readValue n (n.nesting.roomBehind done room) fuel cs
    let rest ← n.skip rest
    match rest with
    | ']' :: rest => .ok (.list (v :: done).reverse, rest)
    | ',' :: rest =>
      let rest ← n.skip rest
      match rest with
      | ']' :: rest' =>
        if n.trailingComma then .ok (.list (v :: done).reverse, rest')
        else .error (.expected .value rest)
      | _ => readItems n room fuel (v :: done) rest
    | _ => .error (.expected .comma rest)

/-- The members behind those in `done`, the last one first. -/
def readMembers (n : Notation) (room : Nat) :
    (fuel : Nat) → (done : List (String × Datum)) → List Char →
      Except ReadError (Datum × List Char)
  | 0, _, cs => .error (.expected .value cs)
  | fuel + 1, done, cs => do
    let (k, rest) ← readName n cs
    let rest ← n.skip rest
    let rest ← expect .colon [':'] rest
    let rest ← n.skip rest
    let (v, rest) ← readValue n (n.nesting.roomBehind done room) fuel rest
    let rest ← n.skip rest
    match rest with
    | '\x7d' :: rest => .ok (.object ((k, v) :: done).reverse, rest)
    | ',' :: rest =>
      let rest ← n.skip rest
      match rest with
      | '\x7d' :: rest' =>
        if n.trailingComma then .ok (.object ((k, v) :: done).reverse, rest')
        else .error (.expected .name rest)
      | _ => readMembers n room fuel ((k, v) :: done) rest
    | _ => .error (.expected .comma rest)

end

/-- The value that the whole text writes. Members of one name are all kept. -/
def readAll (n : Notation) (cs : List Char) : Except ReadError Datum := do
  let rest ← n.skip cs
  let (v, rest) ← readValue n n.nesting.room (2 * cs.length + 2) rest
  let rest ← n.skip rest
  match rest with
  | [] => .ok v
  | _ => .error (.expected .endOfText rest)

/-! ## Members of one name -/

mutual

/-- The value in which a later member takes the place of an earlier one of its name. -/
def mergeNames : Datum → Datum
  | .list xs => .list (mergeItems xs)
  | .object ms => .ofMembers (mergeMembers ms)
  | d => d

def mergeItems : List Datum → List Datum
  | [] => []
  | x :: xs => mergeNames x :: mergeItems xs

def mergeMembers : List (String × Datum) → List (String × Datum)
  | [] => []
  | (k, v) :: ms => (k, mergeNames v) :: mergeMembers ms

end

/-- The first name that occurs again behind its own place. -/
def repeatedName? (seen : List String) : List (String × Datum) → Option String
  | [] => none
  | (k, _) :: ms => if seen.contains k then some k else repeatedName? (k :: seen) ms

mutual

/-- The first name that an object uses twice, inner objects first. -/
def duplicate? : Datum → Option String
  | .list xs => duplicateInItems? xs
  | .object ms => duplicateInMembers? ms <|> repeatedName? [] ms
  | _ => none

def duplicateInItems? : List Datum → Option String
  | [] => none
  | x :: xs => duplicate? x <|> duplicateInItems? xs

def duplicateInMembers? : List (String × Datum) → Option String
  | [] => none
  | (_, v) :: ms => duplicate? v <|> duplicateInMembers? ms

end

/-! ## Characters by number -/

/-- The number that `width` hexadecimal digits write. -/
def readHex : (width : Nat) → List Char → Except ReadError (Nat × List Char)
  | width, cs => go width 0 cs
where
  go : Nat → Nat → List Char → Except ReadError (Nat × List Char)
    | 0, n, cs => .ok (n, cs)
    | _ + 1, _, [] => .error (.expected .codePoint [])
    | width + 1, n, c :: cs =>
      match hexValue? c with
      | some v => go width (16 * n + v) cs
      | none => .error (.expected .codePoint (c :: cs))

/-! ## Numbers -/

/-- The decimal digits at the front of a text, and what follows them. -/
def splitDigits (cs : List Char) : List Char × List Char :=
  (cs.takeWhile Char.isDigit, cs.dropWhile Char.isDigit)

/-- The parts of a numeral: the digits in front of the point, behind it, and of the exponent. -/
structure Numeral where
  negative : Bool
  whole : List Char
  /-- The digits behind the point, if there is a point. -/
  fraction : Option (List Char)
  /-- The sign and digits of the exponent, if there is one. -/
  exponent : Option (Bool × List Char)

def digitsValue (cs : List Char) : Nat :=
  cs.foldl (fun n c => 10 * n + (c.toNat - 48)) 0

/-- A numeral without point and exponent is an integer, every other one a float. -/
def Numeral.value (n : Numeral) : Except ReadError Datum :=
  match n.fraction, n.exponent with
  | none, none =>
    if n.whole.length > Text.maxDigits then .error (.tooManyDigits n.whole.length)
    else
      let magnitude : Int := digitsValue n.whole
      .ok (.int (if n.negative then -magnitude else magnitude))
  | fraction, exponent =>
    let behind := fraction.getD []
    let power : Int := match exponent with
      | none => 0
      | some (true, cs) => -(digitsValue cs : Int)
      | some (false, cs) => digitsValue cs
    let digits := digitsValue (n.whole ++ behind)
    .ok (.float (Double.ofDecimal n.negative digits (power - behind.length)))

end StorageSnapshot.Json

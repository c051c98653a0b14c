-- SUMMARY: Escape sequences of terminals: where they stand in a text, and what is left to see.
import StorageSnapshot.Text.Letter

/-!
# Escape sequences

A terminal shows nothing for a control sequence: the escape character, a bracket, parameters and a
final character. A hyperlink is an address and a text between two such marks, of which only the text
is shown. `visible` is what a text shows.
-/

namespace StorageSnapshot.Text

def escape : Char := '\x1b'

/-! ## Control sequences -/

def isParameter (c : Char) : Bool := '0' ≤ c && c ≤ '?'

def isIntermediate (c : Char) : Bool := ' ' ≤ c && c ≤ '/'

def isFinal (c : Char) : Bool := '@' ≤ c && c ≤ '~'

/-- What follows a control sequence, read behind its bracket. -/
def afterControl? (cs : List Char) : Option (List Char) :=
  match (cs.dropWhile isParameter).dropWhile isIntermediate with
  | c :: rest => if isFinal c then some rest else none
  | [] => none

/-! ## Hyperlinks -/

/-- Whether words with equals signs between them are names with their values. No name and no value
is empty, so every word between two signs has the end of a value and the start of a name. -/
def areSettings : (isFirst : Bool) → (word : Nat) → List Char → Bool
  | isFirst, word, [] => not isFirst && word ≠ 0
  | isFirst, word, '=' :: cs => (if isFirst then 1 else 2) ≤ word && areSettings false 0 cs
  | isFirst, word, c :: cs => isWordChar c && areSettings isFirst (word + 1) cs

/-- The parts of a text between its colons, of which a last one that is empty does not count. -/
def colonParts (part : List Char) : List Char → List (List Char)
  | [] => if part.isEmpty then [] else [part.reverse]
  | ':' :: cs => part.reverse :: colonParts [] cs
  | c :: cs => colonParts (c :: part) cs

def areParameters (cs : List Char) : Bool := (colonParts [] cs).all (areSettings true 0)

/-- The characters in front of the next escape character, if there are any, and the rest. -/
def beforeEscape? (cs : List Char) : Option (List Char × List Char) :=
  match cs.takeWhile (· ≠ escape) with
  | [] => none
  | shown => some (shown, cs.dropWhile (· ≠ escape))

/-- The text of a hyperlink and what follows it, read behind the bracket of its first mark. -/
def hyperlink? (cs : List Char) : Option (List Char × List Char) := do
  let cs ← if "8;".toList.isPrefixOf cs then some (cs.drop 2) else none
  let parameters := cs.takeWhile (· ≠ ';')
  let address ← if areParameters parameters then (cs.dropWhile (· ≠ ';')).tail? else none
  let (_, rest) ← beforeEscape? address
  let rest ← if [escape, '\\'].isPrefixOf rest then some (rest.drop 2) else none
  let (shown, rest) ← beforeEscape? rest
  let closing := escape :: "]8;;".toList ++ [escape, '\\']
  if closing.isPrefixOf rest then some (shown, rest.drop closing.length) else none

/-! ## Visible text -/

/-- What the escape sequence at the front of a text shows, and what follows it. -/
def sequence? : List Char → Option (List Char × List Char)
  | c :: '[' :: cs => if c = escape then (afterControl? cs).map fun rest => ([], rest) else none
  | c :: ']' :: cs => if c = escape then hyperlink? cs else none
  | _ => none

/-- What is visible of a text. Each step takes a character of `fuel` and at least one of the
text. -/
def visibleWithin : (fuel : List Char) → List Char → List Char
  | [], _ | _, [] => []
  | _ :: fuel, c :: cs =>
    match sequence? (c :: cs) with
    | some (shown, rest) => shown ++ visibleWithin fuel rest
    | none => c :: visibleWithin fuel cs

def visible (cs : List Char) : List Char := visibleWithin cs cs

/-- Whether an escape sequence stands anywhere in a text. -/
def hasSequence : List Char → Bool
  | [] => false
  | c :: cs => (sequence? (c :: cs)).isSome || hasSequence cs

end StorageSnapshot.Text

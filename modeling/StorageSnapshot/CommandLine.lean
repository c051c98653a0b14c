-- SUMMARY: Command lines: which words are options, what each takes, and the options of a run.
import StorageSnapshot.Files
import StorageSnapshot.Json.Json5
import StorageSnapshot.Options.Merge

/-!
# Command lines

A command line is one file and any number of options, in any order. An option may be shortened as
long as no other one starts alike, and may have its value behind an equals sign. Two dashes that
stand alone end the options. First every word is told to be an option or not; then the words are
consumed from the left, and each value is checked when it is consumed.
-/

namespace StorageSnapshot

/-- Why a run ends without a result. -/
inductive Stop where
  /-- The command line is no command line of the program. -/
  | usage
  | help
  | fault (f : Fault)

namespace CommandLine

/-! ## Words -/

/-- What an option word stands for. -/
inductive Switch where
  | help
  | option (name : OptionName)
  | unknown
  deriving DecidableEq

inductive Word where
  | plain (text : String)
  /-- The two dashes that end the options. -/
  | separator
  | switch (s : Switch) (value : Option String)

/-- The spellings of the options. -/
def switches : List (String × Switch) :=
  [("-h", .help), ("--help", .help)] ++
    OptionName.all.map fun n => ("--" ++ n.text, .option n)

/-- Whether a word is a negative number, which is no option. A line feed may follow. -/
def isNegativeNumber (word : String) : Bool :=
  let isDigit (c : Char) : Bool := (Text.decimalValue? c).isSome
  let line := if word.toList.getLast? = some '\n' then word.toList.dropLast else word.toList
  match line with
  | '-' :: cs =>
    let whole := cs.takeWhile isDigit
    match cs.dropWhile isDigit with
    | [] => not whole.isEmpty
    | '.' :: ds => not ds.isEmpty && ds.all isDigit
    | _ => false
  | _ => false

/-- The part in front of the first equals sign, and the part behind it if there is one. -/
def splitEquals (cs : List Char) : List Char × Option (List Char) :=
  match cs.dropWhile (· ≠ '=') with
  | _ :: rest => (cs.takeWhile (· ≠ '='), some rest)
  | [] => (cs, none)

/-- The value of a one-letter option in whose word `cs` follows. The only such option takes no
value, so that there is none where `cs` is nothing but its letter again. -/
def valueOfLetter (cs : List Char) : Option String :=
  if cs ≠ [] ∧ cs.all (· = 'h') then none else some (String.ofList cs)

/-- The options that a shortened word may stand for, with the value that the word brings along. -/
def candidates (cs : List Char) : List (Switch × Option String) :=
  match cs with
  | '-' :: '-' :: _ =>
    let (name, value) := splitEquals cs
    (switches.filter fun s => name.isPrefixOf s.1.toList).map fun s =>
      (s.2, value.map String.ofList)
  | '-' :: c :: rest =>
    switches.filterMap fun s =>
      if s.1.toList = ['-', c] then
        some (s.2, valueOfLetter rest)
      else if cs.isPrefixOf s.1.toList then some (s.2, none)
      else none
  | _ => []

/-- What a word in front of the separator is, unless it may be short for several options. -/
def wordOf? (word : String) : Option Word :=
  let cs := word.toList
  if cs.head? ≠ some '-' ∨ cs.length = 1 then some (.plain word)
  else
    match switches.lookup word with
    | some s => some (.switch s none)
    | none =>
      let (name, value) := splitEquals cs
      match value, switches.lookup (String.ofList name) with
      | some v, some s =>
        some (.switch s (if name = ['-', 'h'] then valueOfLetter v else some (String.ofList v)))
      | _, _ =>
        match candidates cs with
        | _ :: _ :: _ => none
        | [(s, v)] => some (.switch s v)
        | [] =>
          if isNegativeNumber word ∨ cs.contains ' ' then some (.plain word)
          else some (.switch .unknown none)

/-- The words of a command line. -/
def words? : List String → Option (List Word)
  | [] => some []
  | "--" :: rest => some (.separator :: rest.map .plain)
  | word :: rest => do return (← wordOf? word) :: (← words? rest)

/-! ## Values -/

/-- Checks that a file holds JSON5. A slash at the end of its path asks for a directory. -/
def checkDumpFile (files : FileTree) (path : String) : Except Fault String := do
  let text ← files.readText (.ofText path)
  if FilePath.byteCount path ≥ FilePath.pathEnd then throw (.file (.nameTooLong path))
  if path.endsWith "/" || path.endsWith "/." then throw (.file (.notADirectory path))
  match Json.Five.parse text with
  | .ok _ => return path
  | .error e => throw (.input (.badJson5 path (Json.Five.errorText text e)))

/-- Whether an option takes every plain word that follows it. -/
def takesMany : OptionName → Bool
  | .variable | .mappingKey | .debugTopics => true
  | _ => false

/-- The value of an option that takes one word. -/
def settingOf (name : OptionName) (word : String) : Except InputError Setting :=
  match name with
  | .maxLength => (fun (n : Nat) => .value (.int n)) <$> Check.nonNegative (.text word)
  | .maxDepth => (fun (n : Nat) => .value (.int n)) <$> Check.positive (.text word)
  | _ => .ok (.path (FilePath.ofText word).text)

def settingOfMany (words : List String) : Setting := .value (.list (words.map .text))

/-- The value that an option's own word brings along. Two dashes are left out of the words that an
option takes, and are the value of none. -/
def settingBehindSign (name : OptionName) (word : String) : Except InputError Setting :=
  if word = "--" then .ok (settingOfMany [])
  else if takesMany name then .ok (settingOfMany [word])
  else settingOf name word

/-! ## Consuming words -/

/-- What has been consumed of a command line. -/
structure Progress where
  dumpFile : Option String := none
  options : Options := .unset ""
  /-- Whether there were words that nothing takes. -/
  leftOver : Bool := false

def plainTexts : List Word → List String
  | .plain s :: ws => s :: plainTexts ws
  | _ => []

def afterPlain : List Word → List Word
  | .plain _ :: ws => afterPlain ws
  | ws => ws

theorem length_afterPlain (ws : List Word) : (afterPlain ws).length ≤ ws.length := by
  induction ws with
  | nil => simp [afterPlain]
  | cons w ws ih =>
    cases w with
    | plain _ => simp only [afterPlain, List.length_cons]; omega
    | separator | switch => simp [afterPlain]

def hasSwitch (ws : List Word) : Bool :=
  ws.any fun w => match w with
    | .switch .. => true
    | _ => false

def takeFile (files : FileTree) (p : Progress) (word : String) : Except Stop Progress :=
  match checkDumpFile files word with
  | .ok path => .ok { p with dumpFile := some path }
  | .error e => .error (.fault e)

/-- The words behind the last option: the file, if it is still missing, and nothing else. -/
def finish (files : FileTree) (p : Progress) (ws : List Word) : Except Stop Progress :=
  match p.dumpFile, ws with
  | none, .plain s :: .separator :: rest | none, .separator :: .plain s :: rest
  | none, .plain s :: rest => do
    let p ← takeFile files p s
    return { p with leftOver := p.leftOver || not rest.isEmpty }
  | _, ws => .ok { p with leftOver := p.leftOver || not ws.isEmpty }

def takeSetting (p : Progress) (name : OptionName) (value : Except InputError Setting) :
    Except Stop Progress :=
  match value with
  | .ok v => .ok { p with options := p.options.set name v }
  | .error e => .error (.fault (.input e))

/-- Consumes an option and what it takes of the words behind it: the rest of them is left. -/
def takeSwitch (p : Progress) (s : Switch) (value : Option String) (ws : List Word) :
    Except Stop (Progress × { rest : List Word // rest.length ≤ ws.length }) :=
  match s, value with
  | .unknown, _ => .ok ({ p with leftOver := true }, ⟨ws, Nat.le_refl _⟩)
  | .help, none => .error .help
  | .help, some _ => .error .usage
  | .option name, some v =>
    if name.isFlag then .error .usage
    else do
      return (← takeSetting p name (settingBehindSign name v), ⟨ws, Nat.le_refl _⟩)
  | .option name, none =>
    if name.isFlag then do
      return (← takeSetting p name (.ok (.value (.bool true))), ⟨ws, Nat.le_refl _⟩)
    else
      match ws with
      | .plain v :: rest =>
        if takesMany name then do
          return (← takeSetting p name (.ok (settingOfMany (v :: plainTexts rest))),
            ⟨afterPlain rest, by have := length_afterPlain rest; simp; omega⟩)
        else do
          return (← takeSetting p name (settingOf name v), ⟨rest, by simp⟩)
      | _ => .error .usage

/-- Consumes all words. -/
def consume (files : FileTree) (p : Progress) (ws : List Word) : Except Stop Progress :=
  if not (hasSwitch ws) then finish files p ws
  else
    match ws with
    | [] => .ok p
    | .switch s value :: rest => do
      let next ← takeSwitch p s value rest
      consume files next.1 next.2.val
    | .plain word :: rest =>
      match p.dumpFile with
      | none => do
        let p ← takeFile files p word
        consume files p rest
      | some _ => consume files { p with leftOver := true } rest
    | .separator :: rest => consume files { p with leftOver := true } rest
termination_by ws.length
decreasing_by
  · have := next.2.property; simp; omega
  · simp
  · simp
  · simp

/-- The options that a command line asks for. -/
def parse (files : FileTree) (args : List String) : Except Stop Options :=
  match words? args with
  | none => .error .usage
  | some ws => do
    let p ← consume files {} ws
    match p.dumpFile, p.leftOver with
    | some path, false => return { p.options with dumpFile := path }
    | _, _ => throw .usage

end CommandLine

end StorageSnapshot

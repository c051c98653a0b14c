-- SUMMARY: Options of a run: their names and values.
import StorageSnapshot.Datum.Convert

/-!
# Options

Options come from the command line, and from the dump file where the command line leaves them unset.
The dump file holds data beside options; which of its members are which is known by their names.
-/

namespace StorageSnapshot

/-! ## Names -/

inductive OptionName where
  | maxLength
  | maxDepth
  | hashedKeys
  | variable
  | mappingKey
  | json
  | quiet
  | debug
  | debugTopics
  | showDebugTopics
  | debugLogFile
  | abortReport
  deriving DecidableEq

namespace OptionName

def all : List OptionName :=
  [.maxLength, .maxDepth, .hashedKeys, .variable, .mappingKey, .json, .quiet, .debug,
    .debugTopics, .showDebugTopics, .debugLogFile, .abortReport]

def text : OptionName → String
  | .maxLength => "max_decode_length"
  | .maxDepth => "max_nesting_depth"
  | .hashedKeys => "hashed_keys"
  | .variable => "variable"
  | .mappingKey => "mapping_key"
  | .json => "json"
  | .quiet => "quiet"
  | .debug => "debug"
  | .debugTopics => "debug_topics"
  | .showDebugTopics => "show_debug_topics"
  | .debugLogFile => "debug_log_file"
  | .abortReport => "abort_report"

def ofText? (s : String) : Option OptionName := all.find? fun n => n.text = s

/-- Whether the option is set by its presence alone. -/
def isFlag : OptionName → Bool
  | .hashedKeys | .json | .quiet | .debug | .showDebugTopics => true
  | _ => false

end OptionName

/-! ## Values -/

/-- The value of an option. A path is a file's place, which is equal to no value of a dump file. -/
inductive Setting where
  | value (d : Datum)
  | path (p : String)

namespace Setting

/-- Whether the option was not set: its value is null or false. -/
def isUnset : Setting → Bool
  | .value .null | .value (.bool false) => true
  | _ => false

def equals (s : Setting) (d : Datum) : Bool :=
  match s with
  | .value v => v.same d
  | .path _ => false

/-- A value in a message: the items of a list follow each other. -/
def listing (d : Datum) : Except DataError String :=
  match d with
  | .list items => do return " ".intercalate (← items.mapM Datum.asText)
  | d => do
    d.checkText
    return d.display

def text : Setting → Except DataError String
  | .value d => listing d
  | .path p => .ok p

/-- A setting among others: texts stand between quotes, and paths are told apart from texts. -/
def quoted : Setting → String
  | .value d => d.quoted
  | .path p => "PosixPath(" ++ Text.quoted p ++ ")"

/-- Whether a setting can be shown among others. -/
def checkText : Setting → Except DataError Unit
  | .value d => d.checkText
  | .path _ => .ok ()

def value? : Setting → Option Datum
  | .value d => some d
  | .path _ => none

end Setting

structure Options where
  dumpFile : String
  get : OptionName → Setting
  /-- What a dump file has put in the place of the options' hash, which is the only reserved name
  that takes a value. -/
  mark : Option Datum := none

namespace Options

/-- No option is set. -/
def unset (dumpFile : String) : Options where
  dumpFile := dumpFile
  get name := .value (if name.isFlag then .bool false else .null)

def set (o : Options) (name : OptionName) (value : Setting) : Options :=
  { o with get := fun n => if n = name then value else o.get n }

def isOn (o : Options) (name : OptionName) : Bool :=
  match o.get name with
  | .value d => d.isTruthy
  | .path _ => true

/-- The texts of an option that takes a list of them; none if it is unset. -/
def texts (o : Options) (name : OptionName) : List String :=
  match o.get name with
  | .value (.list items) => items.map Datum.display
  | _ => []

/-- The path of an option that takes one, if it is set. -/
def path? (o : Options) (name : OptionName) : Option String :=
  match o.get name with
  | .path p => some p
  | _ => none

/-- The options in their order, under their names. -/
def entries (o : Options) : List (String × Setting) :=
  ("dump_file", .value o.dumpFile) :: OptionName.all.map (fun n => (n.text, o.get n)) ++
    o.mark.toList.map fun d => ("__hash__", .value d)

end Options

end StorageSnapshot

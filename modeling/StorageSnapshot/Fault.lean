-- SUMMARY: Everything that can go wrong, by cause, and what to say about it.
import StorageSnapshot.Cursor
import StorageSnapshot.Datum.Convert
import StorageSnapshot.Ty.Basic

/-!
# Faults

There are four large families of faults. An input error is the user's: an option, a dump or a key
that is refused. A layout error is ours: a type and the place it is to be read from do not agree.
An unresolved type is one that the AST does not define, and costs no more than the values of that
type. All else is data that does not have the form that a step takes for granted. What an error says
is put together when it is raised; where it shows a value that can't be written, that is the fault.
-/

namespace StorageSnapshot

/-! ## Input errors -/

/-- What a mapping key had to be. -/
inductive KeyDefect where
  | notBool
  | notAddress
  | wrongSize (type : Ty)
  | doesNotFit (type : Ty)
  | notConvertible (type : Ty) (cause : DataError)

def KeyDefect.message (key : Datum) : KeyDefect → String
  | .notBool => "key " ++ key.quoted ++ " is not a bool"
  | .notAddress => "key " ++ key.quoted ++ " is not an address"
  | .wrongSize type => "key " ++ key.quoted ++ " is not a " ++ type.source
  | .doesNotFit type => "key " ++ key.display ++ " does not fit in " ++ type.source
  | .notConvertible type cause =>
    "key " ++ key.quoted ++ " is not a " ++ type.source ++ ": " ++ cause.message

/-- Whether all that is said of a key can be written. -/
def KeyDefect.check (key : Datum) : KeyDefect → Except DataError Unit
  | .notBool | .notAddress => key.checkText
  | .wrongSize type | .doesNotFit type | .notConvertible type _ => do
    key.checkText
    type.checkName

inductive InputError where
  -- values
  | negativeInteger (given : Datum)
  | notPositive (given : Datum)
  | slotTooLarge (given : Datum)
  | wordNotText (given : Datum)
  | wordNotHexadecimal (given : String)
  | wordTooLong (given : String)
  | notTruth (given : Datum)
  | notTexts (given : Datum)
  -- mapping keys
  | badKey (key : Datum) (defect : KeyDefect)
  | wrongKeyCount (type : Ty) (keys : List Datum)
  -- limits
  | negativeLength (given : Datum)
  | noNesting (given : Datum)
  -- compiler output
  | layoutWithoutStorage
  | entryOffset (offset : Nat) (label : Datum)
  | entryWithout (entry : Datum) (name : Datum)
  | sourceWithoutAst (file : String)
  | nodeId (id : Datum)
  -- files
  | noSuchFile (path : String)
  | notAFile (path : String)
  | badJson5 (path : String) (cause : String)
  | badDumpText (path : String) (cause : String)
  | dumpNotAnObject (path : String)
  | badDump (path : String) (cause : InputError)
  | badCompilerOutput (path : String) (cause : String)
  | compilerOutputNumeral (path : String) (digits : Nat)
  | badContractName (given : Datum)
  | compilerOutputWithout (path : String) (name contract : Datum)
  -- options
  | badOption (option : String) (cause : InputError)
  | unknownOption (option : String)
  | noStorage
  | storageNotAnObject
  | ambiguousSource
  -- requests
  | badRequest (given : String)
  | keysForOtherType (label : String)
  | unknownVariables (names : List String)

namespace InputError

def message : InputError → String
  | .negativeInteger given =>
    "expected a non-negative integer, instead given " ++ given.display
  | .notPositive given => "expected a positive integer, instead given " ++ given.display
  | .slotTooLarge given => "slot " ++ given.display ++ " does not fit in 256 bits"
  | .wordNotText given => "storage words must be hex strings, instead given " ++ given.display
  | .wordNotHexadecimal given => given ++ " is not a hex string"
  | .wordTooLong given => "storage word " ++ given ++ " is longer than 32 bytes"
  | .notTruth given => "expected true or false, instead given " ++ given.quoted
  | .notTexts given => "expected a list of strings, instead given " ++ given.quoted
  | .badKey key defect => defect.message key
  | .wrongKeyCount type keys =>
    type.source ++ " takes " ++ Text.decimal type.keyTypes.length ++ " key(s), got " ++
      Text.decimal keys.length ++ ": " ++ ", ".intercalate (keys.map Datum.quoted)
  | .negativeLength given =>
    "max_decode_length must be non-negative, got " ++ given.display
  | .noNesting given => "max_nesting_depth must be positive, got " ++ given.display
  | .layoutWithoutStorage => "storage layout has no 'storage' entry"
  | .entryOffset offset label =>
    "offset " ++ Text.decimal offset ++ " of " ++ label.display ++ " is outside of a word"
  | .entryWithout entry name =>
    "storage layout entry " ++ entry.display ++ " is missing " ++ name.quoted
  | .sourceWithoutAst file =>
    "Invalid AST format for " ++ file ++ " - got object that does not contain an \"ast\""
  | .nodeId id =>
    "Unexpected type of attribute `id`, was " ++ id.display ++
      ", expected an integer or an int-typed list of length 1"
  | .noSuchFile path => path ++ " does not exists"
  | .notAFile path => path ++ " exists but is not a file"
  | .badJson5 path cause => "Parsing error in JSON file " ++ path ++ ": " ++ cause
  | .badDumpText path cause => "Parsing error in " ++ path ++ ": " ++ cause
  | .dumpNotAnObject path => path ++ " must hold a JSON object"
  | .badDump path cause => "Error when reading " ++ path ++ ": " ++ cause.message
  | .badCompilerOutput path _ | .compilerOutputNumeral path _ => path ++ " is not a JSON file"
  | .badContractName given =>
    "contract must be given as <file>:<name>, got " ++ given.display
  | .compilerOutputWithout path name contract =>
    path ++ " has no " ++ name.quoted ++ " entry for " ++ contract.display ++
      ". Was it compiled with the storageLayout output selected?"
  | .badOption option cause => "bad value of " ++ option ++ ": " ++ cause.message
  | .unknownOption option =>
    option ++ " appears in the conf file but is not a known attribute. "
  | .noStorage => "Mandatory 'storage' attribute is missing from the configuration"
  | .storageNotAnObject => "'storage' must map slots to words"
  | .ambiguousSource =>
    "Exactly one of 'sources' and 'storageLayout', or 'solc_output' and 'contract', must be given"
  | .badRequest given => "mapping keys must be given as <name>:<key>, got " ++ given
  | .keysForOtherType label =>
    "mapping keys were given for " ++ label ++ ", which is not a mapping"
  | .unknownVariables names => "no state variables named " ++ ", ".intercalate names

/-- Whether all that the error shows can be written. Texts can, and so can an error raised
before. -/
def check : InputError → Except DataError Unit
  | .negativeInteger given | .notPositive given | .slotTooLarge given | .wordNotText given
  | .notTruth given | .notTexts given | .negativeLength given | .noNesting given
  | .badContractName given => given.checkText
  | .badKey key defect => defect.check key
  | .wrongKeyCount type keys => do
    type.checkName
    (Datum.list keys).checkText
  | .entryOffset offset label => do
    (Datum.int offset).checkText
    label.checkText
  | .entryWithout entry _ => entry.checkText
  | .nodeId id => id.checkText
  | .compilerOutputWithout _ name contract => do
    name.checkText
    contract.checkText
  | .wordNotHexadecimal _ | .wordTooLong _ | .layoutWithoutStorage | .sourceWithoutAst _
  | .noSuchFile _ | .notAFile _ | .badJson5 .. | .badDumpText .. | .dumpNotAnObject _ | .badDump ..
  | .badCompilerOutput .. | .compilerOutputNumeral .. | .badOption .. | .unknownOption _
  | .noStorage | .storageNotAnObject | .ambiguousSource | .badRequest _ | .keysForOtherType _
  | .unknownVariables _ => .ok ()

/-- The text of the error that this one was made from, where it is shown beside it. -/
def cause? : InputError → Option String
  | .badDumpText _ cause | .badCompilerOutput _ cause => some cause
  | .compilerOutputNumeral _ digits => some (Text.tooManyDigits digits)
  | .badDump _ cause => some cause.message
  | _ => none

end InputError

/-! ## Layout errors -/

inductive LayoutError where
  | longWord (slot : Int) (size : Nat)
  | noStaticSize (type : Ty)
  | largerThanWord (type : Ty)
  | outOfWord (type : Ty) (size : Nat) (place : Cursor)
  | notFresh (type : Ty) (place : Cursor)
  | outOfRange (type : Ty) (value : Int) (place : Cursor)

def LayoutError.message : LayoutError → String
  | .longWord slot size =>
    "Word at slot " ++ Text.hexNumber slot ++ " is " ++ Text.decimal size ++ " bytes long"
  | .noStaticSize type => "No static storage size for " ++ type.source
  | .largerThanWord type =>
    "Unexpected type " ++ type.source ++ " spanning more than a single word"
  | .outOfWord type size place =>
    "Can't decode " ++ type.source ++ " (" ++ Text.decimal size ++ " bytes) starting at offset " ++
      Text.decimal place.free ++ " in word " ++ place.slot.text
  | .notFresh type place =>
    "Location of " ++ type.source ++ " doesn't start at the end of word " ++ place.slot.text ++
      " - instead at off " ++ Text.decimal place.free
  | .outOfRange type value place =>
    "Decoded value " ++ Text.decimal value ++ " from " ++ place.text ++
      " doesn't fit in expected type " ++ type.source

/-- A type that there is no way of reading. -/
inductive UnsupportedType where
  | asKey (type : Ty)
  | mappingContents (type : Ty) (place : Cursor)
  | asValue (type : Ty)

def UnsupportedType.message : UnsupportedType → String
  | .asKey type => type.source ++ " can't be a mapping key"
  | .mappingContents type place =>
    "Can't decode the contents of " ++ type.source ++ " at " ++ place.text ++
      ", decode its entries by key instead"
  | .asValue type => "No storage decoding for type " ++ type.source

/-! ## Unresolved types -/

inductive Unresolved where
  | noAst (reference : Datum)
  | noSuchNode (reference : Datum)
  | notIndexed (reference : Datum)
  | notADefinition (node : Datum) (nodeType : Datum)
  | notATypeName (nodeType : Datum)
  | nodeWithout (name : Datum)
  | unknownElementary (name : Datum)
  | badKeyword (name : Datum)
  | openLength (typeString : Datum)
  | badLength (typeString : Datum) (cause : DataError)
  | notElementary (underlying : Ty) (d : Declaration)
  | variableWithoutId (label : Datum)
  | notAVariable (id : Datum) (label : Datum)

def Unresolved.message : Unresolved → String
  | .noAst reference => "no AST to look up node " ++ reference.display ++ " in"
  | .noSuchNode reference => "could not find AST node " ++ reference.display
  | .notIndexed reference => "Could not find reference AST node " ++ reference.display
  | .notADefinition _ nodeType => "unexpected AST type definition node " ++ nodeType.display
  | .notATypeName nodeType => "unexpected AST type name node " ++ nodeType.display
  | .nodeWithout name => "malformed AST type name node, missing " ++ name.quoted
  | .unknownElementary name => "unexpected elementary type name " ++ name.display
  | .badKeyword name => "bad primitive name " ++ name.display
  | .openLength typeString => "cannot resolve the length of array " ++ typeString.display
  | .badLength typeString cause =>
    "bad length of array " ++ typeString.display ++ ": " ++ cause.message
  | .notElementary underlying d =>
    "unexpected underlying type " ++ underlying.source ++ " of " ++ (Ty.qualifiedName d).display
  | .variableWithoutId label => "storage layout entry of " ++ label.display ++ " has no astId"
  | .notAVariable id label =>
    "AST node " ++ id.display ++ " of " ++ label.display ++ " is not a typed variable declaration"

/-- Whether all that is said of an unresolved type can be written. -/
def Unresolved.check : Unresolved → Except DataError Unit
  | .noAst reference | .noSuchNode reference | .notIndexed reference => reference.checkText
  | .notADefinition node nodeType => do
    node.checkText
    nodeType.checkText
  | .notATypeName nodeType => nodeType.checkText
  | .nodeWithout name | .unknownElementary name | .badKeyword name => name.checkText
  | .openLength typeString | .badLength typeString _ => typeString.checkText
  | .notElementary underlying d => do
    let _ ← underlying.shownSource
    Ty.checkQualifiedName d
    (Ty.qualifiedName d).checkText
  | .variableWithoutId label => label.checkText
  | .notAVariable id label => do
    id.checkText
    label.checkText

/-! ## Faults -/

/-- A rule that callers promise to keep. -/
inductive BrokenRule where
  | place (e : CursorError)
  | memberWithoutType (name : Datum)
  | aliasWithoutType (canonicalName : Datum)
  | notAnIntegerType (name : String)
  | notAnAddress (given : Bytes)
  | contractWithoutName
  | levelWithoutKeys (type : Ty)

def BrokenRule.message : BrokenRule → String
  | .place e => e.message
  | .memberWithoutType name => "struct member " ++ name.display ++ " has neither a type nor a node"
  | .aliasWithoutType name =>
    "value type " ++ name.display ++ " has neither an underlying type nor a node"
  | .notAnIntegerType name => name ++ " is not an integer type"
  | .notAnAddress given => "an address is 20 bytes, got " ++ Text.quotedBytes given
  | .contractWithoutName | .levelWithoutKeys _ => ""

/-- Whether all that is said of a broken rule can be written. -/
def BrokenRule.check : BrokenRule → Except DataError Unit
  | .place (.noSuchSlot n) | .place (.noSuchOffset n) | .place (.tooManyBytes n _) =>
    (Datum.int n).checkText
  | .memberWithoutType name | .aliasWithoutType name => name.checkText
  | .notAnIntegerType _ | .notAnAddress _ | .contractWithoutName | .levelWithoutKeys _ => .ok ()

/-- What no path may have in it. -/
inductive PathDefect where
  | zeroCharacter
  | loneUnit
  deriving DecidableEq

/-- Why a path can't be read or written. -/
inductive FileError where
  | missing (path : String)
  | isDirectory (path : String)
  | notADirectory (path : String)
  | nameTooLong (path : String)
  /-- The text is no path of any file. -/
  | noPath (defect : PathDefect)

namespace FileError

def text : FileError → String
  | .missing _ => "FileNotFoundError(2, 'No such file or directory')"
  | .isDirectory _ => "IsADirectoryError(21, 'Is a directory')"
  | .notADirectory _ => "NotADirectoryError(20, 'Not a directory')"
  | .nameTooLong _ => "OSError(36, 'File name too long')"
  | .noPath .zeroCharacter => "embedded null byte"
  | .noPath .loneUnit => "surrogates not allowed"

/-- Whether it is the file system that says so. It is not asked about what is no path. -/
def isAnswer : FileError → Bool
  | .noPath _ => false
  | _ => true

end FileError

inductive Fault where
  | input (e : InputError)
  | layout (e : LayoutError)
  | unsupported (e : UnsupportedType)
  | unresolved (e : Unresolved)
  | broken (e : BrokenRule)
  | data (e : DataError)
  | missing (name : Datum)
  | file (e : FileError)

def Fault.message : Fault → String
  | .input e => e.message
  | .layout e => e.message
  | .unsupported e => e.message
  | .unresolved e => e.message
  | .broken e => e.message
  | .data e => e.message
  | .missing name => name.quoted
  | .file e => e.text

instance : Inhabited Fault := ⟨.missing .null⟩

namespace Fault

/-- A fault whose text is put together when it is raised. -/
def raised (check : Except DataError Unit) (fault : Fault) : Fault :=
  match check with
  | .ok () => fault
  | .error e => .data e

def ofInput (e : InputError) : Fault := raised e.check (.input e)

def ofUnresolved (e : Unresolved) : Fault := raised e.check (.unresolved e)

def ofBroken (e : BrokenRule) : Fault := raised e.check (.broken e)

end Fault

instance : Coe InputError Fault := ⟨.ofInput⟩
instance : Coe LayoutError Fault := ⟨.layout⟩
instance : Coe UnsupportedType Fault := ⟨.unsupported⟩
instance : Coe Unresolved Fault := ⟨.ofUnresolved⟩
instance : Coe BrokenRule Fault := ⟨.ofBroken⟩
instance : Coe DataError Fault := ⟨.data⟩
instance : Coe FileError Fault := ⟨.file⟩

/-- A step that can fail in one way, as a step that can fail in every way. -/
def Fault.lift {ε α : Type} [Coe ε Fault] : Except ε α → Except Fault α
  | .ok a => .ok a
  | .error e => .error e

/-- A place in storage that must exist. -/
def Fault.place {α : Type} : Except CursorError α → Except Fault α
  | .ok a => .ok a
  | .error e => .error (.ofBroken (.place e))

end StorageSnapshot

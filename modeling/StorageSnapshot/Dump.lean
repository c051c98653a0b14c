-- SUMMARY: Dump files: the words of a snapshot together with what gives them meaning.
import StorageSnapshot.CommandLine
import StorageSnapshot.Json.Strict
import StorageSnapshot.Layout
import StorageSnapshot.Store

/-!
# Dumps

A dump file holds the words of a snapshot and options. The AST and the layout that give meaning to
the words are in it too, or in a compiler's output that it names.
-/

namespace StorageSnapshot

structure Dump where
  store : Store
  index : Ast.Index
  /-- The state variables, in the order of the layout. -/
  state : List StateVariable
  limits : Limits

namespace Dump

/-! ## The dump file -/

/-- The members of a dump file. No object in it may use a name twice. -/
def readMembers (files : FileTree) (path : String) : Except Fault (List (String × Datum)) := do
  let shown := (FilePath.ofText path).text
  let text ← match ← Fault.lift (files.find? (.ofText path)) with
    | some (.file s) => .ok (Text.withLineFeeds s)
    | some .device => .ok ""
    | some .directory => throw (.file (.isDirectory shown))
    | none => throw (.file (.missing shown))
  match Json.Five.parseUnique text with
  | .error e => throw (.input (.badDumpText shown (Json.Five.errorText text e)))
  | .ok (.object ms) => return ms
  | .ok _ => throw (.input (.dumpNotAnObject shown))

/-- An input error of the dump file's contents says which file it is about. -/
def inFile (path : String) : Fault → Fault
  | .input e => .input (.badDump (FilePath.ofText path).text e)
  | fault => fault

/-- The data of the dump file, and the options with those of the dump file taken in. -/
def readFile (files : FileTree) (o : Options) : Options × Traced Fault (List (String × Datum)) :=
  match readMembers files o.dumpFile with
  | .error e => (o, .fail e)
  | .ok ms =>
    let (o', data) := o.merge ms
    (o', data.mapError (inFile o.dumpFile))

/-! ## Compiler output -/

/-- The file and the name of a contract: the parts around the last colon. -/
def splitContract (given : Datum) : Except Fault (String × String) := do
  Fault.lift given.checkText
  let cs := given.display.toList.reverse
  match cs.dropWhile (· ≠ ':') with
  | _ :: file =>
    return (String.ofList file.reverse, String.ofList (cs.takeWhile (· ≠ ':')).reverse)
  | [] => throw (.ofInput (.badContractName given))

/-- The layout of a contract and the sources, in a compiler's output. -/
def partsOfOutput (output : Datum) (file name : String) : Except Fault (Datum × Datum) := do
  let contracts ← Ast.require output "contracts"
  let contract ← Ast.require (← Ast.require contracts file) name
  let layout ← Ast.require contract "storageLayout"
  return (layout, ← Ast.require output "sources")

/-- The value that a file in plain JSON holds. -/
def readJson (files : FileTree) (path : FilePath) : Except Fault Datum := do
  let text ← files.readText path
  match Json.parse text with
  | .ok d => return d
  | .error (.expected what rest) =>
    throw (.input (.badCompilerOutput path.text (Json.Strict.errorText text what rest)))
  | .error (.tooManyDigits digits) => throw (.input (.compilerOutputNumeral path.text digits))
  | .error .tooDeep => throw (.data .nestedTooDeep)
  | .error _ => throw (.input (.badCompilerOutput path.text ""))

/-- The path of a compiler's output that a dump file names: it is seen from the dump file. -/
def outputPath (dumpFile relative : String) : FilePath :=
  (FilePath.ofText dumpFile).parent.join (.ofText relative)

/-- The layout and the sources in the output that the data names. -/
def readOutput (files : FileTree) (dumpFile : String) (data : List (String × Datum))
    (given : Datum) : Except Fault (Datum × Datum) := do
  let relative ← Fault.lift given.asText
  let path := outputPath dumpFile relative
  let output ← readJson files path
  let contract ← Ast.require (.object data) "contract"
  let (file, name) ← splitContract contract
  match partsOfOutput output file name with
  | .error (.missing key) => throw (.ofInput (.compilerOutputWithout path.text key contract))
  | r => r

/-! ## Dumps -/

/-- The layout and the sources that the data names or holds. -/
def typeData (files : FileTree) (dumpFile : String) (data : List (String × Datum)) :
    Except Fault (Datum × Datum) :=
  match Datum.find? "solc_output" data with
  | some given => readOutput files dumpFile data given
  | none => do
    let layout ← Ast.require (.object data) "storageLayout"
    return (layout, ← Ast.require (.object data) "sources")

/--
Reads the dump file of the options and everything that it names. The files may change with the
records that are left on the way.
-/
def read (files : List Record → FileTree) (o : Options) : Options × Traced Fault Dump :=
  let (o', data) := readFile (files []) o
  (o', do
    let ms ← data
    let (layout, sources) ← typeData (files data.trace) o.dumpFile ms
    let words ← Fault.lift ((Datum.find? "storage" ms).getD .null).table
    let store ← Fault.lift (Store.ofDump words (o'.isOn .hashedKeys))
    Traced.debug Topic.options ("read " ++ Text.decimal words.length ++ " storage words")
    let index ← Ast.Index.ofSources sources
    let state ← StateVariable.ofLayout layout
    let limits ← o'.limits
    return { store, index, state, limits })

end Dump

end StorageSnapshot

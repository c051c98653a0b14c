-- SUMMARY: Runs of the program: from a command line and files to what is printed and written.
import StorageSnapshot.Logging
import StorageSnapshot.Report.Row

/-!
# Runs

A run reads its command line, opens its log, reads the dump, decodes the variables and prints their
rows. The log is closed in any case. What it printed stays when it stops for a fault.
-/

namespace StorageSnapshot

/-- A part of what a run prints. -/
inductive Output where
  | text (s : String)
  /-- A text that is to stand out. -/
  | alert (s : String)

namespace Output

/-- A text in the mark-up of consoles. -/
def markup (s : String) : String := "[bold red]" ++ s

end Output

/-- What a run leaves behind. -/
structure Outcome where
  printed : List Output
  /-- The files after the run. -/
  files : FileTree
  /-- The rows, or why there are none. -/
  result : Except Stop (List Report.Row)

namespace Run

/-! ## The report -/

/-- The rows that the options ask for, those of the dump file included, and their text. -/
def report (files : List Record → FileTree) (o : Options) :
    Traced Fault (List Report.Row × String) := do
  let (o', dump) := Dump.read files o
  let dump ← dump
  Traced.debug Topic.run
    ("read " ++ Text.decimal dump.state.length ++ " state variables from " ++ o.dumpFile)
  let requests ← Fault.lift (Report.requests (o'.texts .mappingKey))
  let rows ← Report.rows dump (o'.texts .variable) requests
  let text ← Report.written rows (o'.isOn .json)
  return (rows, text)

/-! ## The log -/

/-- The log that the options of the command line ask for. It is opened before the dump is read. -/
def logSettings (o : Options) (colours : Bool) : Logging.Settings where
  quiet := o.isOn .quiet
  debug := o.isOn .debug
  debugTopics := o.texts .debugTopics
  showTopics := o.isOn .showDebugTopics
  debugLog := (o.path? .debugLogFile).isSome
  abortReport := (o.path? .abortReport).isSome
  colours := colours

/-- The place of the debug log, if there is to be one. -/
def debugLogPlace (files : FileTree) (o : Options) : Except Fault (Option FilePath) :=
  match o.get .debugLogFile with
  | .path p => some <$> Fault.lift (files.writable (FilePath.ofText p).collapsed)
  | .value .null => .ok none
  | .value d => throw (.data (.notText d))

/-- The files with a text at the end of the debug log. -/
def appendLog (files : FileTree) (log : Option FilePath) (text : String) : FileTree :=
  match log with
  | some place => files.append place text
  | none => files

/-- The record of an abort report that could not be written. -/
def reportLost (e : FileError) : Record :=
  ⟨Topic.root, .warning, "Failed to close <DecodeAbortHandler (NOTSET)>: " ++ e.text⟩

/-- What became of an abort report: the files, and the record that says that it is lost. -/
structure ReportOutcome where
  files : FileTree
  late : List Record := []
  /-- What ends the run although its log is being closed. -/
  fault : Option Fault := none

/-- Writes the abort report, if there is to be one. Where it can't be written the log says so. -/
def writeReport (files : FileTree) (o : Options) (text : String) : ReportOutcome :=
  match o.get .abortReport with
  | .value .null => { files }
  | .value d => { files, fault := some (.data (.notATable d)) }
  | .path p =>
    match files.writable (.ofText p) with
    | .ok place => { files := files.write place text }
    | .error e =>
      if e.isAnswer then { files, late := [reportLost e] } else { files, fault := some (.file e) }

/-- What a run leaves whose log is open; the debug log is seen while the run goes on. -/
def closed (files : FileTree) (o : Options) (log : Option FilePath) (colours : Bool) : Outcome :=
  let settings := logSettings o colours
  let root : Logging.Root := ({} : Logging.Root).install settings
  let logged (records : List Record) : FileTree :=
    appendLog files log (Logging.debugLogText settings root records)
  let body := report logged o
  let reported := writeReport (logged body.trace) o
    (Logging.abortReportText settings root body.trace)
  let table := match body.result with
    | .ok (_, text) => text ++ "\n"
    | .error _ => ""
  { printed := [.text (Logging.consoleText settings root body.trace ++ table ++
      Logging.consoleText settings root reported.late)]
    files := appendLog reported.files log (Logging.debugLogText settings root reported.late)
    result := match reported.fault, body.result with
      | some e, _ => .error (.fault e)
      | none, .ok (rows, _) => .ok rows
      | none, .error e => .error (.fault e) }

/-! ## Runs -/

/-- The run of a command line. -/
def decode (files : FileTree) (args : List String) (colours : Bool) : Outcome :=
  match CommandLine.parse files args with
  | .error stop => ⟨[], files, .error stop⟩
  | .ok o =>
    match debugLogPlace files o with
    | .error e => ⟨[], files, .error (.fault e)⟩
    | .ok log =>
      closed (appendLog files log "") o log colours

/-- What is said about the end of a run, and its exit code. Faults of no known cause have none. -/
def farewell : Except Stop (List Report.Row) → Option (List Output × Nat)
  | .ok _ | .error .help => some ([], 0)
  | .error .usage => some ([], 2)
  | .error (.fault (.input e)) =>
    let cause := e.cause?.toList.map fun c => Output.text ("\n" ++ Text.trimmed c ++ "\n")
    some (cause ++ [.alert ("\n" ++ e.message ++ "\n")], 1)
  | .error (.fault (.layout e)) => some ([.alert ("Internal error: " ++ e.message)], 2)
  | .error (.fault (.unsupported e)) => some ([.alert ("Internal error: " ++ e.message)], 2)
  | .error (.fault _) => none

/-- Everything that a run prints, and its exit code if the fault that ended it has one. -/
def finish (outcome : Outcome) : List Output × Option Nat :=
  match farewell outcome.result with
  | some (said, code) => (outcome.printed ++ said, some code)
  | none => (outcome.printed, none)

end Run

end StorageSnapshot

-- SUMMARY: The program: reads the files that a run may need, prints and writes what the run leaves.
import StorageSnapshot.Run

/-!
# The program

Everything that a run does is decided on a tree of files. The program loads into that tree every
path that its arguments, or the dump file among them, may mean, and carries out what the run left.
-/

namespace StorageSnapshot.Program

/-! ## Loading files -/

/-- The place of devices. -/
def devices : FilePath := .ofText "/dev"

/-- What the file system has at a place. -/
def entryAt (place : FilePath) : IO (Option FileEntry) := do
  if place.within devices then
    return some (if place = devices then .directory else .device)
  try return some (.file (Text.spelled (← IO.FS.readFile (Text.plain place.text))))
  catch
    | .noFileOrDirectory .. | .invalidArgument .. => return none
    | .inappropriateType .. => return some .directory
    | e => throw e

/-- The places that a path leads through. -/
def stations (p : FilePath) : List FilePath :=
  (List.range (p.parts.length + 1)).map fun n => { p with parts := p.parts.take n }.collapsed

/-- A tree together with what the file system has on the way of a path. -/
def load (files : FileTree) (p : FilePath) : IO FileTree :=
  (stations p).foldlM (fun (files : FileTree) place => do
    if (files.at? place).isSome then return files
    match ← entryAt place with
    | some e => return ⟨(place, e) :: files.entries⟩
    | none => return files) files

/-- The paths that words of a command line may mean. -/
def pathsIn (args : List String) : List FilePath :=
  (args ++ args.filterMap fun a => (CommandLine.splitEquals a.toList).2.map String.ofList).map
    FilePath.ofText

/-- The path of the compiler's output that the dump file names, if it names one. -/
def outputPath? (files : FileTree) (args : List String) : Option FilePath :=
  match CommandLine.parse files args with
  | .error _ => none
  | .ok o =>
    match Dump.readMembers files o.dumpFile with
    | .error _ => none
    | .ok ms =>
      match Datum.find? "solc_output" ms with
      | some (.text relative) => some (Dump.outputPath o.dumpFile relative)
      | _ => none

/-! ## Printing -/

def usage : String :=
  "usage: storage-snapshot [-h] " ++
    " ".intercalate (OptionName.all.map fun n => "[--" ++ n.text ++ "]") ++ " dump_file"

def print (colours : Bool) : Output → IO Unit
  | .text s => IO.print (Text.plain s)
  | .alert s =>
    let s := Text.plain s
    IO.println (if colours then "\x1b[1;31m" ++ s ++ "\x1b[0m" else s)

/-- Says why a run stopped, where the run itself has nothing to say about it. -/
def complain : Stop → IO Unit
  | .help => IO.println usage
  | .usage => IO.eprintln usage
  | .fault (.input _) | .fault (.layout _) | .fault (.unsupported _) => return
  | .fault f => IO.eprintln (Text.plain f.message)

end StorageSnapshot.Program

open StorageSnapshot Program in
def main (words : List String) : IO UInt32 := do
  let args := words.map Text.spelled
  let named ← (pathsIn args).foldlM load ⟨[]⟩
  let files ← (outputPath? named args).toList.foldlM load named
  let colours ← (← IO.getStdout).isTty
  let outcome := Run.decode files args colours
  let (printed, code) := Run.finish outcome
  for (place, text) in outcome.files.changedSince files do
    IO.FS.writeFile (Text.plain place.text) (Text.plain text)
  printed.forM (print colours)
  match outcome.result with
  | .error stop => complain stop
  | .ok _ => return 0
  return UInt32.ofNat (code.getD 1)

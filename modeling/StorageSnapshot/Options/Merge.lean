-- SUMMARY: Merging the options of a dump file into those of the command line.
import StorageSnapshot.Check
import StorageSnapshot.Limits
import StorageSnapshot.Options.Reserved
import StorageSnapshot.Trace

/-!
# Merging options

The command line comes first: a dump file sets the options that it leaves unset. Where both set one,
a warning says that the dump file's value is passed over.
-/

namespace StorageSnapshot.Options

/-! ## Merging -/

/-- What a value of the dump file means as the value of an option. -/
def checked (name : OptionName) (given : Datum) : Except InputError Datum :=
  match name with
  | .hashedKeys | .json | .quiet | .debug | .showDebugTopics => .bool <$> Check.truth given
  | .variable | .mappingKey | .debugTopics =>
    (fun ss => .list (ss.map .text)) <$> Check.texts given
  | .maxLength => (fun (n : Nat) => .int n) <$> Check.nonNegative given
  | .maxDepth => (fun (n : Nat) => .int n) <$> Check.positive given
  | .debugLogFile | .abortReport => .ok given

/-- An input error of a value says which option it was given for. -/
def inOption (name : OptionName) : Fault → Fault
  | .input e => .input (.badOption name.text e)
  | fault => fault

/-- The options as they are. It is told if the dump file has another value for a name than they. -/
def keep (o : Options) (name : String) (isSame : Bool) (mine : Except DataError String)
    (given : Datum) : Traced Fault Options := do
  if not isSame then
    let mine ← Fault.lift mine
    let theirs ← Fault.lift (Setting.listing given)
    Traced.warning Topic.options ("Note: attribute " ++ name ++ " value in CLI (" ++ mine ++
      ") overrides value stored in conf file (" ++ theirs ++ ")")
  return o

/-- The options with a value of the dump file taken in, unless the command line has one. -/
def absorb (o : Options) (name : OptionName) (given : Datum) : Traced Fault Options := do
  let value ← (Fault.lift (checked name given)).mapError (inOption name)
  let current := o.get name
  if current.isUnset then return o.set name (.value value)
  else o.keep name.text (current.equals value) current.text value

/-- The options after the dump file has given a reserved name a value. -/
def absorbReserved (o : Options) (name : String) (meaning : Reserved) (given : Datum) :
    Traced Fault Options :=
  let keep := o.keep name ((meaning.value? o).any (·.same given)) (meaning.text o) given
  match meaning with
  | .observers => .fail (.data (.notSettable name))
  | .mark => if o.mark.isSome then keep else pure { o with mark := some given }
  | _ => keep

/-- The step that takes in a member of the dump file, if its name is known. -/
def absorbMember? (o : Options) (name : String) (given : Datum) :
    Option (Traced Fault Options) :=
  match OptionName.ofText? name with
  | some n => some (o.absorb n given)
  | none => (o.absorbReserved name · given) <$> Reserved.ofText? name

/-- The members of a dump file that are data. -/
def dataNames : List String := ["storage", "sources", "storageLayout", "solc_output", "contract"]

/--
Takes in the members of a dump file one after another. Yields the data among them, and the options,
which keep what was taken in before a member is refused.
-/
def absorbAll (o : Options) :
    List (String × Datum) → Options × Traced Fault (List (String × Datum))
  | [] => (o, pure [])
  | (name, given) :: rest =>
    if dataNames.contains name then
      let (o', data) := o.absorbAll rest
      (o', ((name, given) :: ·) <$> data)
    else
      match o.absorbMember? name given with
      | none => (o, .fail (.input (.unknownOption name)))
      | some step =>
        match step.result with
        | .error e => (o, ⟨step.trace, .error e⟩)
        | .ok o' =>
          let (o'', data) := o'.absorbAll rest
          (o'', ⟨step.trace ++ data.trace, data.result⟩)

/-- The data must hold words, and exactly one of the two sources of types. -/
def checkData (data : List (String × Datum)) : Except InputError Unit :=
  let given (name : String) : Bool := (Datum.find? name data).isSome
  match Datum.find? "storage" data with
  | none => .error .noStorage
  | some (.object _) =>
    if (given "sources" && given "storageLayout") = (given "solc_output" && given "contract") then
      .error .ambiguousSource
    else .ok ()
  | some _ => .error .storageNotAnObject

/-- Merges a dump file into the options, and yields its data. -/
def merge (o : Options) (conf : List (String × Datum)) :
    Options × Traced Fault (List (String × Datum)) :=
  let (o', data) := o.absorbAll conf
  (o', do
    let ms ← data
    Fault.lift (checkData ms)
    return ms)

/-! ## Limits -/

/-- The number of a limit, if the option is set. -/
def limit? (o : Options) (name : OptionName) (check : Datum → Except InputError Nat) :
    Except InputError (Option Nat) :=
  match o.get name with
  | .value .null => .ok none
  | .value d => some <$> check d
  | .path p => some <$> check (.text p)

/-- The limits that the options ask for. -/
def limits (o : Options) : Traced Fault Limits := do
  let length ← Fault.lift (o.limit? .maxLength Check.nonNegative)
  let depth ← Fault.lift (o.limit? .maxDepth Check.positive)
  let defaults : Limits := {}
  let limits ← Limits.make (.int (length.getD defaults.maxLength))
    (.int (depth.getD defaults.maxDepth))
  let text ← Fault.lift limits.text
  Traced.debug Topic.options ("decoder configuration: " ++ text)
  return limits

end StorageSnapshot.Options

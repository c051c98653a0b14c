-- SUMMARY: Names that every set of options has already, so that a dump file gives no value.
import StorageSnapshot.Options.Basic

/-!
# Reserved names

A dump file may use these names, since they are not unknown. But they have a value already, and a
dump file that gives another one is only told so. What cannot stand in a dump file is shown by a
text and differs from everything.
-/

namespace StorageSnapshot

inductive Reserved where
  /-- What the options are. -/
  | kind
  /-- All options at once. -/
  | table
  /-- Where options are declared. -/
  | home
  /-- What options are for. -/
  | purpose
  /-- The hash of the options. They have none until a dump file gives one. -/
  | mark
  /-- The list of those who look at the options. It is empty and stays so. -/
  | observers
  /-- An operation on options that belongs to `owner`. -/
  | method (owner name : String)
  /-- An operation on all values. -/
  | wrapper (name : String)
  /-- An operation on all values of a kind, or on all kinds. -/
  | builtin (name owner : String)

namespace Reserved

def ofText? (s : String) : Option Reserved :=
  match s with
  | "__class__" => some .kind
  | "__dict__" => some .table
  | "__module__" => some .home
  | "__doc__" => some .purpose
  | "__hash__" => some .mark
  | "__weakref__" => some .observers
  | "__init__" | "__eq__" | "__contains__" => some (.method "Namespace" s)
  | "__repr__" | "_get_kwargs" | "_get_args" => some (.method "_AttributeHolder" s)
  | "__delattr__" | "__ge__" | "__getattribute__" | "__gt__" | "__le__" | "__lt__" | "__ne__"
  | "__setattr__" | "__str__" => some (.wrapper s)
  | "__dir__" | "__format__" | "__getstate__" | "__reduce__" | "__reduce_ex__" | "__sizeof__" =>
    some (.builtin s "Namespace")
  | "__init_subclass__" | "__new__" | "__subclasshook__" => some (.builtin s "type")
  | _ => none

def homeText : String := "argparse"

def purposeText : String :=
  "Simple object for storing attributes.\n\n" ++
    "    Implements equality by attribute names and values, and provides a simple\n" ++
    "    string representation.\n    "

/-- What all options are shown as, if all of them can be shown. -/
def listed (o : Options) (shown : String × Setting → String) : Except DataError String := do
  o.entries.forM fun e => e.2.checkText
  return ", ".intercalate (o.entries.map shown)

/-- The options as a call that makes them. -/
def callText (o : Options) : Except DataError String := do
  return "Namespace(" ++ (← listed o fun e => e.1 ++ "=" ++ e.2.quoted) ++ ")"

def tableText (o : Options) : Except DataError String := do
  return "\x7b" ++ (← listed o fun e => Text.quoted e.1 ++ ": " ++ e.2.quoted) ++ "\x7d"

/-- The value of a name, if a dump file can hold one that is equal to it. -/
def value? (o : Options) : Reserved → Option Datum
  | .home => some homeText
  | .purpose => some purposeText
  | .mark => o.mark
  | .table => do return .object (← o.entries.mapM fun e => do return (e.1, ← e.2.value?))
  | _ => none

/-- The text that stands for a name. A place in memory, which no run tells, is left zero. -/
def text (o : Options) : Reserved → Except DataError String
  | .kind => .ok "<class 'argparse.Namespace'>"
  | .table => tableText o
  | .home => .ok homeText
  | .purpose => .ok purposeText
  | .mark => do
    let mark := o.mark.getD .null
    mark.checkText
    return mark.display
  | .observers => .ok Datum.null.display
  | .method owner name => do
    return "<bound method " ++ owner ++ "." ++ name ++ " of " ++ (← callText o) ++ ">"
  | .wrapper name => .ok ("<method-wrapper '" ++ name ++ "' of Namespace object at 0x0>")
  | .builtin name owner =>
    .ok ("<built-in method " ++ name ++ " of " ++ owner ++ " object at 0x0>")

end Reserved

end StorageSnapshot

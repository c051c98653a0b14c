-- SUMMARY: Rows of the report: decoding the variables of a dump, and writing them down.
import StorageSnapshot.Decode.MappingPath
import StorageSnapshot.Dump
import StorageSnapshot.Json.Printer
import StorageSnapshot.Report.Request
import StorageSnapshot.Report.Table
import StorageSnapshot.Value.Text

/-!
# Rows

Every variable has a row with its declared type and its value. A mapping has a row for each key that
was asked for. A variable whose type or value is not known has a row that says so.
-/

namespace StorageSnapshot.Report

structure Row where
  label : Datum
  declared : StateVariable
  /-- The declared type, unless it could not be resolved. -/
  type : Option DeclaredType
  /-- The value, unless it was given up or not asked for. -/
  value : Option Value

namespace Row

def isMapping : Ty → Bool
  | .mapping .. => true
  | _ => false

/-- What the type of the row is called. -/
def typeText (r : Row) : Except DataError Datum :=
  match r.type with
  | some t => do
    t.type.checkCalled
    return t.type.called
  | none => .ok r.declared.typeKey

def valueText (r : Row) : Except DataError String :=
  match r.value, r.type with
  | some v, _ => v.shown
  | none, some t => .ok (if isMapping t.type then "<mapping>" else "<not decodable>")
  | none, none => .ok "<not decodable>"

def cells (r : Row) : Except DataError (List Datum) := do
  return [r.label, ← r.typeText, .text r.declared.slot.text, .int r.declared.offset,
    .text (← r.valueText)]

def describe (r : Row) : Except Fault Datum := do
  let called ← Fault.lift r.typeText
  let info ← match r.type with
    | some t => t.type.describe t.placements
    | none => pure .null
  let value ← match r.value with
    | some v => Fault.lift v.describe
    | none => pure .null
  return .object [("variable", r.label), ("contract", r.declared.contract),
    ("type", called), ("typeInfo", info), ("slot", .text r.declared.slot.text),
    ("offset", .int r.declared.offset), ("value", value)]

end Row

/-! ## Decoding -/

/-- The value of a decoding, none if it was given up. -/
def valueOrNone (x : Decoding (Decoded Value)) : Traced Fault (Option Value) :=
  match x.result with
  | .ok (v, _) => ⟨x.trace, .ok (some v)⟩
  | .error .abort => ⟨x.trace, .ok none⟩
  | .error (.fault f) => ⟨x.trace, .error f⟩

/-- The label of an entry: that of the mapping, and each key between brackets. -/
def entryLabel (label : Datum) (path : List String) : Except Fault Datum :=
  match label with
  | .text s => .ok (.text (s ++ String.join (path.map fun k => "[" ++ k ++ "]")))
  | d => .error (.data (.notText d))

def entryRow (ctx : Context) (v : StateVariable) (type : Ty) (keys : String) :
    Traced Fault Row := do
  let path := keyPath type.keyTypes.length keys
  let value ← valueOrNone (Decode.boundedMappingPath ctx type v.place (path.map .text))
  let label ← entryLabel v.label path
  return { label, declared := v, type := some { type := type.valueType }, value }

/-- The rows of a variable, for which these keys were asked for. -/
def rowsOf (dump : Dump) (v : StateVariable) (keys : List String) : Traced Fault (List Row) := do
  let declared := v.declaredType dump.index
  match declared.result with
  | .error (.unresolved e) =>
    declared.replay
    Fault.lift v.label.checkText
    Traced.warning Topic.resolution
      ("Could not resolve the type of " ++ v.label.display ++ ": " ++ e.message)
    return [{ label := v.label, declared := v, type := none, value := none }]
  | _ =>
    let t ← declared
    let ctx : Context :=
      { store := dump.store, resolver := dump.index.resolver, limits := dump.limits }
    if Row.isMapping t.type then
      match keys with
      | [] => return [{ label := v.label, declared := v, type := some t, value := none }]
      | _ => keys.mapM (entryRow ctx v t.type)
    else
      if not keys.isEmpty then do
        Fault.lift v.label.checkText
        Traced.fail (.input (.keysForOtherType v.label.display))
      else
        let value ← valueOrNone (Decode.boundedValue ctx 0 t.type v.place)
        return [{ label := v.label, declared := v, type := some t, value }]

def labelled (v : StateVariable) (name : String) : Bool := v.label.same (.text name)

/-- The names that no variable has. -/
def unknownNames (state : List StateVariable) (names : List String) : List String :=
  names.filter fun name => not (state.any fun v => labelled v name)

def keysFor (requests : List (String × List String)) (v : StateVariable) : List String :=
  match requests.find? fun r => labelled v r.1 with
  | some r => r.2
  | none => []

/-- The rows of the named variables, of all of them if no names are given. -/
def rows (dump : Dump) (names : List String) (requests : List (String × List String)) :
    Traced Fault (List Row) := do
  match dump.state.find? fun v => not v.label.isKey with
  | some v => Traced.fail (.data (.notATableKey v.label))
  | none =>
    match unknownNames dump.state (names ++ requests.map (·.1)) with
    | [] =>
      let chosen := dump.state.filter fun v => names.isEmpty || names.any (labelled v)
      let parts ← chosen.mapM fun v => do
        Fault.lift v.label.checkText
        Traced.debug Topic.run ("decoding " ++ v.label.display ++ " at " ++ v.place.text)
        rowsOf dump v (keysFor requests v)
      return parts.flatten
    | unknown => Traced.fail (.input (.unknownVariables unknown))

/-! ## Writing -/

def headers : List String := ["Variable", "Type", "Slot", "Offset", "Value"]

/-- The rows as a table, or as JSON. -/
def written (rs : List Row) (json : Bool) : Except Fault String :=
  if json then do
    let described ← rs.mapM Row.describe
    Fault.lift (Datum.list described).checkText
    return Json.indented (.list described)
  else Fault.lift do
    let cells ← rs.mapM Row.cells
    (Datum.list cells.flatten).checkText
    table headers cells

end StorageSnapshot.Report

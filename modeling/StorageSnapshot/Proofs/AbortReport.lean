-- SUMMARY: The report of values that are given up: its entries are the rows without a value.
import Mathlib
import StorageSnapshot.Proofs.Files
import StorageSnapshot.Proofs.Rows
import StorageSnapshot.Run

/-!
# The report of what was given up

Reading a dump gives nothing up, and neither do the steps of a run that decode nothing. So what the
report of a run lists are the rows that say that a value is not decodable, in their order.
-/

namespace StorageSnapshot

open Traced (Silent)

/-! ## The log -/

namespace Logging

/-- An entry of the report: a topic and a message. -/
def entryText (entry : String × String) : String :=
  "\x7b\n            \"topic\": " ++ Json.string entry.1 ++ ",\n            \"message\": " ++
    Json.string entry.2 ++ "\n        \x7d"

/-- A report of these entries, one below the other. -/
def reportText : List (String × String) → String
  | [] => "\x7b\n    \"aborts\": []\n\x7d"
  | entry :: entries =>
    "\x7b\n    \"aborts\": [\n        " ++
      ",\n        ".intercalate ((entry :: entries).map entryText) ++ "\n    ]\n\x7d"

theorem indentedAt_entry (entry : String × String) :
    Json.indentedAt 2 (.object [("topic", .text entry.1), ("message", .text entry.2)]) =
      entryText entry := by
  have hopen (s : String) : "\x7b" ++ (Json.newline 3 ++ (Json.string "topic" ++ (": " ++ s))) =
      "\x7b\n            \"topic\": " ++ s := by
    simp only [← String.append_assoc]
    exact congrArg (· ++ s) (by decide +kernel)
  have hnext (s : String) : "," ++ (Json.newline 3 ++ (Json.string "message" ++ (": " ++ s))) =
      ",\n            \"message\": " ++ s := by
    simp only [← String.append_assoc]
    exact congrArg (· ++ s) (by decide +kernel)
  have hclose : Json.newline 2 ++ "\x7d" = "\n        \x7d" := by decide +kernel
  simp only [Json.indentedAt, Json.indentedMembers, Json.scalar, Json.block, List.isEmpty_cons,
    Bool.false_eq_true, if_false, String.intercalate_cons_cons, String.intercalate_singleton,
    Nat.reduceAdd, String.append_assoc, hopen, hnext, hclose]
  unfold entryText
  simp only [String.append_assoc]

theorem indentedItems_map (entries : List (String × String)) :
    Json.indentedItems 2 (entries.map fun a =>
        .object [("topic", .text a.1), ("message", .text a.2)]) = entries.map entryText := by
  induction entries with
  | nil => rfl
  | cons entry entries ih =>
    rw [List.map_cons, Json.indentedItems, ih, indentedAt_entry, List.map_cons]

/-- The report lists what was given up, entry by entry. -/
theorem abortReportText_eq (s : Settings) (root : Root) (records : List Record) :
    abortReportText s root records = reportText (aborts s root records) := by
  have hopen (s : String) : "\x7b" ++ (Json.newline 1 ++ (Json.string "aborts" ++ (": " ++ s))) =
      "\x7b\n    \"aborts\": " ++ s := by
    simp only [← String.append_assoc]
    exact congrArg (· ++ s) (by decide +kernel)
  have hsep : "," ++ Json.newline 2 = ",\n        " := by decide +kernel
  have hclose : Json.newline 1 ++ ("]" ++ (Json.newline 0 ++ "\x7d")) = "\n    ]\n\x7d" := by
    decide +kernel
  have hlist (s : String) : "\x7b\n    \"aborts\": " ++ ("[" ++ (Json.newline 2 ++ s)) =
      "\x7b\n    \"aborts\": [\n        " ++ s := by
    simp only [← String.append_assoc]
    exact congrArg (· ++ s) (by decide +kernel)
  rw [abortReportText]
  simp only [Json.indented, Json.indentedAt, Json.indentedMembers, Json.block, List.isEmpty_cons,
    Bool.false_eq_true, if_false, String.intercalate_singleton, Nat.reduceAdd, indentedItems_map]
  cases aborts s root records with
  | nil => decide +kernel
  | cons entry entries =>
    simp only [List.map_cons, List.isEmpty_cons, Bool.false_eq_true, if_false, String.append_assoc,
      hopen, hsep, hclose, hlist]
    unfold reportText
    simp only [String.append_assoc, List.map_cons]

/-- The report of what is given up takes the records that say so. -/
theorem aborts_install {s : Settings} (hs : s.abortReport = true) (root : Root)
    (records : List Record) :
    aborts s (root.install s) records =
      (records.filter Record.isAbort).map fun r => (r.topic, Text.firstLine r.message) := by
  have hsink : (root.install s).sinks.contains .abortReport = true := by
    simp [Root.install, sinks, hs]
  rw [aborts, Root.received, if_pos hsink]
  rfl

end Logging

/-! ## Runs -/

namespace Run

/-- The log of a run. -/
def openLog (o : Options) (colours : Bool) : Logging.Root :=
  ({} : Logging.Root).install (logSettings o colours)

/-- The files after records that a run has left while its log is open. -/
def logged (files : FileTree) (o : Options) (log : Option FilePath) (colours : Bool)
    (records : List Record) : FileTree :=
  appendLog files log (Logging.debugLogText (logSettings o colours) (openLog o colours) records)

/-- What a run does while its log is open. -/
def body (files : FileTree) (o : Options) (log : Option FilePath) (colours : Bool) :
    Traced Fault (List Report.Row × String) :=
  report (logged files o log colours) o

variable {files : FileTree} {o : Options} {log : Option FilePath} {colours : Bool}
  {rows : List Report.Row}

theorem matched_report {seen : List Record → FileTree} {text : String}
    (h : (report seen o).result = .ok (rows, text)) :
    ∃ dump, (Dump.read seen o).2.result = .ok dump ∧
      Report.Matched dump rows (report seen o).aborts := by
  unfold report at h ⊢
  dsimp only at h ⊢
  obtain ⟨dump, hdump, h, hread⟩ := (Dump.silent_read seen o).ok_of_bind h
  obtain ⟨-, -, h, hdebug⟩ := (Silent.debug _ _).ok_of_bind h
  obtain ⟨requests, -, h, hrequests⟩ := (Silent.lift _).ok_of_bind h
  obtain ⟨rs, hrs, h, haborts⟩ := Traced.ok_of_bind h
  obtain ⟨written, -, hmade, hwritten⟩ := Traced.ok_of_bind_pure h
  cases hmade
  refine ⟨dump, hdump, ?_⟩
  rw [hread, hdebug, hrequests, haborts, hwritten, Silent.lift, List.append_nil]
  exact Report.matched_rows _ _ hrs

/-- What becomes of the report of what was given up when the log of a run is closed. -/
def reported (files : FileTree) (o : Options) (log : Option FilePath) (colours : Bool) :
    ReportOutcome :=
  writeReport (logged files o log colours (body files o log colours).trace) o
    (Logging.abortReportText (logSettings o colours) (openLog o colours)
      (body files o log colours).trace)

theorem files_closed (files : FileTree) (o : Options) (log : Option FilePath) (colours : Bool) :
    (closed files o log colours).files = appendLog (reported files o log colours).files log
      (Logging.debugLogText (logSettings o colours) (openLog o colours)
        (reported files o log colours).late) := by
  rw [closed]
  rfl

/-- What a run prints of its rows. -/
def tableText (result : Except Fault (List Report.Row × String)) : String :=
  match result with
  | .ok (_, text) => text ++ "\n"
  | .error _ => ""

theorem printed_closed (files : FileTree) (o : Options) (log : Option FilePath) (colours : Bool) :
    (closed files o log colours).printed =
      [.text (Logging.consoleText (logSettings o colours) (openLog o colours)
          (body files o log colours).trace ++ tableText (body files o log colours).result ++
        Logging.consoleText (logSettings o colours) (openLog o colours)
          (reported files o log colours).late)] := by
  rw [closed]
  rfl

/-- What a run comes to that has done its work and closed its log. -/
def conclusion (fault : Option Fault) (result : Except Fault (List Report.Row × String)) :
    Except Stop (List Report.Row) :=
  match fault, result with
  | some e, _ => .error (.fault e)
  | none, .ok (rows, _) => .ok rows
  | none, .error e => .error (.fault e)

theorem result_closed (files : FileTree) (o : Options) (log : Option FilePath) (colours : Bool) :
    (closed files o log colours).result =
      conclusion (reported files o log colours).fault (body files o log colours).result := by
  rw [closed]
  rfl

/-- The rows of a run are those of its body, unless its log can't be closed. -/
theorem result_closed_iff : (closed files o log colours).result = .ok rows ↔
    (reported files o log colours).fault = none ∧
      ∃ text, (body files o log colours).result = .ok (rows, text) := by
  rw [result_closed]
  cases hfault : (reported files o log colours).fault with
  | some e => simp [conclusion]
  | none =>
    cases hbody : (body files o log colours).result with
    | error e => simp [conclusion]
    | ok made =>
      obtain ⟨made, text⟩ := made
      simp [conclusion]

theorem debugLogText_nil (s : Logging.Settings) (root : Logging.Root) :
    Logging.debugLogText s root [] = "" := by
  have hnone : root.received s .debugLog [] = [] := by
    unfold Logging.Root.received
    split
    · exact List.filter_nil
    · rfl
  rw [Logging.debugLogText, hnone, List.map_nil, List.filter_nil]
  exact String.join_nil

/-- The report stands at its place when the run is over. -/
theorem at?_files_closed {p : String} {place : FilePath} (hp : o.get .abortReport = .path p)
    (hplace : (logged files o log colours (body files o log colours).trace).writable (.ofText p) =
      .ok place)
    (hdevice : (logged files o log colours (body files o log colours).trace).at? place ≠
      some .device) :
    (closed files o log colours).files.at? place =
      some (.file (Logging.reportText (Logging.aborts (logSettings o colours) (openLog o colours)
        (body files o log colours).trace))) := by
  rw [← Logging.abortReportText_eq]
  have hwritten := FileTree.at?_write (FileTree.isAround_of_writable hplace) hdevice
    (Logging.abortReportText (logSettings o colours) (openLog o colours)
      (body files o log colours).trace)
  rw [files_closed, reported, writeReport, hp]
  simp only [hplace]
  rw [debugLogText_nil]
  cases log with
  | none => exact hwritten
  | some other => exact FileTree.at?_append_nothing other hwritten

/-! ## What a report lists -/

/-- Whether an entry of the report is about a row: its topic and the first line of the reason why
the row has no value. -/
def Listed (dump : Dump) (row : Report.Row) (entry : String × String) : Prop :=
  ∃ record, Report.GivenUp dump row record ∧
    entry = (record.topic, Text.firstLine record.message)

/-- What the report of a run lists are its rows without a value. -/
theorem listed_aborts (h : (closed files o log colours).result = .ok rows)
    (hreport : (o.path? .abortReport).isSome = true) :
    ∃ dump, (Dump.read (logged files o log colours) o).2.result = .ok dump ∧
      List.Forall₂ (Listed dump) (rows.filter Report.Row.isNotDecodable)
        (Logging.aborts (logSettings o colours) (openLog o colours)
          (body files o log colours).trace) := by
  obtain ⟨text, hbody⟩ := (result_closed_iff.1 h).2
  obtain ⟨dump, hdump, hmatched⟩ := matched_report hbody
  refine ⟨dump, hdump, ?_⟩
  have hsettings : (logSettings o colours).abortReport = true := hreport
  rw [openLog, Logging.aborts_install hsettings, List.forall₂_map_right_iff]
  refine hmatched.imp fun row record hgiven => ?_
  exact ⟨record, hgiven, rfl⟩

/-- A command line has rows if its options do when its log is open. -/
theorem decode_eq_closed {args : List String}
    (h : (decode files args colours).result = .ok rows) :
    ∃ o log, CommandLine.parse files args = .ok o ∧ debugLogPlace files o = .ok log ∧
      decode files args colours = closed (appendLog files log "") o log colours := by
  unfold decode at h ⊢
  cases hparse : CommandLine.parse files args with
  | error stop =>
    rw [hparse] at h
    cases h
  | ok o =>
    cases hlog : debugLogPlace files o with
    | error e =>
      rw [hparse] at h
      simp only [hlog] at h
      cases h
    | ok log => exact ⟨o, log, rfl, hlog, by simp only [hlog]⟩

/--
Whatever is given up is reported once. Decoding a value, or a value that a mapping holds for keys,
leaves one warning if it is given up and otherwise none. So what the report of a run lists are, one
by one and in their order, the rows that say that a value is not decodable. The text of the report
is what stands at its place when the log is closed, entry by entry, and every command line that has
rows closes its log.
-/
theorem each_abort_listed_once :
    (∀ (ctx : Context) (depth : Int) (t : Ty) (c : Cursor),
      Decode.Reports (Decode.value ctx depth t c)) ∧
    (∀ (ctx : Context) (t : Ty) (c : Cursor) (keys : List Datum),
      Decode.Reports (Decode.mappingPath ctx t c keys)) ∧
    (∀ (files : FileTree) (o : Options) (log : Option FilePath) (colours : Bool)
        (rows : List Report.Row), (closed files o log colours).result = .ok rows →
      (o.path? .abortReport).isSome = true →
      ∃ dump, (Dump.read (logged files o log colours) o).2.result = .ok dump ∧
        List.Forall₂ (Listed dump) (rows.filter Report.Row.isNotDecodable)
          (Logging.aborts (logSettings o colours) (openLog o colours)
            (body files o log colours).trace)) ∧
    (∀ (files : FileTree) (o : Options) (log : Option FilePath) (colours : Bool) (p : String)
        (place : FilePath), o.get .abortReport = .path p →
      (logged files o log colours (body files o log colours).trace).writable (.ofText p) =
        .ok place →
      (logged files o log colours (body files o log colours).trace).at? place ≠ some .device →
      (closed files o log colours).files.at? place =
        some (.file (Logging.reportText (Logging.aborts (logSettings o colours) (openLog o colours)
          (body files o log colours).trace)))) ∧
    ∀ (files : FileTree) (args : List String) (colours : Bool) (rows : List Report.Row),
      (decode files args colours).result = .ok rows →
      ∃ o log, CommandLine.parse files args = .ok o ∧ debugLogPlace files o = .ok log ∧
        decode files args colours = closed (appendLog files log "") o log colours := by
  refine ⟨Decode.reports_value, Decode.reports_mappingPath, ?_, ?_, ?_⟩
  · intro files o log colours rows hrows hreport
    exact listed_aborts hrows hreport
  · intro files o log colours p place hp hplace hdevice
    exact at?_files_closed hp hplace hdevice
  · intro files args colours rows hrows
    exact decode_eq_closed hrows

/-! ## A variable of no known type -/

namespace Lost

/-- The one variable of the layout has no node in an AST. -/
def dumpText : String :=
  "\x7bstorage:\x7b\x7d,sources:\x7b\x7d,storageLayout:\x7bstorage:[\x7blabel:'b',type:'t'," ++
    "slot:1,offset:0\x7d],types:0\x7d\x7d"

def tree : FileTree := ⟨[(⟨false, ["d"], false⟩, .file dumpText)]⟩

def options : Options :=
  { (Options.unset "").set .abortReport (.path "r") with dumpFile := "d" }

/-- Paths are split at slashes, which is nothing that can be evaluated in place. -/
theorem ofText_dump : FilePath.ofText "d" = ⟨false, ["d"], false⟩ := by cbv

theorem ofText_report : FilePath.ofText "r" = ⟨false, ["r"], false⟩ := by cbv

theorem body_ok : (body tree options none false).result.isOk = true ∧
    Logging.aborts (logSettings options false) (openLog options false)
      (body tree options none false).trace =
        [("type_resolution",
          "Could not resolve the type of b: storage layout entry of b has no astId")] := by
  have hdump : options.dumpFile = "d" := rfl
  unfold body report Dump.read Dump.readFile Dump.readMembers
  rw [hdump, ofText_dump]
  decide +kernel

theorem ofText_place : (logged tree options none false
    (body tree options none false).trace).writable (.ofText "r") = .ok ⟨false, ["r"], false⟩ := by
  rw [ofText_report]
  change tree.writable _ = _
  rfl

theorem no_device : (logged tree options none false (body tree options none false).trace).at?
    ⟨false, ["r"], false⟩ ≠ some .device := by
  have hnone : tree.at? ⟨false, ["r"], false⟩ = none := rfl
  change tree.at? _ ≠ _
  rw [hnone]
  rintro ⟨⟩

theorem reported_ok : (reported tree options none false).fault = none := by
  have hget : options.get .abortReport = .path "r" := rfl
  rw [reported, writeReport, hget]
  simp only [ofText_place]

end Lost

/-- The report of a run whose one variable has no known type lists it. -/
theorem each_abort_listed_once_lost :
    ∃ rows, (closed Lost.tree Lost.options none false).result = .ok rows ∧
      (∃ dump, (Dump.read (logged Lost.tree Lost.options none false) Lost.options).2.result =
          .ok dump ∧
        List.Forall₂ (Listed dump) (rows.filter Report.Row.isNotDecodable)
          [("type_resolution",
            "Could not resolve the type of b: storage layout entry of b has no astId")]) ∧
      (closed Lost.tree Lost.options none false).files.at? ⟨false, ["r"], false⟩ = some (.file
        ("\x7b\n    \"aborts\": [\n        \x7b\n            \"topic\": \"type_resolution\",\n" ++
          "            \"message\": \"Could not resolve the type of b: storage layout entry of " ++
          "b has no astId\"\n        \x7d\n    ]\n\x7d")) := by
  obtain ⟨hisOk, haborts⟩ := Lost.body_ok
  obtain ⟨rows, text, hbody⟩ : ∃ rows text,
      (body Lost.tree Lost.options none false).result = .ok (rows, text) := by
    cases hresult : (body Lost.tree Lost.options none false).result with
    | ok made => exact ⟨made.1, made.2, rfl⟩
    | error f =>
      rw [hresult] at hisOk
      cases hisOk
  have hrows : (closed Lost.tree Lost.options none false).result = .ok rows :=
    result_closed_iff.2 ⟨Lost.reported_ok, text, hbody⟩
  obtain ⟨dump, hdump, hlisted⟩ := each_abort_listed_once.2.2.1 _ _ _ _ rows hrows rfl
  have hfile := each_abort_listed_once.2.2.2.1 _ _ _ _ "r" _ rfl Lost.ofText_place Lost.no_device
  rw [haborts] at hlisted hfile
  refine ⟨rows, hrows, ⟨dump, hdump, hlisted⟩, hfile.trans ?_⟩
  exact congrArg (fun text => some (FileEntry.file text)) (by decide +kernel)

end Run

end StorageSnapshot

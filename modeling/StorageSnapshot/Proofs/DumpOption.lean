-- SUMMARY: Options in dump files: which mean what they mean on the command line, and which nothing.
import StorageSnapshot.Proofs.AbortReport
import StorageSnapshot.Proofs.ExpectedDump
import StorageSnapshot.Proofs.MergedOption
import StorageSnapshot.Proofs.OneFile

/-!
# Options in dump files

A run opens its log before it reads the dump file, so that an option of the log that stands in the
dump file comes too late. All other options mean the same in the dump file as on the command line:
the run prints the same, leaves the same files and comes to the same end.
-/

namespace StorageSnapshot

open FileTree (SameBut)

/-! ## Command lines -/

section

variable {t t' : FileTree} {place : FilePath}

theorem FileTree.find?_of_place {p : FilePath} (h : t.place p = .ok place) :
    t.find? p = .ok (t.at? place) := by
  unfold find?
  rw [h]

/-- A file that is to be the dump file is taken for one in both trees, or refused in both. -/
theorem CommandLine.checkDumpFile_eq {s s' : String} {d d' : Datum} (h : SameBut place t t')
    (hfile : t.at? place = some (.file s)) (hfile' : t'.at? place = some (.file s'))
    (hdump : Json.Five.parse (Text.withLineFeeds s) = .ok d)
    (hdump' : Json.Five.parse (Text.withLineFeeds s') = .ok d') (path : String) :
    checkDumpFile t path = checkDumpFile t' path := by
  by_cases hplace : t.place (.ofText path) = .ok place
  · have hread : t.readText (.ofText path) = .ok (Text.withLineFeeds s) :=
      FileTree.readText_of_file (by rw [FileTree.find?_of_place hplace, hfile])
    have hread' : t'.readText (.ofText path) = .ok (Text.withLineFeeds s') :=
      FileTree.readText_of_file
        (by rw [FileTree.find?_of_place (h.place_eq _ ▸ hplace), hfile'])
    rw [checkDumpFile_of_parse hread hdump, checkDumpFile_of_parse hread' hdump']
  · unfold checkDumpFile
    rw [h.readText_eq hplace]

end

/-! ## Reading -/

namespace Options

variable {o o' : Options}

theorem SameBesideLog.isOn_eq (h : SameBesideLog o o') (name : OptionName)
    (hname : name.isLogging = false) : o.isOn name = o'.isOn name := by
  unfold isOn
  rw [h name hname]

theorem SameBesideLog.texts_eq (h : SameBesideLog o o') (name : OptionName)
    (hname : name.isLogging = false) : o.texts name = o'.texts name := by
  unfold texts
  rw [h name hname]

theorem SameBesideLog.limits_eq (h : SameBesideLog o o') : o.limits = o'.limits := by
  unfold limits limit?
  rw [h .maxLength rfl, h .maxDepth rfl]

end Options

namespace Dump

variable {tree tree' : FileTree} {files files' : List Record → FileTree} {o o' : Options}
  {ms ms' : List (String × Datum)} {place : FilePath}

/-- Where the types of a dump are does not depend on the dump file's text, unless it names itself
as the compiler's output. -/
theorem typeData_eq (h : SameBut place tree tree') {dumpFile : String}
    (houtput : ∀ relative, Datum.find? "solc_output" ms = some (.text relative) →
      (outputPath dumpFile relative).collapsed ≠ place) :
    typeData tree dumpFile ms = typeData tree' dumpFile ms := by
  unfold typeData
  split
  next given hgiven =>
    unfold readOutput
    cases htext : given.asText with
    | error e =>
      have hlift : Fault.lift (.error e : Except DataError String) = .error (.data e) := rfl
      rw [hlift, error_bind, error_bind]
    | ok relative =>
      have hrelative : given = .text relative := by
        cases given with
        | text s =>
          cases htext
          rfl
        | _ => cases htext
      have hplace : tree.place (outputPath dumpFile relative) ≠ .ok place :=
        fun hplace => houtput relative (hrelative ▸ hgiven) (FileTree.place_eq_ok hplace).symm
      have hjson : readJson tree (outputPath dumpFile relative) =
          readJson tree' (outputPath dumpFile relative) := by
        unfold readJson
        rw [h.readText_eq hplace]
      have hlift : Fault.lift (.ok relative : Except DataError String) = .ok relative := rfl
      rw [hlift, ok_bind, ok_bind]
      dsimp only
      rw [hjson]
  next => rfl

theorem sameMerge_readFile (hmembers : readMembers tree o.dumpFile = .ok ms)
    (hmembers' : readMembers tree' o'.dumpFile = .ok ms') (hpath : o.dumpFile = o'.dumpFile)
    (h : Options.SameMerge (o.absorbAll ms) (o'.absorbAll ms')) :
    Options.SameMerge (readFile tree o) (readFile tree' o') := by
  have hmerge := h.merge
  unfold readFile
  rw [hmembers, hmembers', hpath]
  refine ⟨?_, fun data hdata => ?_⟩
  · exact congrArg (Traced.mapError (inFile o'.dumpFile)) hmerge.1
  · exact hmerge.2 data (mapError_eq_ok.1 hdata)

/-- The data of a dump file that was read are those among its members. -/
theorem eq_dataOf_of_readFile (hmembers : readMembers tree o.dumpFile = .ok ms)
    {data : List (String × Datum)} (h : (readFile tree o).2.result = .ok data) :
    data = Options.dataOf ms := by
  have ho : o.AllShow (fun _ => True) := Options.allShow_of_data (fun _ => trivial) o
  have hends : EndsIn (fun _ => True) (· = Options.dataOf ms) (o.absorbAll ms).2.result :=
    Options.ends_absorbAll (fun _ => trivial) ho fun _ _ =>
      Options.admits_of_data (fun _ => trivial) fun _ => trivial
  unfold readFile at h
  rw [hmembers] at h
  have hmerge : (o.merge ms).2.result = .ok data := mapError_eq_ok.1 h
  unfold Options.merge at hmerge
  rw [Traced.result_bind] at hmerge
  obtain ⟨taken, htaken, hmerge⟩ := bind_eq_ok.1 hmerge
  rw [Traced.result_bind] at hmerge
  obtain ⟨-, -, hmerge⟩ := bind_eq_ok.1 hmerge
  cases hmerge
  exact hends.of_ok htaken

theorem read_eq (hfile : Options.SameMerge (readFile (files []) o) (readFile (files' []) o'))
    (htypes : ∀ data, (readFile (files []) o).2.result = .ok data →
      typeData (files (readFile (files []) o).2.trace) o.dumpFile data =
        typeData (files' (readFile (files []) o).2.trace) o'.dumpFile data) :
    (read files o).2 = (read files' o').2 := by
  unfold read
  dsimp only
  rw [← hfile.1]
  refine Traced.bind_congr_ok fun data hdata => ?_
  have hsame := hfile.2 data hdata
  rw [htypes data hdata, hsame.isOn_eq .hashedKeys rfl, hsame.limits_eq]

theorem fst_read (files : List Record → FileTree) (o : Options) :
    (read files o).1 = (readFile (files []) o).1 := by
  unfold read
  rfl

/-- The options beside the log that a dump leaves are those that its file leaves. -/
theorem sameBesideLog_read
    (hfile : Options.SameMerge (readFile (files []) o) (readFile (files' []) o'))
    {dump : Dump} (hdump : (read files o).2.result = .ok dump) :
    Options.SameBesideLog (read files o).1 (read files' o').1 := by
  rw [fst_read, fst_read]
  unfold read at hdump
  dsimp only at hdump
  rw [Traced.result_bind] at hdump
  obtain ⟨data, hdata, -⟩ := bind_eq_ok.1 hdump
  exact hfile.2 data hdata

end Dump

/-! ## Runs -/

/-- Whether a result is an error that the user is told about. -/
def IsRefused {α : Type} (result : Except Fault α) : Prop :=
  ∃ e, result = .error (.input e)

/-- Whether two computations leave the same records, and come to the same result or are refused. -/
structure Traced.SameEnd {α : Type} (x y : Traced Fault α) : Prop where
  trace : x.trace = y.trace
  result : x.result = y.result ∨ IsRefused x.result ∧ IsRefused y.result

/-- Whether two runs print the same, leave the same files but for one, and come to the same result
or are refused. -/
structure Outcome.SameBut (place : FilePath) (x y : Outcome) : Prop where
  printed : x.printed = y.printed
  files : x.files.SameBut place y.files
  result : x.result = y.result ∨ (∃ e, x.result = .error (.fault (.input e))) ∧
    ∃ e, y.result = .error (.fault (.input e))

namespace Run

variable {t t' : FileTree} {files files' : List Record → FileTree} {o o' : Options}
  {place : FilePath} {log : Option FilePath} {colours : Bool}

theorem report_eq (hpath : o.dumpFile = o'.dumpFile)
    (hread : (Dump.read files o).2 = (Dump.read files' o').2)
    (hoptions : ∀ dump, (Dump.read files o).2.result = .ok dump →
      Options.SameBesideLog (Dump.read files o).1 (Dump.read files' o').1) :
    report files o = report files' o' := by
  unfold report
  dsimp only
  rw [← hread, hpath]
  refine Traced.bind_congr_ok fun dump hdump => ?_
  have hsame := hoptions dump hdump
  rw [hsame.texts_eq .mappingKey rfl, hsame.texts_eq .«variable» rfl, hsame.isOn_eq .json rfl]

theorem report_of_refused {e : Fault} (h : Dump.readMembers (files []) o.dumpFile = .error e) :
    report files o = ⟨[], .error e⟩ := by
  have hfile : Dump.readFile (files []) o = (o, .fail e) := by
    unfold Dump.readFile
    rw [h]
  have hread : (Dump.read files o).2 = ⟨[], .error e⟩ := by
    unfold Dump.read
    dsimp only
    rw [hfile]
    rfl
  unfold report
  dsimp only
  rw [hread]
  rfl

/-- Whether options have the same values where they are about the log. -/
def SameLog (o o' : Options) : Prop :=
  ∀ name : OptionName, name.isLogging = true → o.get name = o'.get name

theorem SameLog.logSettings_eq (h : SameLog o o') (colours : Bool) :
    logSettings o colours = logSettings o' colours := by
  unfold logSettings Options.isOn Options.texts Options.path?
  rw [h .quiet rfl, h .debug rfl, h .debugTopics rfl, h .showDebugTopics rfl, h .debugLogFile rfl,
    h .abortReport rfl]

theorem sameBut_appendLog (h : t.SameBut place t') (log : Option FilePath) (text : String) :
    (appendLog t log text).SameBut place (appendLog t' log text) := by
  unfold appendLog
  cases log with
  | none => exact h
  | some other => exact h.append other text

theorem sameBut_writeReport (h : t.SameBut place t') (hlog : SameLog o o') (text : String) :
    (writeReport t o text).files.SameBut place (writeReport t' o' text).files ∧
      (writeReport t o text).late = (writeReport t' o' text).late ∧
        (writeReport t o text).fault = (writeReport t' o' text).fault := by
  unfold writeReport
  rw [hlog .abortReport rfl]
  split
  next => exact ⟨h, rfl, rfl⟩
  next => exact ⟨h, rfl, rfl⟩
  next p =>
    rw [h.writable_eq]
    split
    next other _ => exact ⟨h.write other text, rfl, rfl⟩
    next =>
      split
      next => exact ⟨h, rfl, rfl⟩
      next => exact ⟨h, rfl, rfl⟩

/-- Two runs are the same if what they do while the log is open is. -/
theorem sameBut_closed (h : t.SameBut place t') (hlog : SameLog o o')
    (hbody : (body t o log colours).SameEnd (body t' o' log colours)) :
    (closed t o log colours).SameBut place (closed t' o' log colours) := by
  have hopen : openLog o colours = openLog o' colours := by
    unfold openLog
    rw [hlog.logSettings_eq]
  have hlogged : (logged t o log colours (body t o log colours).trace).SameBut place
      (logged t' o' log colours (body t' o' log colours).trace) := by
    unfold logged
    rw [hlog.logSettings_eq, hopen, hbody.trace]
    exact sameBut_appendLog h _ _
  have hreported :
      (reported t o log colours).files.SameBut place (reported t' o' log colours).files ∧
      (reported t o log colours).late = (reported t' o' log colours).late ∧
        (reported t o log colours).fault = (reported t' o' log colours).fault := by
    unfold reported
    rw [hlog.logSettings_eq, hopen]
    rw [hbody.trace] at hlogged ⊢
    exact sameBut_writeReport hlogged hlog _
  obtain ⟨hfiles, hlate, hfault⟩ := hreported
  refine ⟨?_, ?_, ?_⟩
  · have htable : tableText (body t o log colours).result =
        tableText (body t' o' log colours).result := by
      rcases hbody.result with hsame | ⟨⟨e, he⟩, e', he'⟩
      · rw [hsame]
      · rw [he, he']
        rfl
    rw [printed_closed, printed_closed, hlog.logSettings_eq, hopen, hlate, hbody.trace, htable]
  · rw [files_closed, files_closed, hlog.logSettings_eq, hopen, hlate]
    exact sameBut_appendLog hfiles _ _
  · rw [result_closed, result_closed, hfault]
    rcases hbody.result with hsame | ⟨⟨e, he⟩, e', he'⟩
    · exact .inl (by rw [hsame])
    · rw [he, he']
      cases (reported t' o' log colours).fault with
      | some fault => exact .inl rfl
      | none => exact .inr ⟨⟨e, rfl⟩, e', rfl⟩

theorem debugLogPlace_eq (h : t.SameBut place t') (hlog : SameLog o o') :
    debugLogPlace t o = debugLogPlace t' o' := by
  unfold debugLogPlace
  rw [← hlog .debugLogFile rfl]
  simp only [h.writable_eq]

/-- Two command lines come to the same in two trees if they ask for the same log, and if what they
do while the log is open is the same. -/
theorem sameBut_decode {args args' : List String} (h : t.SameBut place t') {f : Options → Options}
    (hparse : CommandLine.parse t' args' = f <$> CommandLine.parse t args)
    (hlog : ∀ o, CommandLine.parse t args = .ok o → SameLog o (f o))
    (hbody : ∀ o log, CommandLine.parse t args = .ok o → debugLogPlace t o = .ok log →
      (body (appendLog t log "") o log colours).SameEnd
        (body (appendLog t' log "") (f o) log colours)) :
    (decode t args colours).SameBut place (decode t' args' colours) := by
  unfold decode
  rw [hparse]
  cases hargs : CommandLine.parse t args with
  | error stop => exact ⟨rfl, h, .inl rfl⟩
  | ok o =>
    have hmap : f <$> (.ok o : Except Stop Options) = .ok (f o) := rfl
    rw [hmap]
    dsimp only
    rw [← debugLogPlace_eq h (hlog o hargs)]
    cases hopened : debugLogPlace t o with
    | error e => exact ⟨rfl, h, .inl rfl⟩
    | ok log =>
      exact sameBut_closed (sameBut_appendLog h log "") (hlog o hargs) (hbody o log hargs hopened)

/-! ## One option more -/

/-- Two trees that differ in a dump file only, which gives an option in the first of them. -/
structure GivesOption (place : FilePath) (t t' : FileTree) (name : OptionName) (given : Datum)
    (front back : List (String × Datum)) : Prop where
  same : t.SameBut place t'
  first : ∃ s, t.at? place = some (.file s) ∧
    Json.Five.parse (Text.withLineFeeds s) = .ok (.object (front ++ (name.text, given) :: back))
  second : ∃ s, t'.at? place = some (.file s) ∧
    Json.Five.parse (Text.withLineFeeds s) = .ok (.object (front ++ back))
  front : ∀ m ∈ front, m.1 ≠ name.text
  back : ∀ m ∈ back, m.1 ≠ name.text

/-- Whether the options name the dump file at a place, and another file as the compiler's output
that its members name. -/
def NamesDump (t : FileTree) (place : FilePath) (ms : List (String × Datum)) (o : Options) : Prop :=
  t.place (.ofText o.dumpFile) = .ok place ∧
    ∀ relative, Datum.find? "solc_output" ms = some (.text relative) →
      (Dump.outputPath o.dumpFile relative).collapsed ≠ place

theorem log_ne_directory {other : FilePath} (h : debugLogPlace t o = .ok (some other)) :
    t.at? other ≠ some .directory := by
  unfold debugLogPlace at h
  split at h
  next p _ =>
    obtain ⟨found, hfound, hsame⟩ := map_eq_ok.1 h
    cases hsame
    cases hwritable : t.writable (FilePath.ofText p).collapsed with
    | error e =>
      rw [hwritable] at hfound
      cases hfound
    | ok place =>
      rw [hwritable] at hfound
      cases hfound
      exact FileTree.at?_ne_directory_of_writable hwritable
  next => cases h
  next => cases h

/-- The dump file is there, as it was, when the log has been opened. -/
theorem find?_logged {p : FilePath} {s : String} (hlog : debugLogPlace t o = .ok log)
    (hplace : t.place p = .ok place) (hfile : t.at? place = some (.file s)) (o' : Options) :
    (logged (appendLog t log "") o' log colours []).find? p = .ok (some (.file s)) := by
  unfold logged
  rw [debugLogText_nil]
  cases log with
  | none =>
    change t.find? p = _
    rw [FileTree.find?_of_place hplace, hfile]
  | some other =>
    have hother := log_ne_directory hlog
    have hopened := FileTree.place_append hother "" hplace
    have hlogged := FileTree.place_append (FileTree.at?_append_directory hother "").2 "" hopened
    change ((t.append other "").append other "").find? p = _
    rw [FileTree.find?_of_place hlogged, FileTree.at?_append_nothing other
      (FileTree.at?_append_nothing other hfile)]

/-- What a run does with a dump file that gives an option is what it does with one that does not, if
merging makes no difference between them. -/
theorem sameEnd_body {name : OptionName} {given : Datum} {front back : List (String × Datum)}
    (h : GivesOption place t t' name given front back) (hgiven : Json.duplicate? given = none)
    (hnames : NamesDump t place (front ++ back) o) (hpath : o.dumpFile = o'.dumpFile)
    (hlog : SameLog o o') (hopened : debugLogPlace t o = .ok log)
    (hmerge : Options.SameMerge (o.absorbAll (front ++ (name.text, given) :: back))
      (o'.absorbAll (front ++ back))) :
    (body (appendLog t log "") o log colours).SameEnd
      (body (appendLog t' log "") o' log colours) := by
  obtain ⟨s, hfile, hdump⟩ := h.first
  obtain ⟨s', hfile', hdump'⟩ := h.second
  have hfind : (logged (appendLog t log "") o log colours []).find? (.ofText o.dumpFile) =
      .ok (some (.file s)) := find?_logged hopened hnames.1 hfile o
  have hfind' : (logged (appendLog t' log "") o' log colours []).find? (.ofText o'.dumpFile) =
      .ok (some (.file s')) :=
    find?_logged (debugLogPlace_eq h.same hlog ▸ hopened)
      (hpath ▸ h.same.place_eq _ ▸ hnames.1) hfile' o'
  have hmembers := Dump.readMembers_eq hfind hdump
  have hmembers' := Dump.readMembers_eq hfind' hdump'
  have hinsert := Json.duplicate?_insert hgiven h.front h.back
  unfold body
  cases hduplicate : Json.duplicate? (.object (front ++ back)) with
  | some name =>
    cases hduplicate' : Json.duplicate? (.object (front ++ (_, given) :: back)) with
    | none => cases (hinsert.1 hduplicate').symm.trans hduplicate
    | some name' =>
      rw [hduplicate'] at hmembers
      rw [hduplicate] at hmembers'
      rw [report_of_refused hmembers, report_of_refused hmembers']
      exact ⟨rfl, .inr ⟨⟨_, rfl⟩, _, rfl⟩⟩
  | none =>
    rw [hinsert.2 hduplicate] at hmembers
    rw [hduplicate] at hmembers'
    have hread := Dump.sameMerge_readFile hmembers hmembers' hpath hmerge
    have hsame : ∀ records, (logged (appendLog t log "") o log colours records).SameBut place
        (logged (appendLog t' log "") o' log colours records) := by
      intro records
      unfold logged openLog
      rw [hlog.logSettings_eq]
      exact sameBut_appendLog (sameBut_appendLog h.same log "") log _
    have htypes : ∀ data,
        (Dump.readFile (logged (appendLog t log "") o log colours []) o).2.result = .ok data →
          Dump.typeData (logged (appendLog t log "") o log colours
            (Dump.readFile (logged (appendLog t log "") o log colours []) o).2.trace)
              o.dumpFile data =
            Dump.typeData (logged (appendLog t' log "") o' log colours
              (Dump.readFile (logged (appendLog t log "") o log colours []) o).2.trace)
                o'.dumpFile data := by
      intro data hdata
      rw [hread.1] at hdata
      rw [Dump.eq_dataOf_of_readFile hmembers' hdata, Dump.typeData_dataOf, Dump.typeData_dataOf,
        ← hpath]
      exact Dump.typeData_eq (hsame _) hnames.2
    have hreport := report_eq hpath (Dump.read_eq hread htypes)
      fun dump hdump => Dump.sameBesideLog_read hread hdump
    rw [hreport]
    exact ⟨rfl, .inl rfl⟩

theorem checkDumpFile_eq {name : OptionName} {given : Datum} {front back : List (String × Datum)}
    (h : GivesOption place t t' name given front back) (path : String) :
    CommandLine.checkDumpFile t path = CommandLine.checkDumpFile t' path := by
  obtain ⟨s, hfile, hdump⟩ := h.first
  obtain ⟨s', hfile', hdump'⟩ := h.second
  exact CommandLine.checkDumpFile_eq h.same hfile hfile' hdump hdump' path

/--
An option of the dump file that is not about the log means what it means on the command line: two
runs are the same, if one has it in the dump file and the other one on the command line. An option
about the log means nothing in the dump file: the run is the same without it. Members that show the
options may not stand where it would matter.
-/
theorem decode_option_in_dump {name : OptionName} {given v : Datum}
    {front back : List (String × Datum)} {args : List String}
    (h : GivesOption place t t' name given front back)
    (hvalue : Options.checked name given = .ok v)
    (hnames : ∀ o, CommandLine.parse t args = .ok o → NamesDump t place (front ++ back) o) :
    (name.isLogging = false → Options.ShowNoOptions front →
      ∀ more, CommandLine.Adds name (.value v) args more →
        (decode t args colours).SameBut place (decode t' more colours)) ∧
      (name.isLogging = true → Options.ShowNoOptions back → Json.duplicate? given = none →
        (∀ ws, CommandLine.words? args = some ws → CommandLine.LeavesUnset name ws) →
          (decode t args colours).SameBut place (decode t' args colours)) := by
  have hcheck := checkDumpFile_eq h
  refine ⟨fun hname hfront more hadds => ?beside, fun hname hback hgiven hargs => ?logging⟩
  case beside =>
    have hgiven : Json.duplicate? given = none :=
      Json.duplicate?_of_checked (by cases name <;> first | rfl | cases hname) hvalue
    have hunset := (CommandLine.parse_congr hcheck (CommandLine.leavesUnset_of_adds hadds)).2
    have hlog : ∀ o : Options, SameLog o (o.set name (.value v)) := by
      intro o other hother
      refine (Options.get_set_of_ne (fun hsame => ?_) o _).symm
      rw [hsame, hname] at hother
      cases hother
    refine sameBut_decode h.same (CommandLine.parse_adds hcheck hadds) (fun o _ => hlog o) ?_
    intro o log ho hopened
    refine sameEnd_body h hgiven (hnames o ho) rfl (hlog o) hopened ?_
    exact Options.sameMerge_absorbAll_set hvalue (hunset o ho)
      fun m hm => ⟨h.front m hm, hfront m hm⟩
  case logging =>
    obtain ⟨hparse, hunset⟩ := CommandLine.parse_congr hcheck hargs
    have hsame : ∀ o : Options, SameLog o o := fun o _ _ => rfl
    refine sameBut_decode h.same (f := fun o => o) (hparse.trans (id_map' _).symm)
      (fun o _ => hsame o) ?_
    intro o log ho hopened
    refine sameEnd_body h hgiven (hnames o ho) rfl (hsame o) hopened ?_
    exact Options.sameMerge_absorbAll_logging hname hvalue (hunset o ho) h.front
      fun m hm => ⟨h.back m hm, hback m hm⟩

end Run

/-! A dump with a flag, beside the same dump without it. -/

namespace Run.Flagged

def dumpText (name : OptionName) : String :=
  "\x7bstorage:\x7b\x7d,sources:\x7b\x7d,storageLayout:\x7bstorage:[\x7blabel:'b',type:'t'," ++
    "slot:1,offset:0\x7d]\x7d," ++ name.text ++ ":true\x7d"

def place : FilePath := ⟨false, ["d"], false⟩

def tree (name : OptionName) : FileTree := ⟨[(place, .file (dumpText name))]⟩

theorem sameBut_tree (name : OptionName) : (tree name).SameBut place Dump.Inline.tree where
  first := ⟨_, FileTree.at?_eq_file.2 ⟨rfl, List.lookup_cons_self⟩⟩
  second := ⟨_, FileTree.at?_eq_file.2 ⟨rfl, List.lookup_cons_self⟩⟩
  elsewhere q hq := by
    have hne : (q == place) = false := beq_false_of_ne hq
    have hlookup : ∀ entry : FileEntry, List.lookup q [(place, entry)] = none := by
      intro entry
      rw [List.lookup_cons, hne]
      rfl
    unfold FileTree.at? tree
    rw [hlookup]
    have hplain : List.lookup q Dump.Inline.tree.entries = none := hlookup _
    rw [hplain]
    rfl

/-- The dump gives the flag if its text can be read so. -/
theorem givesOption {name : OptionName} (h : Json.Five.parse (Text.withLineFeeds (dumpText name)) =
    .ok (.object (Dump.Inline.members ++ [(name.text, .bool true)])))
    (hname : ∀ m ∈ Dump.Inline.members, m.1 ≠ name.text) :
    GivesOption place (tree name) Dump.Inline.tree name (.bool true) Dump.Inline.members [] where
  same := sameBut_tree name
  first := ⟨_, FileTree.at?_eq_file.2 ⟨rfl, List.lookup_cons_self⟩, h⟩
  second := ⟨_, FileTree.at?_eq_file.2 ⟨rfl, List.lookup_cons_self⟩, by
    rw [List.append_nil]
    exact Dump.Inline.parse_dumpText⟩
  front := hname
  back m hm := by cases hm

theorem parse_json : Json.Five.parse (Text.withLineFeeds (dumpText .json)) =
    .ok (.object (Dump.Inline.members ++ [(OptionName.json.text, .bool true)])) :=
  ok_of_toOption (by decide +kernel)

theorem parse_debug : Json.Five.parse (Text.withLineFeeds (dumpText .debug)) =
    .ok (.object (Dump.Inline.members ++ [(OptionName.debug.text, .bool true)])) :=
  ok_of_toOption (by decide +kernel)

theorem words_flag {name : OptionName} {word : String} (hdashes : word ≠ "--")
    (hword : word.toList.head? = some '-' ∧ word.toList.length ≠ 1)
    (hswitch : CommandLine.switches.lookup word = some (.option name)) :
    CommandLine.words? ["d", word] = some [.plain "d", .switch (.option name) none] := by
  have hflag : CommandLine.wordOf? word = some (.switch (.option name) none) := by
    unfold CommandLine.wordOf?
    dsimp only
    rw [if_neg (by simp [hword]), hswitch]
  rw [CommandLine.words?_cons (by decide), CommandLine.wordOf?_plain (by decide),
    CommandLine.words?_cons hdashes, hflag]
  rfl

theorem leavesUnset_plain (name : OptionName) : CommandLine.LeavesUnset name [.plain "d"] := by
  intro own hmem
  cases List.mem_singleton.1 hmem

/-- A flag behind the dump file is on. -/
theorem adds_flag {name : OptionName} {word : String} (hflag : name.isFlag = true)
    (h : CommandLine.words? ["d", word] = some [.plain "d", .switch (.option name) none]) :
    CommandLine.Adds name (.value (.bool true)) ["d"] ["d", word] := by
  refine ⟨[.plain "d"], none, [], [], Dump.Inline.words_args, h, fun p => ?_,
    leavesUnset_plain name, .inr trivial⟩
  unfold CommandLine.takeSwitch
  dsimp only
  rw [if_pos hflag]
  rfl

theorem parse_plain {name : OptionName}
    (h : GivesOption place (tree name) Dump.Inline.tree name (.bool true) Dump.Inline.members []) :
    CommandLine.parse (tree name) ["d"] = .ok Dump.Inline.options := by
  have hargs : ∀ ws, CommandLine.words? ["d"] = some ws → CommandLine.LeavesUnset name ws := by
    intro ws hws
    rw [Dump.Inline.words_args] at hws
    exact Option.some.inj hws ▸ leavesUnset_plain name
  exact (CommandLine.parse_congr (checkDumpFile_eq h) hargs).1.symm.trans Dump.Inline.parse_args

theorem namesDump {name : OptionName}
    (h : GivesOption place (tree name) Dump.Inline.tree name (.bool true) Dump.Inline.members [])
    (o : Options) (ho : CommandLine.parse (tree name) ["d"] = .ok o) :
    NamesDump (tree name) place (Dump.Inline.members ++ []) o := by
  cases (parse_plain h).symm.trans ho
  refine ⟨?_, fun relative hrelative => ?_⟩
  · change (tree name).place (.ofText "d") = _
    rw [Dump.Inline.ofText_dump]
    rfl
  · cases hrelative

theorem words_json : CommandLine.words? ["d", "--json"] =
    some [.plain "d", .switch (.option .json) none] :=
  words_flag (by decide) (by decide) (by decide)

theorem words_debug : CommandLine.words? ["d", "--debug"] =
    some [.plain "d", .switch (.option .debug) none] :=
  words_flag (by decide) (by decide) (by decide)

theorem givesOption_json :
    GivesOption place (tree .json) Dump.Inline.tree .json (.bool true) Dump.Inline.members [] :=
  givesOption parse_json (by decide)

theorem givesOption_debug :
    GivesOption place (tree .debug) Dump.Inline.tree .debug (.bool true) Dump.Inline.members [] :=
  givesOption parse_debug (by decide)

theorem showNoOptions : Options.ShowNoOptions Dump.Inline.members := by
  intro m hm meaning hmeaning
  simp only [Dump.Inline.members, List.mem_cons, List.not_mem_nil, or_false] at hm
  rcases hm with rfl | rfl | rfl <;> cases hmeaning

/-- Rows may be asked for in JSON in either way; a dump that asks for debugging is as one that does
not. -/
theorem decode_json_debug :
    (decode (tree .json) ["d"] false).SameBut place
        (decode Dump.Inline.tree ["d", "--json"] false) ∧
      (decode (tree .debug) ["d"] false).SameBut place (decode Dump.Inline.tree ["d"] false) := by
  constructor
  · exact (decode_option_in_dump givesOption_json rfl (namesDump givesOption_json)).1 rfl
      showNoOptions _ (adds_flag rfl words_json)
  · refine (decode_option_in_dump givesOption_debug rfl (namesDump givesOption_debug)).2 rfl
      (fun m hm => by cases hm) rfl fun ws hws => ?_
    rw [Dump.Inline.words_args] at hws
    exact Option.some.inj hws ▸ leavesUnset_plain .debug

/-- A run without a debug log. -/
theorem decode_of_parse {t : FileTree} {args : List String} {o : Options}
    (h : CommandLine.parse t args = .ok o) (hlog : o.get .debugLogFile = .value .null)
    (colours : Bool) : decode t args colours = closed t o none colours := by
  have hplace : debugLogPlace t o = .ok none := by
    unfold debugLogPlace
    rw [hlog]
  unfold decode
  rw [h]
  dsimp only
  rw [hplace]
  rfl

/-- Debugging that a dump asks for is not what it is on the command line. -/
theorem printed_debug :
    (decode (tree .debug) ["d"] false).printed ≠
      (decode Dump.Inline.tree ["d", "--debug"] false).printed := by
  have hdebug : CommandLine.parse Dump.Inline.tree ["d", "--debug"] =
      .ok (Dump.Inline.options.set .debug (.value (.bool true))) := by
    have hadds := @CommandLine.parse_adds Dump.Inline.tree Dump.Inline.tree .debug _ _ _
      (fun _ => rfl) (adds_flag rfl words_debug)
    rwa [Dump.Inline.parse_args] at hadds
  have hpath : Dump.Inline.options.dumpFile = "d" := rfl
  have hpath' : (Dump.Inline.options.set .debug (.value (.bool true))).dumpFile = "d" := rfl
  rw [decode_of_parse (parse_plain givesOption_debug) rfl, decode_of_parse hdebug rfl]
  intro h
  rw [printed_closed, printed_closed] at h
  have htext := Output.text.inj (List.cons.inj h).1
  revert htext
  unfold reported body report Dump.read Dump.readFile Dump.readMembers
  rw [hpath, hpath', Dump.Inline.ofText_dump]
  decide +kernel

end Run.Flagged

end StorageSnapshot

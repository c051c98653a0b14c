-- SUMMARY: Dumps that are as expected, of which reading only fails for the user.
import Mathlib
import StorageSnapshot.Proofs.DatumEq
import StorageSnapshot.Proofs.Reading

/-!
# Expected dumps

A dump that is refused is the user's error. Reading takes more for granted than is checked, though,
and fails with a defect where a dump is otherwise. What is expected of a dump, and of the compiler's
output that it names, is said here. A dump that is as expected is read, or refused.
-/

namespace StorageSnapshot

open Ast (Holds HasItems IsObject)

namespace Dump

variable {P : Fault → Prop} {tree : FileTree} {files : List Record → FileTree} {o : Options}
  {ms : List (String × Datum)} {s : String}

/-! ## What is expected -/

/-- Whether the members that names lead through, one inside of another, are objects. -/
def LeadsThrough : Datum → List String → Prop
  | _, [] => True
  | d, name :: names => ∃ ms, d = .object ms ∧ Holds ms name (LeadsThrough · names)

/-- Whether the way to the layout of a contract leads through objects of a compiler's output. -/
def IsOutput (contract output : Datum) : Prop :=
  ∀ file name, splitContract contract = .ok (file, name) →
    LeadsThrough output ["contracts", file, name, "storageLayout"]

/-- What is expected of the name of a compiler's output, and of the file of that name. The name of
the contract can be written. -/
def IsOutputName (tree : FileTree) (dumpFile : String) (contract given : Datum) : Prop :=
  contract.isWritable = true ∧ ∃ relative, given = .text relative ∧
    ∃ found, tree.find? (outputPath dumpFile relative) = .ok found ∧
      ∀ s, found = some (.file s) →
        EndsIn (· ≠ .tooDeep) (IsOutput contract) (Json.parse (Text.withLineFeeds s))

/-- What is expected of an entry of a layout. It can be written, and so can the number of its
offset. -/
def IsEntry (d : Datum) : Prop :=
  d.isWritable = true ∧ ∃ ms, d = .object ms ∧ Holds ms "type" (fun key => key.isKey = true) ∧
    Holds ms "offset" fun given => ∀ n : Nat, Check.nonNegative given = .ok n →
      Text.isWritable n = true

/-- What is expected of the types of a layout, if there are any. -/
def IsTypes (d : Datum) : Prop :=
  d.isTruthy = true → ∃ ms, d = .object ms ∧
    ∀ key, Holds ms key fun described => described.isWritable = true ∧ IsObject described

def IsLayout (d : Datum) : Prop :=
  ∃ ms, d = .object ms ∧ Holds ms "types" IsTypes ∧ Holds ms "storage" (HasItems IsEntry)

/-- Whether the nodes that are reached in a syntax tree have ids that can be written, and contracts
have names. -/
def NamesNodes (ast : Datum) : Prop :=
  ∀ ms ∈ Ast.nodesByLevel (Ast.marked none ast),
    Holds ms "id" (fun id => id.isWritable = true) ∧
      (Ast.isContract ms = true → (Datum.find? "name" ms).isSome = true)

def IsSources (d : Datum) : Prop :=
  ∃ files, d = .object files ∧ ∀ file ms ast, (file, Datum.object ms) ∈ files →
    Datum.find? "ast" ms = some ast → NamesNodes ast

/-- What is expected of a dump file, of the command line that names it, and of what it names. -/
structure IsExpected (files : List Record → FileTree) (o : Options)
    (ms : List (String × Datum)) : Prop where
  numbers : CommandLine.WritableNumbers o
  options : ∀ m ∈ ms, Options.Admits Fault.IsInput m.1 m.2
  words : ∀ words, Datum.find? "storage" ms = some words → words.isWritable = true
  output : ∀ given, Datum.find? "solc_output" ms = some given →
    ∃ contract, Datum.find? "contract" ms = some contract ∧
      IsOutputName (treeBehind files o) o.dumpFile contract given
  parts : ∀ layout sources, typeData (treeBehind files o) o.dumpFile ms = .ok (layout, sources) →
    IsLayout layout ∧ IsSources sources
  limits : (readFile (files []) o).1.WritableLimits

/-- What stands in a compiler's output is found, or a member of some name is missing. -/
theorem ends_partsOfOutput {output : Datum} {file name : String}
    (h : LeadsThrough output ["contracts", file, name, "storageLayout"]) :
    EndsIn (fun e => ∃ name : String, e = .missing name) (fun _ => True)
      (partsOfOutput output file name) := by
  obtain ⟨outer, rfl, hcontracts⟩ := h
  have hrequire : ∀ ms name, EndsIn (fun e => ∃ name : String, e = Fault.missing name)
      (fun d => Datum.find? name ms = some d) (Ast.require (.object ms) name) :=
    Ast.ends_require_object fun name => ⟨name, rfl⟩
  refine (hrequire outer "contracts").bind fun contracts hfind => ?_
  obtain ⟨ms, rfl, hfile⟩ := hcontracts contracts hfind
  refine (hrequire ms file).bind fun contractsOfFile hfind => ?_
  obtain ⟨ms, rfl, hname⟩ := hfile contractsOfFile hfind
  refine (hrequire ms name).bind fun contract hfind => ?_
  obtain ⟨ms, rfl, -⟩ := hname contract hfind
  refine (hrequire ms "storageLayout").bind fun layout _ => ?_
  exact (hrequire outer "sources").bind fun _ _ => trivial

theorem ends_readJson {p : FilePath} {Q : Datum → Prop} {found : Option FileEntry}
    (hfind : tree.find? p = .ok found)
    (hfile : ∀ s, found = some (.file s) →
      EndsIn (· ≠ .tooDeep) Q (Json.parse (Text.withLineFeeds s))) :
    EndsIn Fault.IsInput Q (readJson tree p) := by
  have hread : EndsIn Fault.IsInput (fun text => EndsIn (· ≠ .tooDeep) Q (Json.parse text))
      (tree.readText p) := by
    unfold FileTree.readText
    rw [hfind]
    cases found with
    | none => trivial
    | some entry =>
      cases entry with
      | file s => exact hfile s rfl
      | _ => trivial
  unfold readJson
  refine hread.bind fun text hends => ?_
  cases hparse : Json.parse text with
  | ok d => exact hends.of_ok hparse
  | error e =>
    cases e with
    | tooDeep => exact (hends.of_error hparse rfl).elim
    | _ => trivial

theorem ends_splitContract {contract : Datum} (h : contract.isWritable = true) :
    EndsIn Fault.IsInput (fun _ => True) (splitContract contract) := by
  have hcheck := Datum.checkText_eq_ok.2 h
  unfold splitContract
  rw [hcheck]
  refine EndsIn.bind (Q := fun _ => True) trivial fun _ _ => ?_
  dsimp only
  split
  next => trivial
  next => exact Fault.holds_raised (P := Fault.IsInput) trivial (shows_ok ⟨(), hcheck⟩)

theorem ends_readOutput {dumpFile : String} {given contract : Datum}
    (hcontract : Datum.find? "contract" ms = some contract)
    (h : IsOutputName tree dumpFile contract given) :
    EndsIn Fault.IsInput (fun _ => True) (readOutput tree dumpFile ms given) := by
  obtain ⟨hwritable, relative, rfl, found, hfind, hfile⟩ := h
  have hcheck := Datum.checkText_eq_ok.2 hwritable
  have hrequire : Ast.require (.object ms) "contract" = .ok contract := by
    unfold Ast.require
    dsimp only
    rw [hcontract]
  unfold readOutput
  refine EndsIn.bind (Q := (· = relative)) rfl fun relative' hsame => ?_
  subst hsame
  refine (ends_readJson hfind hfile).bind fun output houtput => ?_
  rw [hrequire, ok_bind]
  cases hsplit : splitContract contract with
  | error e => exact (ends_splitContract hwritable).of_error hsplit
  | ok parts =>
    obtain ⟨file, name⟩ := parts
    have hends := ends_partsOfOutput (houtput file name hsplit)
    rw [ok_bind]
    dsimp only
    cases hparts : partsOfOutput output file name with
    | ok parts => trivial
    | error e =>
      obtain ⟨key, rfl⟩ := hends.of_error hparts
      refine Fault.holds_raised (P := Fault.IsInput) trivial (shows_ok ⟨(), ?_⟩)
      exact bind_eq_ok.2 ⟨(), rfl, hcheck⟩

/-- Where data says where its types are, and the file is as expected, they are found, or it is the
user who is told. -/
theorem ends_typeData {dumpFile : String} (hcheck : Options.checkData (Options.dataOf ms) = .ok ())
    (h : ∀ given, Datum.find? "solc_output" ms = some given →
      ∃ contract, Datum.find? "contract" ms = some contract ∧
        IsOutputName tree dumpFile contract given) :
    EndsIn Fault.IsInput (fun parts => typeData tree dumpFile ms = .ok parts)
      (typeData tree dumpFile ms) := by
  have hends : EndsIn Fault.IsInput (fun _ => True) (typeData tree dumpFile ms) := by
    unfold typeData
    cases hgiven : Datum.find? "solc_output" ms with
    | some given =>
      obtain ⟨contract, hcontract, hname⟩ := h given hgiven
      exact ends_readOutput hcontract hname
    | none =>
      obtain ⟨-, hinline⟩ := of_checkData hcheck
      have hnone : Datum.find? "solc_output" (Options.dataOf ms) = none := by
        rw [Options.find?_dataOf (by decide), hgiven]
      obtain ⟨layout, sources, hlayout, hsources⟩ := hinline (.inl hnone)
      rw [Options.find?_dataOf (by decide)] at hlayout hsources
      dsimp only
      unfold Ast.require
      dsimp only
      rw [hlayout, hsources]
      trivial
  cases hparts : typeData tree dumpFile ms with
  | ok parts => rfl
  | error e => exact hends.of_error hparts

theorem ends_ofSources {sources : Datum} (h : IsSources sources) :
    EndsIn Fault.IsInput (fun _ => True) (Ast.Index.ofSources sources).result := by
  obtain ⟨files, rfl, hfiles⟩ := h
  unfold Ast.Index.ofSources
  rw [Traced.result_bind]
  refine EndsIn.bind (Q := (· = files)) rfl fun files' hsame => ?_
  subst hsame
  rw [Traced.result_foldlM]
  refine EndsIn.foldlM trivial fun index _ source hsource => ?_
  obtain ⟨file, source⟩ := source
  dsimp only
  split
  next ms' =>
    split
    next ast hast =>
      rw [Traced.result_bind]
      refine EndsIn.bind (Q := fun _ => True) trivial fun _ _ => ?_
      refine EndsIn.foldlM trivial fun index _ node hnode => ?_
      obtain ⟨hid, hnamed⟩ := hfiles file ms' ast hsource hast node hnode
      have hid : EndsIn Fault.IsInput (fun _ => True) (Ast.nodeId node) := by
        unfold Ast.nodeId
        cases hnumber : Ast.idNumber ((Datum.find? "id" node).getD .null) with
        | error e =>
          have hcheck : e.check = ((Datum.find? "id" node).getD .null).checkText := by
            unfold Ast.idNumber at hnumber
            split at hnumber
            all_goals cases hnumber
            rfl
          refine Fault.holds_raised (P := Fault.IsInput) trivial (shows_ok ⟨(), ?_⟩)
          rw [hcheck, Datum.checkText_eq_ok]
          cases hfind : Datum.find? "id" node with
          | none => rfl
          | some id => exact hid id hfind
        | ok n =>
          refine .ite (fun hbroken => ?_) fun _ => trivial
          rw [Bool.and_eq_true, Bool.and_eq_true, Option.isNone_iff_eq_none] at hbroken
          simp [hbroken.1.2] at hnamed
          simp [hbroken.1.1] at hnamed
      exact hid.bind fun _ _ => trivial
    next => trivial
  next => trivial

theorem ends_describedType {types key : Datum} (htypes : IsTypes types)
    (hkey : key.isKey = true) :
    EndsIn P (fun d => d.isWritable = true ∧ IsObject d)
      (StateVariable.describedType types key) := by
  unfold StateVariable.describedType
  extract_lets +lift behind
  have hempty : (Datum.object []).isWritable = true ∧ IsObject (.object []) := ⟨rfl, [], rfl⟩
  have hbehind : ∀ table, (∀ key, Holds table key fun d => d.isWritable = true ∧ IsObject d) →
      EndsIn P (fun d => d.isWritable = true ∧ IsObject d) (behind table) := by
    intro table htable
    dsimp only [behind]
    split
    next k =>
      cases hfind : Datum.find? k table with
      | none => exact hempty
      | some d => exact htable k d hfind
    next => exact .ite (fun _ => hempty) fun hno => (hno hkey).elim
  refine .ite (fun htruthy => ?_) fun _ => hbehind [] (by intro key d hd; cases hd)
  obtain ⟨table, rfl, htable⟩ := htypes htruthy
  exact hbehind table htable

theorem ends_ofLayout {layout : Datum} (h : IsLayout layout) :
    EndsIn Fault.IsInput (fun _ => True) (StateVariable.ofLayout layout) := by
  obtain ⟨ms', rfl, htypes, hstorage⟩ := h
  have hrequire : ∀ (ms' : List (String × Datum)) (name : String),
      EndsIn (Fault.OrMissing Fault.IsInput) (fun d => Datum.find? name ms' = some d)
        (Ast.require (.object ms') name) :=
    Ast.ends_require_object fun _ => trivial
  have hfield : EndsIn Fault.IsInput IsTypes (Ast.field (.object ms') "types") := by
    change IsTypes ((Datum.find? "types" ms').getD .null)
    cases hfind : Datum.find? "types" ms' with
    | none =>
      intro htruthy
      cases htruthy
    | some types => exact htypes types hfind
  refine StorageSnapshot.ends_ofLayout (fun _ => trivial) trivial hfield
    (fun hmentioned => ?entries)
    fun types entry htypes (hentry : IsEntry entry) => ?entry
  case entries =>
    obtain ⟨storage, hfind⟩ := Option.isSome_iff_exists.1 (Except.ok.inj hmentioned)
    obtain ⟨items, hitems, hentries⟩ := hstorage storage hfind
    unfold Ast.require
    dsimp only
    rw [hfind, ok_bind, hitems]
    exact hentries
  case entry =>
    obtain ⟨hwritable, ms', rfl, hkey, hoffset⟩ := hentry
    have hany : ∀ {ms' : List (String × Datum)} (name : String),
        (Datum.object ms').isWritable = true →
        EndsIn (Fault.OrMissing Fault.IsInput)
          (fun d => Shows (Fault.OrMissing Fault.IsInput) d.checkText)
          (Ast.require (.object ms') name) :=
      fun name hms => (hrequire _ name).mono (fun _ h => h) fun _ hfind =>
        shows_checkText (Datum.isWritable_of_find? hms hfind)
    refine ends_ofEntry (fun _ => trivial) (shows_checkText hwritable) ?_
    refine ends_ofMembers (fun _ => trivial) (fun _ => trivial) (fun name => hany name hwritable)
      (fun given n hgiven hn => ?_) (hrequire ms' "type")
      (fun key hfind => ends_describedType htypes (hkey key hfind)) ?_ ?_
    · have hfind : Datum.find? "offset" ms' = some given := (hrequire ms' "offset").of_ok hgiven
      exact shows_checkText (hoffset given hfind n hn)
    · rintro _ ⟨-, ms', rfl⟩
      trivial
    · rintro _ ⟨hd, ms', rfl⟩
      exact hany "numberOfBytes" hd

/-! ## Dumps -/

-- What a whole run ends in is not to be found by running it.
attribute [local irreducible] EndsIn

theorem ends_read_in_defect
    (hfile : (files []).find? (.ofText o.dumpFile) = .ok (some (.file s)))
    (hdump : Json.Five.parse (Text.withLineFeeds s) = .ok (.object ms)) :
    EndsIn Fault.IsDumpDefect
      (MadeOf (treeBehind files o) o.dumpFile ((readFile (files []) o).1.isOn .hashedKeys) ms)
      (read files o).2.result := by
  have hshown : ∀ {α : Type} (x : Except DataError α), Shows Fault.IsDumpDefect x :=
    shows_of_data fun _ => trivial
  refine ends_read (fun _ => trivial) ?file (fun _ => ?types)
    (fun _ sources (_ : True) => endsInDumpDefect_ofSources sources)
    (fun layout _ _ => endsInDumpDefect_ofLayout layout) (fun _ _ _ _ => hshown _)
    (endsInDumpDefect_limits _)
  case file =>
    have ho : o.AllShow Fault.IsDumpDefect := Options.allShow_of_data (fun _ => trivial) o
    exact ends_readFile (fun _ => trivial) hfile hdump ho fun _ _ =>
      Options.admits_of_data (fun _ => trivial) fun _ => trivial
  case types => exact endsInDumpDefect_typeData _ _ _

theorem ends_read_as_expected {args : List String} (hparse : CommandLine.parse tree args = .ok o)
    (hfile : (files []).find? (.ofText o.dumpFile) = .ok (some (.file s)))
    (hdump : Json.Five.parse (Text.withLineFeeds s) = .ok (.object ms))
    (h : IsExpected files o ms) :
    EndsIn Fault.IsInput (fun _ => True) (read files o).2.result := by
  have hread : EndsIn Fault.IsInput (MadeOf (treeBehind files o) o.dumpFile
      ((readFile (files []) o).1.isOn .hashedKeys) ms) (read files o).2.result := by
    refine ends_read (fun _ => trivial) ?file (fun hcheck => ends_typeData hcheck h.output)
      (fun layout sources hparts => ends_ofSources (h.parts layout sources hparts).2)
      (fun layout sources hparts => ends_ofLayout (h.parts layout sources hparts).1)
      (fun words entry hfind hentry => shows_checkText ?words)
      (ends_limits (fun _ => trivial) (fun name d hname hd => shows_checkText ?given)
        fun name n hname hn => shows_checkText ?number)
    case file =>
      exact ends_readFile (fun _ => trivial) hfile hdump
        (CommandLine.allShow_parse hparse h.numbers) h.options
    case words => exact Datum.isWritable_object_iff.1 (h.words _ hfind) entry hentry
    case given => exact h.limits.given name d hname hd
    case number => exact h.limits.number name n hname hn
  exact hread.mono (fun _ h => h) fun _ _ => trivial

/--
A dump file with an object in it is read, or refused with what is said to the user, or it has a
defect; one that is as expected is read or refused. What is read is made of what the file gives, and
every variable of it has a place. A layout beside sources counts if there is no compiler's output,
and a compiler's output with a contract counts whatever else there is.
-/
theorem read_fails_for_user {args : List String} (hparse : CommandLine.parse tree args = .ok o)
    (hfile : (files []).find? (.ofText o.dumpFile) = .ok (some (.file s)))
    (hdump : Json.Five.parse (Text.withLineFeeds s) = .ok (.object ms)) :
    EndsIn Fault.IsDumpDefect
        (fun dump => MadeOf (treeBehind files o) o.dumpFile
            ((readFile (files []) o).1.isOn .hashedKeys) ms dump ∧
          ∀ v ∈ dump.state, Cursor.ofOffset v.slot.toNat v.offset = .ok v.place)
        (read files o).2.result ∧
      (IsExpected files o ms →
        EndsIn Fault.IsInput (fun _ => True) (read files o).2.result) ∧
      (∀ layout sources, Datum.find? "solc_output" ms = none →
        Datum.find? "storageLayout" ms = some layout → Datum.find? "sources" ms = some sources →
          typeData (treeBehind files o) o.dumpFile ms = .ok (layout, sources)) ∧
      (∀ given contract, Datum.find? "solc_output" ms = some given →
        Datum.find? "contract" ms = some contract →
          typeData (treeBehind files o) o.dumpFile ms =
            readOutput (treeBehind files o) o.dumpFile [("contract", contract)] given) ∧
      ∀ e, (read files o).2.result = .error (.input e) →
        ∃ cause, Run.farewell (.error (.fault (.input e))) =
          some (cause ++ [.alert ("\n" ++ e.message ++ "\n")], 1) := by
  refine ⟨?_, ends_read_as_expected hparse hfile hdump, ?_, ?_, fun e _ => ⟨_, rfl⟩⟩
  · exact (ends_read_in_defect hfile hdump).mono (fun _ h => h)
      fun dump h => ⟨h, fun v _ => v.ofOffset_place⟩
  · intro layout sources hnone hlayout hsources
    unfold typeData Ast.require
    dsimp only
    rw [hnone, hlayout, hsources]
    rfl
  · intro given contract hgiven hcontract
    have hrequire : Ast.require (.object ms) "contract" =
        Ast.require (.object [("contract", contract)]) "contract" := by
      unfold Ast.require
      dsimp only
      rw [hcontract]
      rfl
    unfold typeData readOutput
    dsimp only
    rw [hgiven, hrequire]

end Dump

/-! A dump of one variable whose layout stands beside its sources. -/

namespace Dump.Inline

def dumpText : String :=
  "\x7bstorage:\x7b\x7d,sources:\x7b\x7d,storageLayout:\x7bstorage:[\x7blabel:'b',type:'t'," ++
    "slot:1,offset:0\x7d]\x7d\x7d"

def entry : Datum :=
  .object [("label", .text "b"), ("type", .text "t"), ("slot", .int 1), ("offset", .int 0)]

def layout : Datum := .object [("storage", .list [entry])]

theorem isWritable_entry : entry.isWritable = true := by decide

def members : List (String × Datum) :=
  [("storage", .object []), ("sources", .object []), ("storageLayout", layout)]

def tree : FileTree := ⟨[(⟨false, ["d"], false⟩, .file dumpText)]⟩

def options : Options := { Options.unset "" with dumpFile := "d" }

/-- Paths are split at slashes, which is nothing that can be evaluated in place. -/
theorem ofText_dump : FilePath.ofText "d" = ⟨false, ["d"], false⟩ := by cbv

theorem parse_dumpText :
    Json.Five.parse (Text.withLineFeeds dumpText) = .ok (.object members) :=
  ok_of_toOption (by decide +kernel)

theorem find?_dump : tree.find? (.ofText "d") = .ok (some (.file dumpText)) := by
  rw [ofText_dump]
  rfl

theorem checkDumpFile_dump : CommandLine.checkDumpFile tree "d" = .ok "d" := by
  have hread := FileTree.readText_of_file find?_dump
  have hslash : ("d".endsWith "/" || "d".endsWith "/.") = false := by decide +kernel
  rw [CommandLine.checkDumpFile_of_parse hread parse_dumpText, CommandLine.checkPath,
    if_neg (by decide), hslash]
  rfl

theorem words_args : CommandLine.words? ["d"] = some [.plain "d"] := by
  rw [CommandLine.words?_cons (by decide), CommandLine.wordOf?_plain (by decide)]
  rfl

theorem parse_args : CommandLine.parse tree ["d"] = .ok options := by
  have hfile : CommandLine.takeFile tree {} "d" = .ok { dumpFile := some "d" } := by
    unfold CommandLine.takeFile
    rw [checkDumpFile_dump]
  have hfinish : CommandLine.finish tree {} [.plain "d"] = .ok { dumpFile := some "d" } := by
    unfold CommandLine.finish
    simp only [hfile]
    rfl
  have hconsume : CommandLine.consume tree {} [.plain "d"] = .ok { dumpFile := some "d" } := by
    rw [CommandLine.consume_of_no_switch rfl, hfinish]
  unfold CommandLine.parse
  simp only [words_args, hconsume]
  rfl

theorem readMembers_dump : readMembers tree "d" = .ok members := by
  rw [readMembers_eq find?_dump parse_dumpText]
  rfl

theorem options_readFile : (readFile tree options).1 = options := by
  have hpath : options.dumpFile = "d" := rfl
  unfold readFile
  rw [hpath, readMembers_dump]
  rfl

theorem isExpected : IsExpected (fun _ => tree) options members where
  numbers := by
    rintro (_ | _) n hn <;> cases hn
  words := by
    rintro words hwords
    cases hwords
    rfl
  options := by
    have hnames : ∀ m ∈ members, OptionName.ofText? m.1 = none ∧ Reserved.ofText? m.1 = none := by
      intro m hm
      simp only [members, List.mem_cons, List.not_mem_nil, or_false] at hm
      rcases hm with rfl | rfl | rfl <;> exact ⟨by decide, rfl⟩
    intro m hm
    obtain ⟨hoption, hreserved⟩ := hnames m hm
    refine ⟨fun n hn => ?_, fun hsome => ?_, fun hname => ?_⟩
    · simp [hoption] at hn
    · simp [hreserved] at hsome
    · simp [hreserved] at hname
  output := by
    intro given hgiven
    cases hgiven
  parts := by
    intro layout sources hparts
    cases hparts
    refine ⟨⟨_, rfl, ?_, ?_⟩, [], rfl, fun _ _ _ hmem => by cases hmem⟩
    · intro types htypes
      cases htypes
    · intro storage hstorage
      cases hstorage
      refine ⟨[entry], rfl, fun x hx => ?_⟩
      rw [List.mem_singleton.1 hx]
      refine ⟨isWritable_entry, _, rfl, fun key hkey => ?_, fun given hgiven n hn => ?_⟩
      · cases hkey
        rfl
      · cases hgiven
        cases hn
        exact Text.isWritable_of_lt_word (by decide)
  limits := by
    constructor
    · rintro name d (rfl | rfl) hd
      · rw [options_readFile] at hd
        cases hd
        rfl
      · rw [options_readFile] at hd
        cases hd
        rfl
    · rintro name n (rfl | rfl) hn
      · rw [options_readFile] at hn
        cases hn
      · rw [options_readFile] at hn
        cases hn

/-- The dump is read or refused, and its one variable has a place. -/
theorem read_inline : IsExpected (fun _ => tree) options members ∧
    EndsIn Fault.IsInput (fun _ => True) (read (fun _ => tree) options).2.result :=
  ⟨isExpected, (@read_fails_for_user tree (fun _ => tree) options members dumpText ["d"] parse_args
    find?_dump parse_dumpText).2.1 isExpected⟩

end Dump.Inline

/-! A dump whose layout stands beside its sources, and which names a compiler's output but no
contract. -/

namespace Dump.Torn

def dumpText : String :=
  "\x7bstorage:\x7b\x7d,sources:\x7b\x7d,storageLayout:\x7bstorage:[]\x7d,solc_output:'o'\x7d"

def members : List (String × Datum) :=
  [("storage", .object []), ("sources", .object []),
    ("storageLayout", .object [("storage", .list [])]), ("solc_output", .text "o")]

def tree : FileTree :=
  ⟨[(⟨false, ["d"], false⟩, .file dumpText), (⟨false, ["o"], false⟩, .file "\x7b\x7d")]⟩

theorem parse_dumpText :
    Json.Five.parse (Text.withLineFeeds dumpText) = .ok (.object members) :=
  ok_of_toOption (by decide +kernel)

theorem find?_dump : tree.find? (.ofText "d") = .ok (some (.file dumpText)) := by
  rw [Inline.ofText_dump]
  rfl

theorem outputPath_output : outputPath "d" "o" = ⟨false, ["o"], false⟩ := by cbv

theorem readJson_output : readJson tree (outputPath "d" "o") = .ok (.object []) := by
  have hfind : tree.find? ⟨false, ["o"], false⟩ = .ok (some (.file "\x7b\x7d")) := rfl
  rw [outputPath_output]
  exact readJson_of_parse (FileTree.readText_of_file hfind) (ok_of_toOption (by decide +kernel))

/-- It is accepted for its layout and sources, and then fails for the contract that it lacks. -/
theorem read_without_contract :
    (readFile tree Inline.options).2.result = .ok members ∧
      (read (fun _ => tree) Inline.options).2.result = .error (.missing (.text "contract")) := by
  have hpath : Inline.options.dumpFile = "d" := rfl
  have hmembers : readMembers tree "d" = .ok members := by
    rw [readMembers_eq find?_dump parse_dumpText]
    rfl
  have hfile : (readFile tree Inline.options).2.result = .ok members := by
    unfold readFile
    rw [hpath, hmembers]
    rfl
  have htypes : typeData tree "d" members = .error (.missing (.text "contract")) := by
    change readOutput tree "d" members (.text "o") = _
    unfold readOutput
    simp only [Datum.asText, Fault.lift, ok_bind, readJson_output]
    rfl
  refine ⟨hfile, ?_⟩
  unfold read
  dsimp only
  rw [Traced.result_bind, hfile, ok_bind, Traced.result_bind, hpath]
  change typeData tree "d" members >>= _ = _
  rw [htypes]
  rfl

end Dump.Torn

end StorageSnapshot

-- SUMMARY: Reading dumps, stage by stage: what each stage can fail with.
import StorageSnapshot.Proofs.Arguments
import StorageSnapshot.Proofs.Resolution
import StorageSnapshot.Run

/-!
# Failures of reading

Reading a dump is a chain of stages: the dump file, the types, the sources, the layout, the limits.
What reading ends in is said by what its stages end in. Whatever the dump is, they end in what is
said to the user, or in a defect that says that data is not what it was taken to be.
-/

namespace StorageSnapshot

/-! ## Kinds of faults -/

namespace Fault

def IsInput : Fault → Prop
  | .input _ => True
  | _ => False

/-- What a dump can lead to that is not as it is expected to be. -/
def IsDumpDefect : Fault → Prop
  | .input _ | .data _ | .file _ | .missing _ | .broken .contractWithoutName => True
  | _ => False

end Fault

open Ast (Holds HasItems IsObject)

/-! ## Places -/

/-- The place of a variable is the one that its slot and its offset say. -/
theorem StateVariable.ofOffset_place (v : StateVariable) :
    Cursor.ofOffset v.slot.toNat v.offset = .ok v.place := by
  have hslot : Slot.ofInt? v.slot.toNat = some v.slot := by
    have hlt : v.slot.toNat < 2 ^ 256 := v.slot.isLt
    have hcount : Slot.count = 2 ^ 256 := by decide
    rw [Slot.ofInt?, if_pos ⟨by omega, by omega⟩]
    simp
  have hoffset := v.offset_lt
  have hsize : wordSize = 32 := rfl
  rw [Cursor.ofOffset, Cursor.make, hslot]
  simp only [Cursor.ofFree]
  rw [dif_pos (by omega)]
  have hfree : ((wordSize : Int) - v.offset).toNat = 32 - v.offset := by omega
  simp only [StateVariable.place, hfree]

/-! ## Layouts -/

section Layouts

open StateVariable

variable {P : Fault → Prop} {types entry layout : Datum}

/-- What the entry of a variable fails with is what looking at its parts fails with, or showing
them. -/
theorem ends_ofMembers {IsTypeKey IsDescribed : Datum → Prop} (hinput : ∀ e, P (.input e))
    (hfield : ∀ name, EndsIn P (fun _ => True) (Ast.field entry name))
    (hrequire : ∀ name, EndsIn P (fun d => Shows P d.checkText) (Ast.require entry name))
    (hoffset : ∀ given n, Ast.require entry "offset" = .ok given → Check.nonNegative given = .ok n →
      Shows P (Datum.int n).checkText)
    (htype : EndsIn P IsTypeKey (Ast.require entry "type"))
    (hdescribed : ∀ key, IsTypeKey key → EndsIn P IsDescribed (describedType types key))
    (hmentions : ∀ d, IsDescribed d → EndsIn P (fun _ => True) (mentions d "numberOfBytes"))
    (hsize : ∀ d, IsDescribed d →
      EndsIn P (fun given => Shows P given.checkText) (Ast.require d "numberOfBytes")) :
    EndsIn P (fun _ => True) (ofMembers types entry) := by
  have hnumber : ∀ given, Shows P given.checkText →
      EndsIn P (Check.nonNegative given = .ok ·) (Fault.lift (Check.nonNegative given)) :=
    fun given => ends_check hinput fun _ => Check.check_nonNegative
  have hslot : ∀ given, Shows P given.checkText →
      EndsIn P (Check.slot given = .ok ·) (Fault.lift (Check.slot given)) :=
    fun given => ends_check hinput fun _ => Check.check_slot
  refine htype.bind fun typeKey hkey => (hdescribed typeKey hkey).bind fun described hd => ?_
  refine (hmentions described hd).bind fun mentioned _ => ?_
  extract_lets +lift behind
  have hbehind : ∀ numberOfBytes, EndsIn P (fun _ => True) (behind numberOfBytes) := by
    intro numberOfBytes
    refine (hrequire "offset").bind_eq fun given hgiven hshown => ?_
    refine (hnumber given hshown).bind fun offset hn => ?_
    split
    · refine (hrequire "label").bind fun label _ => (hfield "astId").bind fun astId _ => ?_
      extract_lets +lift last
      have hlast : ∀ contract, EndsIn P (fun _ => True) (last contract) := by
        intro contract
        exact (hrequire "slot").bind fun slot hshown => (hslot slot hshown).bind fun _ _ => trivial
      refine .ite (fun _ => ?_) fun _ => hlast _
      exact (hfield "contract").bind fun contract _ => hlast contract
    · refine (hrequire "label").bind fun label hlabel => Fault.holds_raised (hinput _) ?_
      exact shows_bind (hoffset given offset hgiven hn) fun _ => hlabel
  refine .ite (fun _ => ?_) fun _ => hbehind none
  exact (hsize described hd).bind fun given hshown => (hnumber given hshown).bind
    fun size _ => hbehind (some size)

/-- An entry that lacks a member is refused. -/
theorem ends_ofEntry (hinput : ∀ e, P (.input e)) (hentry : Shows P entry.checkText)
    (h : EndsIn (Fault.OrMissing P) (fun _ => True) (ofMembers types entry)) :
    EndsIn P (fun _ => True) (ofEntry types entry) := by
  unfold ofEntry
  cases hmembers : ofMembers types entry with
  | ok v => trivial
  | error e =>
    have hends := h.of_error hmembers
    cases e with
    | missing name => exact Fault.holds_raised (hinput _) hentry
    | _ => exact hends

theorem ends_ofLayout {IsTypes IsEntry : Datum → Prop} (hinput : ∀ e, P (.input e))
    (hmentions : EndsIn P (fun _ => True) (mentions layout "storage"))
    (htypes : EndsIn P IsTypes (Ast.field layout "types"))
    (hstorage : mentions layout "storage" = .ok true →
      EndsIn P (fun xs => ∀ x ∈ xs, IsEntry x)
        (Ast.require layout "storage" >>= fun d => Fault.lift d.items))
    (hentry : ∀ types entry, IsTypes types → IsEntry entry →
      EndsIn P (fun _ => True) (ofEntry types entry)) :
    EndsIn P (fun _ => True) (ofLayout layout) := by
  refine hmentions.bind_eq fun mentioned hmentioned _ => .ite (fun _ => hinput _) fun htrue => ?_
  refine htypes.bind fun types ht => ?_
  have hmentioned : mentions layout "storage" = .ok true := by
    rw [hmentioned]
    simpa using htrue
  have hentries : ∀ entries : List Datum, (∀ x ∈ entries, IsEntry x) →
      EndsIn P (fun _ => True) (entries.mapM (ofEntry types)) := fun entries hx =>
    (EndsIn.mapM fun entry he => hentry types entry ht (hx entry he)).mono (fun _ h => h)
      fun _ _ => trivial
  have hends := (hstorage hmentioned).bind hentries
  rwa [bind_assoc] at hends

end Layouts

/-! ## Limits -/

/-- Limits from numbers are refused only as such. -/
theorem ends_make {P : Fault → Prop} (hinput : ∀ e, P (.input e)) (length depth : Nat) :
    EndsIn P (· = ⟨.ofNat length, .ofNat depth⟩) (Limits.make (.int length) (.int depth)) := by
  have horder : ∀ n : Nat, Bound.orderOfNumber (.int n) = .ok (compare (n : Int) 0) := fun _ => rfl
  unfold Limits.make
  simp only [horder, Fault.lift, ok_bind]
  refine .ite (fun hnegative => ?_) fun _ => .ite (fun _ => rfl) fun hzero => ?_
  · rw [Int.compare_eq_lt] at hnegative
    omega
  · rw [Int.compare_eq_gt] at hzero
    obtain rfl : depth = 0 := by omega
    exact hinput _

/-- Whether what options give as limits can be written, as it is given and as the number that it
stands for. -/
structure Options.WritableLimits (o : Options) : Prop where
  given : ∀ (name : OptionName) (d : Datum), name = .maxLength ∨ name = .maxDepth →
    o.get name = .value d → d.isWritable = true
  number : ∀ (name : OptionName) (n : Nat), name = .maxLength ∨ name = .maxDepth →
    o.limit? name Check.nonNegative = .ok (some n) → Text.isWritable n = true

/-- The number of a limit is read, or what is given instead is shown. -/
theorem ends_limit? {P : Fault → Prop} {o : Options} {name : OptionName}
    {check : Datum → Except InputError Nat} (hinput : ∀ e, P (.input e))
    (hcheck : ∀ {given : Datum} {e : InputError}, check given = .error e →
      e.check = given.checkText)
    (hgiven : ∀ d, o.get name = .value d → Shows P d.checkText) :
    EndsIn P (o.limit? name check = .ok ·) (Fault.lift (o.limit? name check)) := by
  cases hlimit : o.limit? name check with
  | ok n => rfl
  | error e =>
    refine Fault.holds_raised (hinput e) ?_
    unfold Options.limit? at hlimit
    split at hlimit
    next => cases hlimit
    next d _ hd =>
      rw [hcheck (map_eq_error.1 hlimit)]
      exact hgiven d hd
    next =>
      rw [hcheck (map_eq_error.1 hlimit)]
      exact shows_ok ⟨(), rfl⟩

/-- A limit that is positive is one that is not negative. -/
theorem limit?_nonNegative {o : Options} {name : OptionName} {n : Nat}
    (h : o.limit? name Check.positive = .ok (some n)) :
    o.limit? name Check.nonNegative = .ok (some n) := by
  unfold Options.limit? at h ⊢
  split at h
  next => cases h
  all_goals
    obtain ⟨m, hm, hsame⟩ := map_eq_ok.1 h
    cases hsame
    rw [Check.nonNegative_of_positive hm]
    rfl

theorem ends_limits {P : Fault → Prop} {o : Options} (hinput : ∀ e, P (.input e))
    (hgiven : ∀ (name : OptionName) (d : Datum), name = .maxLength ∨ name = .maxDepth →
      o.get name = .value d → Shows P d.checkText)
    (hnumber : ∀ (name : OptionName) (n : Nat), name = .maxLength ∨ name = .maxDepth →
      o.limit? name Check.nonNegative = .ok (some n) → Shows P (Datum.int n).checkText) :
    EndsIn P (fun _ => True) o.limits.result := by
  have hdefault : ∀ n : Nat, n < 2 ^ 256 → Shows P (Datum.int n).checkText := fun n hn =>
    shows_checkText (Text.isWritable_of_lt_word hn)
  have hwritten : ∀ n : Nat, Shows P (Datum.int n).checkText → Shows P (Datum.int n).written :=
    fun n hn => shows_bind hn fun _ => shows_ok ⟨_, rfl⟩
  unfold Options.limits
  rw [Traced.result_bind]
  refine EndsIn.bind (ends_limit? hinput Check.check_nonNegative fun d => hgiven _ d (.inl rfl))
    fun length hlength => ?_
  rw [Traced.result_bind]
  refine EndsIn.bind (ends_limit? hinput Check.check_positive fun d => hgiven _ d (.inr rfl))
    fun depth hdepth => ?_
  have hlengthShown : Shows P (Datum.int (length.getD 10000 : Nat)).checkText := by
    cases length with
    | none => exact hdefault 10000 (by decide)
    | some n => exact hnumber _ n (.inl rfl) hlength
  have hdepthShown : Shows P (Datum.int (depth.getD 64 : Nat)).checkText := by
    cases depth with
    | none => exact hdefault 64 (by decide)
    | some n => exact hnumber _ n (.inr rfl) (limit?_nonNegative hdepth)
  dsimp only
  rw [Traced.result_bind]
  refine EndsIn.bind (ends_make hinput _ _) fun limits hlimits => ?_
  rw [Traced.result_bind]
  subst hlimits
  have htext : Shows P (Limits.text ⟨.ofNat (length.getD 10000), .ofNat (depth.getD 64)⟩) :=
    shows_bind (hwritten _ hlengthShown) fun _ => shows_bind (hwritten _ hdepthShown) fun _ =>
      shows_ok ⟨_, rfl⟩
  exact EndsIn.bind htext fun _ _ => trivial

/-! ## Defects -/

section Defects

variable {α : Type}

/-- Whether a computation ends in values and defects of a dump only. -/
abbrev EndsInDumpDefect (x : Except Fault α) : Prop :=
  EndsIn Fault.IsDumpDefect (fun _ => True) x

theorem endsInDumpDefect_data (x : Except DataError α) : EndsInDumpDefect (Fault.lift x) :=
  EndsIn.lift (by cases x <;> trivial)

theorem isDumpDefect_ofInput (e : InputError) : Fault.IsDumpDefect (.ofInput e) :=
  Fault.holds_raised trivial (shows_of_data (fun _ => trivial) _)

theorem endsInDumpDefect_input (x : Except InputError α) : EndsInDumpDefect (Fault.lift x) := by
  cases x with
  | ok a => trivial
  | error e => exact isDumpDefect_ofInput e

theorem endsInDumpDefect_field (node : Datum) (name : String) :
    EndsInDumpDefect (Ast.field node name) :=
  Ast.ends_field (fun _ => trivial) node name

theorem endsInDumpDefect_require (node : Datum) (name : String) :
    EndsInDumpDefect (Ast.require node name) :=
  Ast.ends_require (fun _ => trivial) (fun _ => trivial) node name

theorem endsInDumpDefect_readText (tree : FileTree) (p : FilePath) :
    EndsInDumpDefect (tree.readText p) := by
  have hfind : EndsInDumpDefect (Fault.lift (tree.find? p)) :=
    EndsIn.lift (by cases tree.find? p <;> trivial)
  refine hfind.bind fun found _ => ?_
  split <;> trivial

theorem endsInDumpDefect_readJson (tree : FileTree) (p : FilePath) :
    EndsInDumpDefect (Dump.readJson tree p) := by
  refine (endsInDumpDefect_readText tree p).bind fun text _ => ?_
  split <;> trivial

theorem endsInDumpDefect_partsOfOutput (output : Datum) (file name : String) :
    EndsInDumpDefect (Dump.partsOfOutput output file name) := by
  refine (endsInDumpDefect_require output "contracts").bind fun contracts _ => ?_
  refine (endsInDumpDefect_require contracts file).bind fun contract _ => ?_
  refine (endsInDumpDefect_require contract name).bind fun parts _ => ?_
  refine (endsInDumpDefect_require parts "storageLayout").bind fun _ _ => ?_
  exact (endsInDumpDefect_require output "sources").bind fun _ _ => trivial

theorem endsInDumpDefect_splitContract (given : Datum) :
    EndsInDumpDefect (Dump.splitContract given) := by
  refine (endsInDumpDefect_data given.checkText).bind fun _ _ => ?_
  dsimp only
  split
  next => trivial
  next => exact isDumpDefect_ofInput _

theorem endsInDumpDefect_readOutput (tree : FileTree) (dumpFile : String)
    (data : List (String × Datum)) (given : Datum) :
    EndsInDumpDefect (Dump.readOutput tree dumpFile data given) := by
  refine (endsInDumpDefect_data given.asText).bind fun relative _ => ?_
  refine (endsInDumpDefect_readJson tree _).bind fun output _ => ?_
  refine (endsInDumpDefect_require _ "contract").bind fun contract _ => ?_
  refine (endsInDumpDefect_splitContract contract).bind fun parts _ => ?_
  dsimp only
  split
  next => exact isDumpDefect_ofInput _
  next => exact endsInDumpDefect_partsOfOutput _ _ _

theorem endsInDumpDefect_typeData (tree : FileTree) (dumpFile : String)
    (data : List (String × Datum)) : EndsInDumpDefect (Dump.typeData tree dumpFile data) := by
  unfold Dump.typeData
  split
  next => exact endsInDumpDefect_readOutput ..
  next =>
    refine (endsInDumpDefect_require _ "storageLayout").bind fun _ _ => ?_
    exact (endsInDumpDefect_require _ "sources").bind fun _ _ => trivial

theorem endsInDumpDefect_nodeId (ms : List (String × Datum)) :
    EndsInDumpDefect (Ast.nodeId ms) := by
  refine (endsInDumpDefect_input (Ast.idNumber _)).bind fun _ _ => ?_
  exact .ite (fun _ => trivial) fun _ => trivial

theorem endsInDumpDefect_add (index : Ast.Index) (ast : Datum) :
    EndsInDumpDefect (index.add ast) :=
  EndsIn.foldlM trivial fun _ _ ms _ => (endsInDumpDefect_nodeId ms).bind fun _ _ => trivial

theorem endsInDumpDefect_ofSources (sources : Datum) :
    EndsInDumpDefect (Ast.Index.ofSources sources).result := by
  unfold Ast.Index.ofSources
  rw [Traced.result_bind]
  refine EndsIn.bind (endsInDumpDefect_data sources.table) fun files _ => ?_
  rw [Traced.result_foldlM]
  refine EndsIn.foldlM trivial fun index _ source _ => ?_
  dsimp only
  split
  next =>
    split
    next ast _ =>
      rw [Traced.result_bind]
      exact endsInDumpDefect_add index ast
    next => trivial
  next => trivial

theorem endsInDumpDefect_mentions (d : Datum) (name : String) :
    EndsInDumpDefect (StateVariable.mentions d name) := by
  cases d <;> trivial

theorem endsInDumpDefect_describedType (types key : Datum) :
    EndsInDumpDefect (StateVariable.describedType types key) := by
  unfold StateVariable.describedType
  extract_lets +lift behind
  have hbehind : ∀ table, EndsInDumpDefect (behind table) := by
    intro table
    dsimp only [behind]
    split
    · trivial
    · exact .ite (fun _ => trivial) fun _ => trivial
  refine .ite (fun _ => ?_) fun _ => hbehind []
  exact (endsInDumpDefect_data types.table).bind fun table _ => hbehind table

theorem endsInDumpDefect_ofLayout (layout : Datum) :
    EndsInDumpDefect (StateVariable.ofLayout layout) := by
  have hor : ∀ {α : Type} {x : Except Fault α}, EndsInDumpDefect x →
      EndsIn (Fault.OrMissing Fault.IsDumpDefect) (fun _ => True) x :=
    fun h => h.mono (fun _ => .of) fun _ h => h
  refine ends_ofLayout (fun _ => trivial) (endsInDumpDefect_mentions layout "storage")
    (endsInDumpDefect_field layout "types") (fun _ => ?_)
    fun types entry (_ : True) (_ : True) => ?_
  · exact (endsInDumpDefect_require layout "storage").bind fun storage _ =>
      (endsInDumpDefect_data storage.items).mono (fun _ h => h) fun _ _ _ _ => trivial
  · have hshown : ∀ {α : Type} (x : Except DataError α),
        Shows (Fault.OrMissing Fault.IsDumpDefect) x := shows_of_data fun _ => trivial
    have hrequired : ∀ d name, EndsIn (Fault.OrMissing Fault.IsDumpDefect)
        (fun given => Shows (Fault.OrMissing Fault.IsDumpDefect) given.checkText)
        (Ast.require d name) :=
      fun d name => (hor (endsInDumpDefect_require d name)).mono (fun _ h => h) fun _ _ => hshown _
    refine ends_ofEntry (fun _ => trivial) (shows_of_data (fun _ => trivial) _) ?_
    exact ends_ofMembers (fun _ => trivial) (fun name => hor (endsInDumpDefect_field entry name))
      (hrequired entry) (fun _ _ _ _ => hshown _)
      (hor (endsInDumpDefect_require entry "type"))
      (fun key _ => hor (endsInDumpDefect_describedType types key))
      (fun d _ => hor (endsInDumpDefect_mentions d "numberOfBytes"))
      fun d _ => hrequired d "numberOfBytes"

theorem endsInDumpDefect_limits (o : Options) : EndsInDumpDefect o.limits.result :=
  ends_limits (fun _ => trivial) (fun _ _ _ _ => shows_of_data (fun _ => trivial) _)
    fun _ _ _ _ => shows_of_data (fun _ => trivial) _

end Defects

/-! ## Steps of reading -/

theorem FileTree.readText_of_file {tree : FileTree} {p : FilePath} {s : String}
    (h : tree.find? p = .ok (some (.file s))) : tree.readText p = .ok (Text.withLineFeeds s) := by
  unfold FileTree.readText
  rw [h]
  rfl

namespace Dump

variable {P : Fault → Prop} {tree : FileTree} {files : List Record → FileTree} {o : Options}
  {ms : List (String × Datum)} {path s : String}

/-- The members of a dump file that holds an object, unless a name is used twice. -/
theorem readMembers_eq (hfile : tree.find? (.ofText path) = .ok (some (.file s)))
    (hparse : Json.Five.parse (Text.withLineFeeds s) = .ok (.object ms)) :
    readMembers tree path = match Json.duplicate? (.object ms) with
      | some name => .error (.input (.badDumpText (FilePath.ofText path).text
          (Json.Five.errorText (Text.withLineFeeds s) (.duplicateName name))))
      | none => .ok ms := by
  unfold readMembers Json.Five.parseUnique
  simp only [hfile, Fault.lift, ok_bind, hparse]
  cases Json.duplicate? (.object ms) <;> rfl

theorem readJson_of_parse {p : FilePath} {text : String} {d : Datum}
    (hread : tree.readText p = .ok text) (hparse : Json.parse text = .ok d) :
    readJson tree p = .ok d := by
  unfold readJson
  rw [hread, ok_bind, hparse]
  rfl

theorem of_checkData {data : List (String × Datum)} (h : Options.checkData data = .ok ()) :
    (∃ words, Datum.find? "storage" data = some (.object words)) ∧
      ((Datum.find? "solc_output" data = none ∨ Datum.find? "contract" data = none) →
        ∃ layout sources, Datum.find? "storageLayout" data = some layout ∧
          Datum.find? "sources" data = some sources) := by
  unfold Options.checkData at h
  dsimp only at h
  split at h
  next => cases h
  next words hwords =>
    refine ⟨⟨words, hwords⟩, fun hnone => ?_⟩
    split at h
    next => cases h
    next hne =>
      have hoff : ((Datum.find? "solc_output" data).isSome &&
          (Datum.find? "contract" data).isSome) = false := by
        rcases hnone with hnone | hnone <;> simp [hnone]
      rw [hoff] at hne
      have hon := (Bool.not_eq_false _).mp hne
      rw [Bool.and_eq_true, Option.isSome_iff_exists, Option.isSome_iff_exists] at hon
      obtain ⟨⟨sources, hsources⟩, layout, hlayout⟩ := hon
      exact ⟨layout, sources, hlayout, hsources⟩
  next => cases h

/-- Reading the dump file yields data that has words and something that gives them meaning. -/
theorem ends_readFile (hinput : ∀ e, P (.input e))
    (hfile : tree.find? (.ofText o.dumpFile) = .ok (some (.file s)))
    (hparse : Json.Five.parse (Text.withLineFeeds s) = .ok (.object ms)) (ho : o.AllShow P)
    (hmembers : ∀ m ∈ ms, Options.Admits P m.1 m.2) :
    EndsIn P (fun data => data = Options.dataOf ms ∧ Options.checkData data = .ok ())
      (readFile tree o).2.result := by
  unfold readFile
  rw [readMembers_eq hfile hparse]
  cases Json.duplicate? (.object ms) with
  | some name => exact hinput _
  | none =>
    dsimp only
    have hmerge : EndsIn P (fun data => data = Options.dataOf ms ∧ Options.checkData data = .ok ())
        (o.merge ms).2.result := by
      unfold Options.merge
      dsimp only
      rw [Traced.result_bind]
      refine (Options.ends_absorbAll hinput ho hmembers).bind fun data hdata => ?_
      rw [Traced.result_bind]
      cases hcheck : Options.checkData data with
      | error e =>
        have hplain : Fault.ofInput e = .input e :=
          Fault.ofInput_of_check (Options.check_checkData hcheck)
        change P (.ofInput e)
        exact hplain ▸ hinput e
      | ok => exact ⟨hdata, hcheck⟩
    change EndsIn P _ ((o.merge ms).2.result.mapError (inFile o.dumpFile))
    cases hresult : (o.merge ms).2.result with
    | ok data => exact hmerge.of_ok hresult
    | error e =>
      have hends := hmerge.of_error hresult
      cases e with
      | input e => exact hinput _
      | _ => exact hends

/-- Only the data of a dump file says where its layout and its sources are. -/
theorem typeData_dataOf (tree : FileTree) (dumpFile : String) (ms : List (String × Datum)) :
    typeData tree dumpFile (Options.dataOf ms) = typeData tree dumpFile ms := by
  have hfind : ∀ name, Options.dataNames.contains name = true →
      Datum.find? name (Options.dataOf ms) = Datum.find? name ms :=
    fun name h => Options.find?_dataOf h ms
  have hrequire : ∀ name, Options.dataNames.contains name = true →
      Ast.require (.object (Options.dataOf ms)) name = Ast.require (.object ms) name := by
    intro name h
    unfold Ast.require
    dsimp only
    rw [hfind name h]
  unfold typeData readOutput
  rw [hfind "solc_output" (by decide), hrequire "contract" (by decide),
    hrequire "storageLayout" (by decide), hrequire "sources" (by decide)]

/-- What a dump is made of: the words, and the layout and sources that the dump file gives. -/
structure MadeOf (tree : FileTree) (dumpFile : String) (hashed : Bool)
    (ms : List (String × Datum)) (dump : Dump) : Prop where
  words : ∃ words, Datum.find? "storage" ms = some (.object words) ∧
    Store.ofDump words hashed = .ok dump.store
  types : ∃ layout sources, typeData tree dumpFile ms = .ok (layout, sources) ∧
    (Ast.Index.ofSources sources).result = .ok dump.index ∧
    StateVariable.ofLayout layout = .ok dump.state

/-- The files as they are when the dump file has been read. -/
def treeBehind (files : List Record → FileTree) (o : Options) : FileTree :=
  files (readFile (files []) o).2.trace

/-- Words are refused one by one, and what is shown is the word. -/
theorem check_ofDump {words : List (String × Datum)} {hashed : Bool} {e : InputError}
    (hwords : ∀ entry ∈ words, Shows P entry.2.checkText)
    (h : Store.ofDump words hashed = .error e) : Shows P e.check := by
  have hentry : ∀ entry ∈ words, EndsIn (fun e : InputError => Shows P e.check) (fun _ => True)
      (Store.entryOfDump entry) := by
    intro entry hentry
    unfold Store.entryOfDump
    cases hslot : Check.slot (.text entry.1) with
    | error e =>
      change Shows P e.check
      rw [Check.check_slot hslot]
      exact shows_ok ⟨(), rfl⟩
    | ok slot =>
      cases hword : Check.word entry.2 with
      | error e =>
        change Shows P e.check
        rw [Check.check_word hword]
        exact hwords entry hentry
      | ok word => trivial
  have hall : EndsIn (fun e : InputError => Shows P e.check) (fun _ => True)
      (Store.ofDump words hashed) := (EndsIn.mapM hentry).bind fun _ _ => trivial
  exact hall.of_error h

theorem ends_read {IsPart : Datum → Datum → Prop} (hinput : ∀ e, P (.input e))
    (hfile : EndsIn P (fun data => data = Options.dataOf ms ∧ Options.checkData data = .ok ())
      (readFile (files []) o).2.result)
    (htypes : Options.checkData (Options.dataOf ms) = .ok () →
      EndsIn P (fun parts => IsPart parts.1 parts.2) (typeData (treeBehind files o) o.dumpFile ms))
    (hsources : ∀ layout sources, IsPart layout sources →
      EndsIn P (fun _ => True) (Ast.Index.ofSources sources).result)
    (hlayout : ∀ layout sources, IsPart layout sources →
      EndsIn P (fun _ => True) (StateVariable.ofLayout layout))
    (hwords : ∀ words entry, Datum.find? "storage" ms = some (.object words) → entry ∈ words →
      Shows P entry.2.checkText)
    (hlimits : EndsIn P (fun _ => True) (readFile (files []) o).1.limits.result) :
    EndsIn P
      (MadeOf (treeBehind files o) o.dumpFile ((readFile (files []) o).1.isOn .hashedKeys) ms)
      (read files o).2.result := by
  unfold read
  dsimp only
  rw [Traced.result_bind]
  refine hfile.bind fun data hdata => ?_
  obtain ⟨rfl, hcheck⟩ := hdata
  rw [Traced.result_bind]
  change EndsIn P _ (typeData (treeBehind files o) o.dumpFile (Options.dataOf ms) >>= _)
  rw [typeData_dataOf]
  refine (htypes hcheck).bind_eq fun parts hparts hpart => ?_
  obtain ⟨⟨words, hfind⟩, -⟩ := of_checkData hcheck
  have hstorage : Datum.find? "storage" ms = some (.object words) := by
    rwa [Options.find?_dataOf (by decide)] at hfind
  rw [Traced.result_bind, hfind]
  refine EndsIn.bind_eq (Q := (· = words)) rfl fun words' _ hsame => ?_
  subst hsame
  rw [Traced.result_bind]
  cases hstore : Store.ofDump words' ((readFile (files []) o).1.isOn .hashedKeys) with
  | error e =>
    exact Fault.holds_raised (hinput e)
      (check_ofDump (fun entry hentry => hwords _ entry hstorage hentry) hstore)
  | ok store =>
    refine EndsIn.bind (Q := (· = store)) rfl fun store' hsame => ?_
    subst hsame
    rw [Traced.result_bind]
    refine EndsIn.bind (Q := fun _ => True) trivial fun _ _ => ?_
    rw [Traced.result_bind]
    refine (hsources _ _ hpart).bind_eq fun index hindex _ => ?_
    rw [Traced.result_bind]
    refine EndsIn.bind_eq (hlayout _ _ hpart) fun state hstate _ => ?_
    rw [Traced.result_bind]
    refine hlimits.bind fun limits _ => ?_
    exact ⟨⟨words', hstorage, hstore⟩,
      parts.1, parts.2, hparts, hindex, hstate⟩

end Dump

end StorageSnapshot

-- SUMMARY: What merging a dump file into the options of a command line comes to, in any order.
import Mathlib
import StorageSnapshot.Proofs.DatumEq
import StorageSnapshot.Proofs.MergedOption
import StorageSnapshot.Proofs.OptionValues
import StorageSnapshot.Proofs.Spelling

/-!
# The outcome of merging

A dump file is merged member by member, but what becomes of a member does not depend on the others:
data are kept, an unset option takes the value that its member means, and a set one stays as it is,
with a warning if it differs. So the outcome is said for each member on its own, and the order of
the members does not matter.
-/

namespace StorageSnapshot

/-- An item is found under its name if no other one has this name. -/
theorem Datum.find?_eq_some_iff_mem {ms : List (String × Datum)} (hnames : (ms.map Prod.fst).Nodup)
    {name : String} {d : Datum} : Datum.find? name ms = some d ↔ (name, d) ∈ ms := by
  induction ms with
  | nil => simp [find?]
  | cons m ms ih =>
    obtain ⟨k, v⟩ := m
    rw [List.map_cons, List.nodup_cons] at hnames
    rw [find?, List.mem_cons, Prod.mk.injEq]
    split
    next hk =>
      subst hk
      have hfresh : (k, d) ∉ ms := fun h => hnames.1 (List.mem_map.2 ⟨_, h, rfl⟩)
      simp [hfresh, eq_comm]
    next hk => simp [ih hnames.2, Ne.symm hk]

namespace Options

variable {o : Options} {name : OptionName} {given v : Datum} {ms : List (String × Datum)}

/-! ## Members -/

/-- Whether a name stands for nothing: neither for data nor for anything that options have. -/
structure IsUnknown (member : String) : Prop where
  data : ¬dataNames.contains member = true
  option : OptionName.ofText? member = none
  reserved : Reserved.ofText? member = none

/-- Whether a name is that of data or of an option whose value is checked, or stands for nothing. -/
inductive IsPlain (member : String) : Prop
  | data (h : dataNames.contains member = true)
  | option {name : OptionName} (h : OptionName.ofText? member = some name)
    (hname : isChecked name = true)
  | unknown (h : IsUnknown member)

/-- Whether what a member gives an option can be written, and so can what it means. -/
def IsWritable (m : String × Datum) : Prop :=
  ∀ name, OptionName.ofText? m.1 = some name → m.2.isWritable = true ∧
    ∀ v, checked name m.2 = .ok v → v.isWritable = true

/-- Whether a member is data, or gives an option a value that passes its check. -/
inductive IsTaken (m : String × Datum) : Prop
  | data (h : dataNames.contains m.1 = true)
  | option {name : OptionName} {v : Datum} (h : OptionName.ofText? m.1 = some name)
    (hname : isChecked name = true) (hv : checked name m.2 = .ok v)

/-- Whether a member gives an option that is set a value that differs from its own. -/
def Overridden (o : Options) (m : String × Datum) : Prop :=
  ∃ name v, OptionName.ofText? m.1 = some name ∧ checked name m.2 = .ok v ∧
    (o.get name).isUnset = false ∧ o.get name ≠ .value v

/-- Whether a record tells that the value of a set option overrides that of a member. -/
def Tells (o : Options) (m : String × Datum) (r : Record) : Prop :=
  ∃ name v mine theirs, OptionName.ofText? m.1 = some name ∧ checked name m.2 = .ok v ∧
    (o.get name).text = .ok mine ∧ Setting.listing v = .ok theirs ∧
    r = ⟨Topic.options, .warning, "Note: attribute " ++ m.1 ++ " value in CLI (" ++ mine ++
      ") overrides value stored in conf file (" ++ theirs ++ ")"⟩

/-- Whether records are one warning for each member that is overridden, in their order. -/
inductive Warns (o : Options) : List (String × Datum) → List Record → Prop
  | nil : Warns o [] []
  | silent {m : String × Datum} {ms : List (String × Datum)} {trace : List Record}
    (hm : ¬o.Overridden m) (h : Warns o ms trace) : Warns o (m :: ms) trace
  | warning {m : String × Datum} {ms : List (String × Datum)} {trace : List Record} {r : Record}
    (hm : o.Overridden m) (hr : o.Tells m r) (h : Warns o ms trace) :
    Warns o (m :: ms) (r :: trace)

/-- What options are after members have been merged into them. -/
structure Settled (o : Options) (ms : List (String × Datum)) (o' : Options) : Prop where
  given : ∀ m ∈ ms, ∀ name v, OptionName.ofText? m.1 = some name → checked name m.2 = .ok v →
    o'.get name = if (o.get name).isUnset then .value v else o.get name
  absent : ∀ name, (∀ m ∈ ms, m.1 ≠ name.text) → o'.get name = o.get name
  dumpFile : o'.dumpFile = o.dumpFile
  mark : o'.mark = o.mark

/-! ## Taking in members -/

theorem ofText?_of_data {member : String} (h : dataNames.contains member = true) :
    OptionName.ofText? member = none ∧ Reserved.ofText? member = none := by
  have hmember : member ∈ dataNames := by simpa using h
  have hall : ∀ member ∈ dataNames,
      OptionName.ofText? member = none ∧ Reserved.ofText? member = none := by
    intro member hmember
    simp only [dataNames, List.mem_cons, List.not_mem_nil, or_false] at hmember
    rcases hmember with rfl | rfl | rfl | rfl | rfl <;> exact ⟨by decide, rfl⟩
  exact hall member hmember

theorem reserved_text (name : OptionName) : Reserved.ofText? name.text = none := by
  cases name <;> rfl

/-- No option but the one that a member names depends on it. -/
theorem IsTaken.isBeside {m : String × Datum} (h : IsTaken m) (hm : m.1 ≠ name.text) :
    IsBeside name m.1 := by
  have hreserved : Reserved.ofText? m.1 = none := by
    cases h with
    | data h => exact (ofText?_of_data h).2
    | option h => exact eq_text_of_ofText h ▸ reserved_text _
  refine ⟨hm, fun meaning hmeaning => ?_⟩
  rw [hreserved] at hmeaning
  cases hmeaning

theorem IsTaken.isPlain {m : String × Datum} (h : IsTaken m) : IsPlain m.1 := by
  cases h with
  | data h => exact .data h
  | option h hname => exact .option h hname

theorem not_overridden_of_data {m : String × Datum} (h : dataNames.contains m.1 = true) :
    ¬o.Overridden m := by
  rintro ⟨name, v, hname, -⟩
  cases (ofText?_of_data h).1.symm.trans hname

/-- Whether a member that gives an option a value is overridden. -/
theorem overridden_iff {m : String × Datum} (hname : OptionName.ofText? m.1 = some name)
    (hv : checked name m.2 = .ok v) :
    o.Overridden m ↔ (o.get name).isUnset = false ∧ o.get name ≠ .value v := by
  constructor
  · rintro ⟨name', v', hname', hv', h⟩
    cases hname.symm.trans hname'
    cases hv.symm.trans hv'
    exact h
  · exact fun h => ⟨name, v, hname, hv, h⟩

theorem Settled.data {o' : Options} {m : String × Datum} (h : Settled o ms o')
    (hm : dataNames.contains m.1 = true) : Settled o (m :: ms) o' := by
  refine ⟨?_, fun name habsent => h.absent name (List.forall_mem_cons.1 habsent).2, h.dumpFile,
    h.mark⟩
  refine List.forall_mem_cons.2 ⟨fun name v hname => ?_, h.given⟩
  cases (ofText?_of_data hm).1.symm.trans hname

/-- A member that gives a set option a value leaves it as it is. -/
theorem Settled.keep {o' : Options} {m : String × Datum} (h : Settled o ms o')
    (hname : OptionName.ofText? m.1 = some name) (hset : (o.get name).isUnset = false)
    (hfresh : ∀ m' ∈ ms, m'.1 ≠ m.1) : Settled o (m :: ms) o' := by
  refine ⟨?_, fun name habsent => h.absent name (List.forall_mem_cons.1 habsent).2, h.dumpFile,
    h.mark⟩
  refine List.forall_mem_cons.2 ⟨fun name' v hname' _ => ?_, h.given⟩
  cases hname.symm.trans hname'
  rw [h.absent name fun m' hm' => eq_text_of_ofText hname ▸ hfresh m' hm', hset]
  rfl

/-- A member that gives an unset option a value sets it. -/
theorem Settled.set {o' : Options} {m : String × Datum} (h : Settled o ms o')
    (hname : OptionName.ofText? m.1 = some name) (hv : checked name m.2 = .ok v)
    (hunset : (o.get name).isUnset = true) (hfresh : ∀ m' ∈ ms, m'.1 ≠ m.1) :
    Settled o (m :: ms) (o'.set name (.value v)) := by
  have htext := eq_text_of_ofText hname
  refine ⟨List.forall_mem_cons.2
      ⟨fun name' v' hname' hv' => ?_, fun m' hm' name' v' hname' hv' => ?_⟩,
    fun name' habsent => ?_, h.dumpFile, h.mark⟩
  · cases hname.symm.trans hname'
    cases hv.symm.trans hv'
    rw [get_set_self, hunset]
    rfl
  · have hne : name' ≠ name := by
      rintro rfl
      exact hfresh m' hm' ((eq_text_of_ofText hname').symm.trans htext)
    rw [get_set_of_ne hne]
    exact h.given m' hm' name' v' hname' hv'
  · obtain ⟨hm, hms⟩ := List.forall_mem_cons.1 habsent
    have hne : name' ≠ name := by
      rintro rfl
      exact hm htext.symm
    rw [get_set_of_ne hne]
    exact h.absent name' hms

theorem absorb_of_set (hv : checked name given = .ok v) (hset : (o.get name).isUnset = false) :
    o.absorb name given =
      o.keep name.text ((o.get name).equals v) (o.get name).text v := by
  unfold absorb
  rw [hv]
  change (if (o.get name).isUnset = true then _ else _ : Traced Fault Options) = _
  rw [if_neg (by simp [hset])]

theorem keep_of_ne {member mine theirs : String} (hmine : (o.get name).text = .ok mine)
    (htheirs : Setting.listing v = .ok theirs) :
    o.keep member false (o.get name).text v =
      ⟨[⟨Topic.options, .warning, "Note: attribute " ++ member ++ " value in CLI (" ++ mine ++
        ") overrides value stored in conf file (" ++ theirs ++ ")"⟩], .ok o⟩ := by
  unfold keep
  rw [hmine, htheirs]
  rfl

theorem not_data_text (name : OptionName) : ¬dataNames.contains name.text = true := by
  cases name <;> decide

theorem absorbMember?_text (o : Options) (name : OptionName) (given : Datum) :
    o.absorbMember? name.text given = some (o.absorb name given) := by
  unfold absorbMember?
  rw [ofText_text]

/-- A number in a dump file that overrides none is told of, which takes one that can be written. -/
theorem absorb_of_unwritable {mine n : Nat} (hv : checked name given = .ok (.int n))
    (hset : o.get name = .value (.int mine)) (hmine : Text.isWritable mine = true)
    (hn : Text.isWritable n = false) (hne : mine ≠ n) :
    (o.absorb name given).result = .error (.data .unwritable) := by
  have hmineText : (o.get name).text = .ok (Text.decimal mine) := by
    rw [hset]
    exact bind_eq_ok.2 ⟨(), Datum.checkText_eq_ok.2 hmine, rfl⟩
  have hcheck : (Datum.int n).checkText = .error .unwritable := Datum.checkText_eq_error.2 hn
  have hlisting : Setting.listing (.int n) = .error .unwritable := by
    unfold Setting.listing
    dsimp only
    rw [hcheck]
    rfl
  have hequals : (o.get name).equals (.int n) = false := by
    rw [hset]
    simp [Setting.equals, Datum.same, Datum.integer?, hne]
  rw [absorb_of_set hv (by rw [hset]; rfl), hequals, keep, hmineText, hlisting]
  rfl

theorem checked_maxLength {s : String} {n : Nat} (h : Text.IsNumeral s n) :
    checked .maxLength (.text s) = .ok (.int n) := by
  unfold checked Check.nonNegative
  rw [Text.toInteger_of_isNumeral h]
  rfl

theorem exists_of_shows {text : Except DataError String} (h : Shows (fun _ => False) text) :
    ∃ s, text = .ok s := by
  cases text with
  | ok s => exact ⟨s, rfl⟩
  | error e => exact h.elim

/-- What a command line leaves of options: settings of their kinds, which can be shown. -/
structure IsFromWords (o : Options) : Prop where
  shows : o.AllShow fun _ => False
  parsed : ∀ name, IsParsed name (o.get name)

/-- Members that are taken in leave their data and the options that are settled by them. -/
theorem absorbAll_taken (ho : o.IsFromWords) (hnames : (ms.map Prod.fst).Nodup)
    (hwritable : ∀ m ∈ ms, IsWritable m) (h : ∀ m ∈ ms, IsTaken m) :
    ∃ trace, (o.absorbAll ms).2 = ⟨trace, .ok (dataOf ms)⟩ ∧ Warns o ms trace ∧
      Settled o ms (o.absorbAll ms).1 := by
  induction ms with
  | nil => exact ⟨[], rfl, .nil, nofun, fun _ _ => rfl, rfl, rfl⟩
  | cons m ms ih =>
    rw [List.map_cons, List.nodup_cons] at hnames
    obtain ⟨hm, hms⟩ := List.forall_mem_cons.1 h
    have hfresh : ∀ m' ∈ ms, m'.1 ≠ m.1 := fun m' hm' hsame =>
      hnames.1 (hsame ▸ List.mem_map_of_mem hm')
    obtain ⟨hmember, hmembers⟩ := List.forall_mem_cons.1 hwritable
    obtain ⟨trace, hrest, hwarns, hsettled⟩ := ih hnames.2 hmembers hms
    obtain ⟨member, given⟩ := m
    cases hm with
    | data hdata =>
      refine ⟨trace, ?_, .silent (not_overridden_of_data hdata) hwarns, ?_⟩
      · rw [absorbAll_of_data hdata, Traced.map_eq, hrest, dataOf_cons_of_data hdata]
        rfl
      · rw [absorbAll_of_data hdata]
        exact hsettled.data hdata
    | @option name v hname hchecked hv =>
      obtain rfl := eq_text_of_ofText hname
      have hdata := not_data_text name
      rw [dataOf_cons_of_option hdata]
      cases hset : (o.get name).isUnset with
      | true =>
        have hbeside : ∀ m ∈ ms, IsBeside name m.1 := fun m hm => (hms m hm).isBeside (hfresh m hm)
        have hsilent : ¬o.Overridden (name.text, given) := fun hover => by
          simp [((overridden_iff hname hv).1 hover).1] at hset
        rw [absorbAll_option hv hset, absorbAll_set hbeside]
        exact ⟨trace, hrest, .silent hsilent hwarns, hsettled.set hname hv hset hfresh⟩
      | false =>
        have hstep := absorbMember?_text o name given
        rw [absorb_of_set hv hset] at hstep
        have hequal := equals_iff hchecked (ho.parsed name) (isOfKind_of_checked hchecked hv)
        cases hsame : (o.get name).equals v with
        | true =>
          rw [hsame] at hstep
          have hsilent : ¬o.Overridden (name.text, given) := fun hover =>
            ((overridden_iff hname hv).1 hover).2 (hequal.1 hsame)
          rw [absorbAll_of_ok hdata hstep rfl, hrest]
          exact ⟨trace, rfl, .silent hsilent hwarns, hsettled.keep hname hset hfresh⟩
        | false =>
          have hdiffers : o.Overridden (name.text, given) := by
            refine (overridden_iff hname hv).2 ⟨hset, fun heq => ?_⟩
            simp [hequal.2 heq] at hsame
          obtain ⟨mine, hmine⟩ := exists_of_shows (ho.shows.settings name).alone
          obtain ⟨theirs, htheirs⟩ := exists_of_shows
            (isShown_checked hchecked hv ((hmember name hname).2 v hv)).alone
          rw [hsame, keep_of_ne hmine htheirs] at hstep
          rw [absorbAll_of_ok hdata hstep rfl, hrest]
          exact ⟨_ :: trace, rfl, .warning hdiffers
            ⟨name, v, mine, theirs, hname, hv, hmine, htheirs, rfl⟩ hwarns,
            hsettled.keep hname hset hfresh⟩

/-! ## What has to be given -/

/-- Whether members give a name a value. -/
def Gives (ms : List (String × Datum)) (member : String) : Prop := ∃ d, (member, d) ∈ ms

/-- Whether the data among members suffice: they hold words, and exactly one source of types. -/
structure HasData (ms : List (String × Datum)) : Prop where
  storage : ∃ words, ("storage", Datum.object words) ∈ ms
  sources : Xor (Gives ms "sources" ∧ Gives ms "storageLayout")
    (Gives ms "solc_output" ∧ Gives ms "contract")

/-- Types that stand beside the words suffice, if no contract of an output is named. -/
theorem HasData.of_inline {words : List (String × Datum)} {sources layout : Datum}
    (hstorage : ("storage", .object words) ∈ ms) (hsources : ("sources", sources) ∈ ms)
    (hlayout : ("storageLayout", layout) ∈ ms) (hcontract : ¬Gives ms "contract") : HasData ms :=
  ⟨⟨words, hstorage⟩, .inl ⟨⟨⟨sources, hsources⟩, ⟨layout, hlayout⟩⟩, fun h => hcontract h.2⟩⟩

/-- Whether every name is known and every value of an option valid, and the data suffice. -/
structure Passes (ms : List (String × Datum)) : Prop extends HasData ms where
  known : ∀ m ∈ ms, ¬IsUnknown m.1
  valid : ∀ m ∈ ms, ∀ name, OptionName.ofText? m.1 = some name → ∃ v, checked name m.2 = .ok v

theorem checkData_dataOf_iff (hnames : (ms.map Prod.fst).Nodup) :
    checkData (dataOf ms) = .ok () ↔ HasData ms := by
  have hgiven {member : String} (hmember : dataNames.contains member = true) :
      (Datum.find? member (dataOf ms)).isSome = true ↔ Gives ms member := by
    rw [find?_dataOf hmember, Option.isSome_iff_exists]
    exact exists_congr fun d => Datum.find?_eq_some_iff_mem hnames
  have hsources : ((Datum.find? "sources" (dataOf ms)).isSome &&
      (Datum.find? "storageLayout" (dataOf ms)).isSome) =
        ((Datum.find? "solc_output" (dataOf ms)).isSome &&
          (Datum.find? "contract" (dataOf ms)).isSome) ↔
      ¬Xor (Gives ms "sources" ∧ Gives ms "storageLayout")
        (Gives ms "solc_output" ∧ Gives ms "contract") := by
    rw [Bool.eq_iff_iff, Bool.and_eq_true, Bool.and_eq_true, hgiven (by decide),
      hgiven (by decide), hgiven (by decide), hgiven (by decide), not_xor]
  have hstorage (d : Datum) : Datum.find? "storage" (dataOf ms) = some d ↔ ("storage", d) ∈ ms := by
    rw [find?_dataOf (by decide), Datum.find?_eq_some_iff_mem hnames]
  unfold checkData
  dsimp only
  constructor
  · intro h
    split at h
    next => cases h
    next words hwords =>
      split at h
      next => cases h
      next hdiffer => exact ⟨⟨words, (hstorage _).1 hwords⟩, not_not.1 (mt hsources.2 hdiffer)⟩
    next => cases h
  · rintro ⟨⟨words, hwords⟩, hone⟩
    rw [(hstorage _).2 hwords]
    exact if_neg fun hsame => hsources.1 hsame hone

/-! ## Merging -/

theorem result_merge (o : Options) (ms : List (String × Datum)) :
    (o.merge ms).2.result =
      (o.absorbAll ms).2.result >>= fun data =>
        Fault.lift (checkData data) >>= fun _ => .ok data := by
  unfold merge
  rw [Traced.result_bind]
  congr 1
  funext data
  rw [Traced.result_bind]
  rfl

theorem trace_merge (o : Options) (ms : List (String × Datum)) :
    (o.merge ms).2.trace = (o.absorbAll ms).2.trace := by
  unfold merge
  dsimp only
  cases h : (o.absorbAll ms).2.result with
  | error e => rw [Traced.bind_of_error h]
  | ok data =>
    rw [Traced.bind_of_ok h]
    cases checkData data <;> exact List.append_nil _

/-- A dump file is only taken in if each of its members is. -/
theorem isTaken_of_absorbAll {data : List (String × Datum)} (hplain : ∀ m ∈ ms, IsPlain m.1)
    (h : (o.absorbAll ms).2.result = .ok data) : ∀ m ∈ ms, IsTaken m := by
  induction ms generalizing o data with
  | nil => nofun
  | cons m ms ih =>
    obtain ⟨member, given⟩ := m
    obtain ⟨hm, hms⟩ := List.forall_mem_cons.1 hplain
    cases hm with
    | data hdata =>
      rw [absorbAll_of_data hdata, Traced.result_map] at h
      obtain ⟨rest, hrest, -⟩ := map_eq_ok.1 h
      exact List.forall_mem_cons.2 ⟨.data hdata, ih hms hrest⟩
    | unknown hunknown =>
      have hstep : o.absorbMember? member given = none := by
        unfold absorbMember?
        rw [hunknown.option, hunknown.reserved]
        rfl
      rw [absorbAll_of_unknown hunknown.data hstep] at h
      cases h
    | @option name hname hchecked =>
      obtain rfl := eq_text_of_ofText hname
      have hdata := not_data_text name
      have hstep := absorbMember?_text o name given
      cases hv : checked name given with
      | error e =>
        have herror : ∃ fault, (o.absorb name given).result = .error fault := by
          unfold absorb
          rw [hv]
          exact ⟨_, rfl⟩
        obtain ⟨fault, herror⟩ := herror
        rw [absorbAll_of_error hdata hstep herror] at h
        cases h
      | ok v =>
        cases hresult : (o.absorb name given).result with
        | error e =>
          rw [absorbAll_of_error hdata hstep hresult] at h
          cases h
        | ok next =>
          rw [absorbAll_of_ok hdata hstep hresult] at h
          exact List.forall_mem_cons.2 ⟨.option hname hchecked hv, ih hms h⟩

theorem Passes.isTaken (h : Passes ms) (hplain : ∀ m ∈ ms, IsPlain m.1) : ∀ m ∈ ms, IsTaken m := by
  intro m hm
  cases hplain m hm with
  | data hdata => exact .data hdata
  | @option name hname hchecked =>
    obtain ⟨v, hv⟩ := h.valid m hm name hname
    exact .option hname hchecked hv
  | unknown hunknown => exact absurd hunknown (h.known m hm)

theorem Passes.of_isTaken (hdata : HasData ms) (h : ∀ m ∈ ms, IsTaken m) : Passes ms := by
  refine ⟨hdata, fun m hm hunknown => ?_, fun m hm name hname => ?_⟩
  · cases h m hm with
    | data hmember => exact hunknown.data hmember
    | option hname => cases hunknown.option.symm.trans hname
  · cases h m hm with
    | data hmember => cases (ofText?_of_data hmember).1.symm.trans hname
    | @option name' v hname' _ hv =>
      cases hname.symm.trans hname'
      exact ⟨v, hv⟩

theorem Passes.perm {ms' : List (String × Datum)} (h : Passes ms) (hperm : ms'.Perm ms) :
    Passes ms' := by
  have hgives (member : String) : Gives ms member ↔ Gives ms' member :=
    exists_congr fun d => hperm.mem_iff.symm
  refine ⟨⟨?_, ?_⟩, ?_, ?_⟩
  · exact h.storage.imp fun words => hperm.mem_iff.2
  · simpa only [hgives] using h.sources
  · exact fun m hm => h.known m (hperm.mem_iff.1 hm)
  · exact fun m hm => h.valid m (hperm.mem_iff.1 hm)

/-- Options are settled in one way, whatever the order of the members. -/
theorem Settled.unique {ms' : List (String × Datum)} {o₁ o₂ : Options} (h₁ : Settled o ms o₁)
    (h₂ : Settled o ms' o₂) (hperm : ms'.Perm ms) (htaken : ∀ m ∈ ms, IsTaken m) : o₂ = o₁ := by
  have hget : o₂.get = o₁.get := by
    funext name
    by_cases hgiven : ∃ m ∈ ms, m.1 = name.text
    · obtain ⟨m, hm, hname⟩ := hgiven
      cases htaken m hm with
      | data hdata => exact absurd (hname ▸ hdata) (not_data_text name)
      | @option name' v hname' _ hv =>
        obtain rfl : name = name' := by
          rw [hname, ofText_text, Option.some.injEq] at hname'
          exact hname'
        rw [h₁.given m hm name v hname' hv, h₂.given m (hperm.mem_iff.2 hm) name v hname' hv]
    · have habsent : ∀ m ∈ ms, m.1 ≠ name.text := fun m hm hname => hgiven ⟨m, hm, hname⟩
      rw [h₁.absent name habsent, h₂.absent name fun m hm => habsent m (hperm.mem_iff.1 hm)]
  obtain ⟨dumpFile, get, mark⟩ := o₁
  obtain ⟨dumpFile', get', mark'⟩ := o₂
  cases hget
  cases h₁.dumpFile.trans h₂.dumpFile.symm
  cases h₁.mark.trans h₂.mark.symm
  rfl

/-- Members that pass are merged. -/
theorem merge_of_passes (ho : o.IsFromWords) (hnames : (ms.map Prod.fst).Nodup)
    (hplain : ∀ m ∈ ms, IsPlain m.1) (hwritable : ∀ m ∈ ms, IsWritable m) (h : Passes ms) :
    (o.merge ms).2.result = .ok (dataOf ms) ∧ Settled o ms (o.merge ms).1 ∧
      Warns o ms (o.merge ms).2.trace := by
  obtain ⟨trace, habsorb, hwarns, hsettled⟩ :=
    absorbAll_taken ho hnames hwritable (h.isTaken hplain)
  refine ⟨?_, hsettled, ?_⟩
  · rw [result_merge, habsorb, ok_bind, (checkData_dataOf_iff hnames).2 h.toHasData]
    rfl
  · rw [trace_merge, habsorb]
    exact hwarns

theorem passes_of_merge {data : List (String × Datum)} (ho : o.IsFromWords)
    (hnames : (ms.map Prod.fst).Nodup) (hplain : ∀ m ∈ ms, IsPlain m.1)
    (hwritable : ∀ m ∈ ms, IsWritable m) (h : (o.merge ms).2.result = .ok data) : Passes ms := by
  rw [result_merge] at h
  obtain ⟨found, hfound, hcheck⟩ := bind_eq_ok.1 h
  obtain ⟨⟨⟩, hcheck, -⟩ := bind_eq_ok.1 hcheck
  have htaken := isTaken_of_absorbAll hplain hfound
  obtain ⟨trace, habsorb, -⟩ := absorbAll_taken ho hnames hwritable htaken
  cases hfound.symm.trans (congrArg Traced.result habsorb)
  have hdata : checkData (dataOf ms) = .ok () := by
    cases hdata : checkData (dataOf ms) with
    | ok => rfl
    | error e =>
      rw [hdata] at hcheck
      cases hcheck
  exact .of_isTaken ((checkData_dataOf_iff hnames).1 hdata) htaken

/-- A plain name is not reserved, and each option that it may name has a check. -/
theorem IsPlain.admits {m : String × Datum} (h : IsPlain m.1) (hwritable : IsWritable m)
    {P : Fault → Prop} (hinput : ∀ e, P (.input e)) : Admits P m.1 m.2 := by
  obtain ⟨member, given⟩ := m
  have hoption : ∀ name, OptionName.ofText? member = some name → isChecked name = true := by
    intro name hname
    cases h with
    | data hdata => cases (ofText?_of_data hdata).1.symm.trans hname
    | unknown hunknown => cases hunknown.option.symm.trans hname
    | option hname' hchecked =>
      cases hname.symm.trans hname'
      exact hchecked
  have hreserved : Reserved.ofText? member = none := by
    cases h with
    | data hdata => exact (ofText?_of_data hdata).2
    | unknown hunknown => exact hunknown.reserved
    | option hname =>
      obtain rfl := eq_text_of_ofText hname
      exact reserved_text _
  refine ⟨fun name hname => ?_, fun h => ?_, fun h => ?_⟩
  · obtain ⟨hgiven, hmeant⟩ := hwritable name hname
    exact (ends_check hinput (fun _ => check_checked) (shows_checkText hgiven)).mono
      (fun _ h => h) fun v hv => isShown_checked (hoption name hname) hv (hmeant v hv)
  · rw [hreserved] at h
    cases h
  · cases hreserved.symm.trans h

theorem ends_merge (ho : ∀ P, o.AllShow P) (hplain : ∀ m ∈ ms, IsPlain m.1)
    (hwritable : ∀ m ∈ ms, IsWritable m) :
    EndsIn (fun fault => ∃ e, fault = .input e) (fun _ => True) (o.merge ms).2.result := by
  have hinput (e : InputError) : ∃ e', Fault.input e = .input e' := ⟨e, rfl⟩
  have habsorb := ends_absorbAll (P := fun fault => ∃ e, fault = .input e) hinput (ho _)
    fun m hm => (hplain m hm).admits (hwritable m hm) hinput
  rw [result_merge]
  refine habsorb.bind fun data _ => ?_
  cases hcheck : checkData data with
  | ok => trivial
  | error e => exact ⟨e, Fault.ofInput_of_check (check_checkData hcheck)⟩

/--
A dump file of data, options with checks and unknown names is merged if every name is known, every
value passes its check and the data suffice, and is refused otherwise. Merging yields its data,
settles each option on its own, and warns of each that is overridden. The order of the members does
not matter. This takes numbers on the command line and in the dump file that can be written.
-/
theorem merge_outcome {files : FileTree} {args : List String}
    (hparse : CommandLine.parse files args = .ok o) (hnumbers : CommandLine.WritableNumbers o)
    (hnames : (ms.map Prod.fst).Nodup) (hplain : ∀ m ∈ ms, IsPlain m.1)
    (hwritable : ∀ m ∈ ms, IsWritable m) :
    ((∃ data, (o.merge ms).2.result = .ok data) ↔ Passes ms) ∧
    (∀ fault, (o.merge ms).2.result = .error fault → ∃ e, fault = .input e) ∧
    (∀ data, (o.merge ms).2.result = .ok data →
      data = dataOf ms ∧ Settled o ms (o.merge ms).1 ∧ Warns o ms (o.merge ms).2.trace) ∧
    ∀ ms' data, ms'.Perm ms → (o.merge ms).2.result = .ok data →
      ∃ data', (o.merge ms').2.result = .ok data' ∧ data'.Perm data ∧
        (o.merge ms').1 = (o.merge ms).1 := by
  have hshown (P : Fault → Prop) : o.AllShow P := CommandLine.allShow_parse hparse hnumbers
  have ho : o.IsFromWords := ⟨hshown _, isParsed_parse hparse⟩
  have hpasses : ∀ data, (o.merge ms).2.result = .ok data → Passes ms := fun _ =>
    passes_of_merge ho hnames hplain hwritable
  refine ⟨⟨fun ⟨data, h⟩ => hpasses data h,
      fun h => ⟨_, (merge_of_passes ho hnames hplain hwritable h).1⟩⟩,
    fun fault => (ends_merge hshown hplain hwritable).of_error,
    fun data h => ?_, fun ms' data hperm h => ?_⟩
  · obtain ⟨hdata, hrest⟩ := merge_of_passes ho hnames hplain hwritable (hpasses data h)
    cases h.symm.trans hdata
    exact ⟨rfl, hrest⟩
  · have hms := hpasses data h
    obtain ⟨hdata, hsettled, -⟩ := merge_of_passes ho hnames hplain hwritable hms
    obtain ⟨hdata', hsettled', -⟩ := merge_of_passes ho ((hperm.map Prod.fst).nodup_iff.2 hnames)
      (fun m hm => hplain m (hperm.mem_iff.1 hm)) (fun m hm => hwritable m (hperm.mem_iff.1 hm))
      (hms.perm hperm)
    cases h.symm.trans hdata
    exact ⟨_, hdata', hperm.filter _, hsettled.unique hsettled' hperm (hms.isTaken hplain)⟩

/-! ## A limit of zero -/

namespace Zero

def tree : FileTree := ⟨[(⟨false, ["d"], false⟩, .file "\x7b\x7d")]⟩

def args : List String := ["d", "--max_decode_length", "0"]

/-- The options whose limit is zero and of which nothing else is set. -/
def limited : Options := (Options.unset "").set .maxLength (.value (.int 0))

def options : Options := { limited with dumpFile := "d" }

def members : List (String × Datum) :=
  [("storage", .object []), ("max_decode_length", .int 7), ("sources", .object []),
    ("quiet", .text "True"), ("storageLayout", .object [])]

theorem checkDumpFile_dump : CommandLine.checkDumpFile tree "d" = .ok "d" := by
  have hpath : FilePath.ofText "d" = ⟨false, ["d"], false⟩ := by cbv
  have hread : tree.readText (.ofText "d") = .ok "\x7b\x7d" := by
    rw [hpath]
    rfl
  have hparse : Json.Five.parse "\x7b\x7d" = .ok (.object []) := ok_of_toOption (by decide +kernel)
  have hslash : ("d".endsWith "/" || "d".endsWith "/.") = false := by decide +kernel
  rw [CommandLine.checkDumpFile_of_parse hread hparse, CommandLine.checkPath, if_neg (by decide),
    hslash]
  rfl

theorem words_args : CommandLine.words? args =
    some [.plain "d", .switch (.option .maxLength) none, .plain "0"] := by
  have hswitch : CommandLine.wordOf? "--max_decode_length" =
      some (.switch (.option .maxLength) none) := by
    unfold CommandLine.wordOf?
    dsimp only
    rw [if_neg (by decide)]
    rfl
  unfold args
  rw [CommandLine.words?_cons (by decide), CommandLine.words?_cons (by decide),
    CommandLine.words?_cons (by decide), CommandLine.wordOf?_plain (by decide), hswitch,
    CommandLine.wordOf?_plain (by decide)]
  rfl

theorem parse_args : CommandLine.parse tree args = .ok options := by
  have hfile : CommandLine.takeFile tree {} "d" = .ok { dumpFile := some "d" } := by
    unfold CommandLine.takeFile
    rw [checkDumpFile_dump]
  have hswitch : CommandLine.takeSwitch { dumpFile := some "d" } (.option .maxLength) none
      [.plain "0"] = .ok ({ dumpFile := some "d", options := limited }, ⟨[], by decide⟩) := rfl
  have hconsume : CommandLine.consume tree {}
      [.plain "d", .switch (.option .maxLength) none, .plain "0"] =
        .ok { dumpFile := some "d", options := limited } := by
    rw [CommandLine.consume.eq_def, if_neg (by decide)]
    dsimp only
    rw [hfile, ok_bind, CommandLine.consume.eq_def, if_neg (by decide)]
    dsimp only
    rw [hswitch, ok_bind, CommandLine.consume_of_no_switch rfl]
    rfl
  unfold CommandLine.parse
  rw [words_args]
  dsimp only
  rw [hconsume]
  rfl

theorem isTaken : ∀ m ∈ members, IsTaken m := by
  intro m hm
  simp only [members, List.mem_cons, List.not_mem_nil, or_false] at hm
  rcases hm with rfl | rfl | rfl | rfl | rfl
  · exact .data (by decide)
  · exact @IsTaken.option _ .maxLength (.int 7) (ofText_text .maxLength) rfl rfl
  · exact .data (by decide)
  · exact @IsTaken.option _ .quiet (.bool true) (ofText_text .quiet) rfl rfl
  · exact .data (by decide)

theorem passes : Passes members := by
  have hsources : ("sources", Datum.object []) ∈ members := by simp [members]
  have hlayout : ("storageLayout", Datum.object []) ∈ members := by simp [members]
  exact .of_isTaken (.of_inline (.head _) hsources hlayout (by simp [Gives, members])) isTaken

theorem writableNumbers : CommandLine.WritableNumbers options := by
  intro name n hn
  cases name <;> cases hn
  rfl

theorem isWritable : ∀ m ∈ members, IsWritable m := by
  intro m hm
  simp only [members, List.mem_cons, List.not_mem_nil, or_false] at hm
  rcases hm with rfl | rfl | rfl | rfl | rfl <;> intro name hname <;> cases hname
  · refine ⟨rfl, fun v hv => ?_⟩
    cases hv
    rfl
  · refine ⟨rfl, fun v hv => ?_⟩
    cases hv
    rfl

end Zero

/-- The limit of the command line stays zero, and the flag is taken from the dump file. -/
theorem merge_outcome_zero :
    (∃ data, (Zero.options.merge Zero.members).2.result = .ok data) ∧
      (Zero.options.merge Zero.members).1.get .maxLength = .value (.int 0) ∧
      (Zero.options.merge Zero.members).1.get .quiet = .value (.bool true) := by
  obtain ⟨hpasses, -, hmerged, -⟩ := merge_outcome Zero.parse_args Zero.writableNumbers (by decide)
    (fun m hm => (Zero.isTaken m hm).isPlain) Zero.isWritable
  obtain ⟨data, hdata⟩ := hpasses.2 Zero.passes
  obtain ⟨-, hsettled, -⟩ := hmerged data hdata
  have hlimit : ("max_decode_length", Datum.int 7) ∈ Zero.members := .tail _ (.head _)
  have hquiet : ("quiet", Datum.text "True") ∈ Zero.members := .tail _ (.tail _ (.tail _ (.head _)))
  exact ⟨⟨data, hdata⟩, hsettled.given _ hlimit .maxLength (.int 7) (ofText_text .maxLength) rfl,
    hsettled.given _ hquiet .quiet (.bool true) (ofText_text .quiet) rfl⟩

/-! A limit of more digits than can be written, which is overridden. -/

namespace TooLong

/-- The text of a number that has only the largest digits. -/
def textOf (digits : Nat) : String := "0x" ++ String.ofList (List.replicate digits 'f')

theorem isNumeral_textOf (digits : Nat) :
    Text.IsNumeral (textOf (digits + 1)) (Text.largest (digits + 1)) := by
  have hnumber (n : Nat) : Nat.ofDigits 16 (List.replicate n 15) + 1 = 16 ^ n := by
    induction n with
    | zero => rfl
    | succ n ih =>
      rw [List.replicate_succ, Nat.ofDigits_cons, Nat.pow_succ, ← ih]
      ring
  have hvalues (n : Nat) : List.Forall₂ (fun ch d => hexValue? ch = some d)
      (List.replicate n 'f') (List.replicate n 15) := by
    induction n with
    | zero => exact .nil
    | succ n ih => exact .cons rfl ih
  have hchars : (textOf (digits + 1)).toList =
      ['0', 'x'] ++ List.replicate (digits + 1) 'f' := by
    have hmarker : "0x".toList = ['0', 'x'] := rfl
    rw [textOf, String.toList_append, hmarker, String.toList_ofList]
  refine .hexadecimal (.inl rfl) (hchars ▸ Text.surrounds_self _) (by simp)
    ⟨List.replicate (digits + 1) 15, hvalues _, ?_⟩
  rw [List.reverse_replicate, Text.largest, ← hnumber, Nat.add_sub_cancel]

def text : String := textOf 3600

def number : Nat := Text.largest 3600

def members : List (String × Datum) :=
  [("storage", .object []), ("sources", .object []), ("storageLayout", .object []),
    ("max_decode_length", .text text)]

theorem checked_text : checked .maxLength (.text text) = .ok (.int number) :=
  checked_maxLength (isNumeral_textOf 3599)

theorem isTaken : ∀ m ∈ members, IsTaken m := by
  intro m hm
  simp only [members, List.mem_cons, List.not_mem_nil, or_false] at hm
  rcases hm with rfl | rfl | rfl | rfl
  · exact .data (by decide)
  · exact .data (by decide)
  · exact .data (by decide)
  · exact .option (ofText_text .maxLength) rfl checked_text

theorem passes : Passes members := by
  have hsources : ("sources", Datum.object []) ∈ members := by simp [members]
  have hlayout : ("storageLayout", Datum.object []) ∈ members := by simp [members]
  exact .of_isTaken (.of_inline (.head _) hsources hlayout (by simp [Gives, members])) isTaken

/-- The limit passes its check, but there is no text that warns that it is overridden. -/
theorem merge_unwritable :
    CommandLine.parse Zero.tree Zero.args = .ok Zero.options ∧ (members.map Prod.fst).Nodup ∧
      (∀ m ∈ members, IsPlain m.1) ∧ Passes members ∧
      (Zero.options.merge members).2.result = .error (.data .unwritable) := by
  have hpositive : number ≠ 0 := by decide +kernel
  have habsorb : (Zero.options.absorb .maxLength (.text text)).result =
      .error (.data .unwritable) :=
    absorb_of_unwritable checked_text rfl rfl Text.isWritable_largest hpositive.symm
  refine ⟨Zero.parse_args, by decide, fun m hm => (isTaken m hm).isPlain, passes, ?_⟩
  have hoption : Zero.options.absorbAll [("max_decode_length", .text text)] = _ :=
    absorbAll_of_error (not_data_text .maxLength) (absorbMember?_text _ .maxLength _) habsorb []
  rw [result_merge, members, absorbAll_of_data (by decide), absorbAll_of_data (by decide),
    absorbAll_of_data (by decide), hoption]
  rfl

end TooLong

end Options

end StorageSnapshot

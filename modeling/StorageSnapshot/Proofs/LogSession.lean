-- SUMMARY: What each sink of a run is given, and that the root is left as it was before the run.
import StorageSnapshot.Proofs.AbortReport
import StorageSnapshot.Proofs.Failure

/-!
# Sessions of the log

The sinks of a run stand at the root of all topics beside others, and every record is passed to all
of them. What a sink is given depends on its own rule and on no setting of another. When the run is
over, whatever became of it, its sinks are taken away and closed, the last one first. A sink that
can't be closed stops this, and what was installed in front of it stays.
-/

namespace StorageSnapshot

namespace Logging

/-- What comes of closing a sink. -/
inductive Closing where
  | done
  /-- The file system refuses to take what the sink was given, which a record says. -/
  | refused (r : Record)
  | fault (f : Fault)

variable {s : Settings} {root : Root} {sink : Sink} {close : Sink → Closing} {α : Type}

/-! ## What sinks take -/

/-- Whether the console is to show a record. -/
def Shown (s : Settings) (r : Record) : Prop :=
  (if s.quiet then Level.warning else if s.debug then .debug else .info).rank ≤ r.level.rank ∧
    (s.debug = true → s.quiet = false → s.debugTopics ≠ [] →
      Level.warning.rank ≤ r.level.rank ∨ r.topic ∈ s.debugTopics.map Text.trimmed)

instance (s : Settings) (r : Record) : Decidable (Shown s r) :=
  inferInstanceAs (Decidable (_ ∧ (_ → _ → _ → _ ∨ _)))

/-- Whether the debug log is to keep a record. -/
def Kept (r : Record) : Prop := r.topic ∈ Topic.all ∨ Level.warning.rank ≤ r.level.rank

instance (r : Record) : Decidable (Kept r) := inferInstanceAs (Decidable (_ ∨ _))

theorem takes_console (s : Settings) : takes s .console = fun r => decide (Shown s r) := by
  funext r
  rw [Bool.eq_iff_iff, decide_eq_true_iff]
  cases hquiet : s.quiet <;> cases hdebug : s.debug <;> cases htopics : s.debugTopics <;>
    simp [takes, Shown, Settings.floor, Settings.isDebugging, ofTopics, Level.atLeast, hquiet,
      hdebug, htopics]

theorem takes_debugLog (s : Settings) : takes s .debugLog = fun r => decide (Kept r) := by
  have htopics : Topic.all.map Text.trimmed = Topic.all := by decide
  funext r
  rw [Bool.eq_iff_iff, decide_eq_true_iff]
  simp [takes, Kept, ofTopics, htopics, Level.atLeast, or_comm]

theorem takes_abortReport (s : Settings) : takes s .abortReport = Record.isAbort := rfl

/-! ## Passing records on -/

/-- What each sink was given, oldest first. -/
abbrev Journal := Sink → List Record

def Journal.give (r : Record) (j : Journal) (sink : Sink) : Journal :=
  Function.update j sink (j sink ++ [r])

/-- A root that records pass, and what the sinks were given. -/
structure Log where
  root : Root
  journal : Journal

/-- Whether a record passes. -/
def Root.passes (root : Root) (r : Record) : Bool :=
  match root.floor with
  | none => true
  | some floor => r.level.atLeast floor

/-- Gives a record that passes to every sink that takes it. -/
def Log.record (s : Settings) (log : Log) (r : Record) : Log where
  root := log.root
  journal :=
    if log.root.passes r then
      (log.root.sinks.filter fun sink => takes s sink r).foldl (Journal.give r) log.journal
    else log.journal

def Log.recordAll (s : Settings) (log : Log) (records : List Record) : Log :=
  records.foldl (record s) log

theorem Journal.foldl_give (r : Record) (j : Journal) (sinks : List Sink) (sink : Sink) :
    sinks.foldl (Journal.give r) j sink = j sink ++ List.replicate (sinks.count sink) r := by
  induction sinks generalizing j with
  | nil => simp
  | cons first rest ih =>
    rw [List.foldl_cons, ih, give]
    by_cases h : first = sink
    · subst h
      simp [List.replicate_succ]
    · simp [Function.update_of_ne (Ne.symm h), List.count_cons_of_ne h]

theorem received_eq (root : Root) (s : Settings) (sink : Sink) (records : List Record) :
    root.received s sink records =
      if sink ∈ root.sinks then records.filter fun r => root.passes r && takes s sink r
      else [] := by
  by_cases h : sink ∈ root.sinks
  · rw [if_pos h, Root.received, if_pos (List.contains_iff_mem.2 h)]
    rfl
  · rw [if_neg h, Root.received, if_neg (mt List.contains_iff_mem.1 h)]

/-- What a record adds to what a sink was given that is installed once at most. -/
theorem Log.journal_record (log : Log) (h : log.root.sinks.count sink ≤ 1) (r : Record) :
    (log.record s r).journal sink = log.journal sink ++ log.root.received s sink [r] := by
  have hcount : log.root.sinks.count sink = if sink ∈ log.root.sinks then 1 else 0 := by
    split
    next hmem =>
      have hpos := List.count_pos_iff.2 hmem
      omega
    next hmem => exact List.count_eq_zero.2 hmem
  rw [received_eq, record]
  cases hpasses : log.root.passes r with
  | false => simp [hpasses]
  | true =>
    simp only [if_true, Journal.foldl_give]
    cases htakes : takes s sink r with
    | false =>
      have hnot : sink ∉ log.root.sinks.filter fun sink => takes s sink r := by simp [htakes]
      simp [List.count_eq_zero.2 hnot, hpasses, htakes]
    | true =>
      rw [List.count_filter (by simpa using htakes), hcount]
      by_cases hmem : sink ∈ log.root.sinks <;> simp [hmem, hpasses, htakes]

@[simp] theorem Log.root_recordAll (log : Log) (records : List Record) :
    (log.recordAll s records).root = log.root := by
  induction records generalizing log with
  | nil => rfl
  | cons r records ih => exact ih (log.record s r)

/-- What records add to what a sink was given: those that it takes, in their order. -/
theorem Log.journal_recordAll (log : Log) (h : log.root.sinks.count sink ≤ 1)
    (records : List Record) :
    (log.recordAll s records).journal sink =
      log.journal sink ++ log.root.received s sink records := by
  induction records generalizing log with
  | nil => simp [recordAll, received_eq]
  | cons r records ih =>
    have hstep : (log.recordAll s (r :: records)).journal sink =
        (log.record s r).journal sink ++ log.root.received s sink records := ih _ h
    rw [hstep, journal_record log h, List.append_assoc, received_eq, received_eq, received_eq]
    split
    · rw [← List.filter_append, List.singleton_append]
    · rfl

/-! ## Taking sinks away -/

/-- Takes sinks away and closes them, one after another, up to the first that is a fault. -/
def takeDown (s : Settings) (close : Sink → Closing) : List Sink → Log → Log × Option Fault
  | [], log => (log, none)
  | sink :: rest, log =>
    let left : Log := { log with root := { log.root with sinks := log.root.sinks.erase sink } }
    match close sink with
    | .done => takeDown s close rest left
    | .refused r => takeDown s close rest (left.record s r)
    | .fault f => (left, some f)

/-- If no closing is a fault, all sinks are taken away. -/
theorem takeDown_of_no_fault {installed : List Sink}
    (h : ∀ sink ∈ installed, ∀ f, close sink ≠ .fault f) (log : Log) :
    (takeDown s close installed log).1.root =
        { log.root with sinks := installed.foldl List.erase log.root.sinks } ∧
      (takeDown s close installed log).2 = none := by
  induction installed generalizing log with
  | nil => exact ⟨rfl, rfl⟩
  | cons sink rest ih =>
    obtain ⟨hsink, hrest⟩ := List.forall_mem_cons.1 h
    unfold takeDown
    dsimp only
    split
    next => exact ih hrest _
    next => exact ih hrest _
    next f hf => exact absurd hf (hsink f)

/-- Sinks that are closed without a word leave what they were given as it is. -/
theorem journal_takeDown_of_done {installed : List Sink}
    (h : ∀ sink ∈ installed, close sink = .done) (log : Log) :
    (takeDown s close installed log).1.journal = log.journal := by
  induction installed generalizing log with
  | nil => rfl
  | cons sink rest ih =>
    obtain ⟨hsink, hrest⟩ := List.forall_mem_cons.1 h
    simp only [takeDown, hsink]
    exact ih hrest _

theorem erase_last {last : Sink} {front : List Sink} (h : last ∉ front) :
    (front ++ [last]).erase last = front := by
  rw [List.erase_append_right _ h, List.erase_cons_head, List.append_nil]

/-- What was installed is taken away again, the last first. -/
theorem foldl_erase_reverse {installed base : List Sink} (hnodup : installed.Nodup)
    (hnew : ∀ sink ∈ installed, sink ∉ base) :
    installed.reverse.foldl List.erase (base ++ installed) = base := by
  induction installed using List.reverseRecOn with
  | nil => simp
  | append_singleton front last ih =>
    obtain ⟨hfront, -, hlast⟩ := List.nodup_append.1 hnodup
    have hnot : last ∉ base ++ front := by
      rw [List.mem_append, not_or]
      exact ⟨hnew last (by simp), fun hmem => hlast last hmem last (by simp) rfl⟩
    rw [List.reverse_append, List.reverse_singleton, List.singleton_append, List.foldl_cons,
      ← List.append_assoc, erase_last hnot]
    exact ih hfront fun sink hsink => hnew sink (List.mem_append_left _ hsink)

/-- What was installed is taken away again, the first first. -/
theorem foldl_erase {installed base : List Sink} (hnew : ∀ sink ∈ installed, sink ∉ base) :
    installed.foldl List.erase (base ++ installed) = base := by
  induction installed with
  | nil => simp
  | cons first rest ih =>
    obtain ⟨hfirst, hrest⟩ := List.forall_mem_cons.1 hnew
    rw [List.foldl_cons, List.erase_append_right _ hfirst, List.erase_cons_head]
    exact ih hrest

/-! ## Sessions -/

theorem nodup_sinks (s : Settings) : (sinks s).Nodup := by
  unfold sinks
  cases s.debugLog <;> cases s.abortReport <;> decide

theorem ne_outside_of_mem_sinks (h : sink ∈ sinks s) : sink ≠ .outside := by
  have hnot : .outside ∉ sinks s := by
    unfold sinks
    cases s.debugLog <;> cases s.abortReport <;> decide
  exact fun houtside => hnot (houtside ▸ h)

/-- Whether no run has a sink at the root. -/
def Root.IsIdle (root : Root) : Prop := ∀ sink ∈ root.sinks, sink = .outside

theorem Root.IsIdle.not_mem (h : root.IsIdle) (hsink : sink ≠ .outside) : sink ∉ root.sinks :=
  fun hmem => hsink (h sink hmem)

/-- Behind the sinks of an idle root, sinks are installed once that are different. -/
theorem Root.IsIdle.count_append_le (h : root.IsIdle) (hsink : sink ≠ .outside)
    {installed : List Sink} (hnodup : installed.Nodup) :
    (root.sinks ++ installed).count sink ≤ 1 := by
  rw [List.count_append, List.count_eq_zero.2 (h.not_mem hsink), Nat.zero_add]
  exact List.nodup_iff_count_le_one.1 hnodup sink

/-- Removing what was installed gives back the root. -/
theorem Root.IsIdle.remove_install (h : root.IsIdle) (s : Settings) :
    (root.install s).remove s root.floor = root := by
  have herase : (Logging.sinks s).foldl List.erase (root.sinks ++ Logging.sinks s) = root.sinks :=
    foldl_erase fun sink hsink => h.not_mem (ne_outside_of_mem_sinks hsink)
  rw [Root.remove, Root.install, herase]

/-- The log of a run that has just begun. -/
def Log.opened (root : Root) (s : Settings) : Log where
  root := root.install s
  journal _ := []

/-- What becomes of a log, and of the run that it is the log of. -/
structure Session (α : Type) where
  log : Log
  result : Except Fault α

/-- A run with its sinks installed. They are taken down when it is over, whatever it ends in. -/
def session (s : Settings) (root : Root) (close : Sink → Closing) (x : Traced Fault α) :
    Session α :=
  let used := (Log.opened root s).recordAll s x.trace
  let down := takeDown s close (sinks s).reverse
    { used with root := { used.root with floor := root.floor } }
  { log := down.1
    result := match down.2 with
      | some f => .error f
      | none => x.result }

/-- What the sinks of a run were given when it is over: each what it takes. -/
theorem journal_opened (h : root.IsIdle) (hsink : sink ≠ .outside) (records : List Record) :
    ((Log.opened root s).recordAll s records).journal sink =
      if sink ∈ sinks s then records.filter (takes s sink) else [] := by
  have hcount : (Log.opened root s).root.sinks.count sink ≤ 1 :=
    h.count_append_le hsink (nodup_sinks s)
  rw [Log.journal_recordAll _ hcount, received_eq]
  simp [Log.opened, Root.install, Root.passes, h.not_mem hsink]

/-- A run whose sinks are closed without a fault leaves the root as it was, and ends as it does. -/
theorem session_of_no_fault (h : root.IsIdle)
    (hclose : ∀ sink ∈ sinks s, ∀ f, close sink ≠ .fault f) (x : Traced Fault α) :
    (session s root close x).log.root = root ∧ (session s root close x).result = x.result := by
  have hreverse : ∀ sink ∈ (sinks s).reverse, ∀ f, close sink ≠ .fault f :=
    fun sink hsink => hclose sink (List.mem_reverse.1 hsink)
  have herase : (sinks s).reverse.foldl List.erase (root.sinks ++ sinks s) = root.sinks :=
    foldl_erase_reverse (nodup_sinks s) fun sink hsink =>
      h.not_mem (ne_outside_of_mem_sinks hsink)
  obtain ⟨hroot, hfault⟩ := takeDown_of_no_fault (s := s) hreverse
    { (Log.opened root s).recordAll s x.trace with
      root := { ((Log.opened root s).recordAll s x.trace).root with floor := root.floor } }
  rw [session]
  dsimp only
  rw [hroot, hfault, Log.root_recordAll]
  simp only [Log.opened, Root.install, herase, and_self]

/-- What is logged when no run has a sink at the root reaches none. -/
theorem journal_of_isIdle {log : Log} (h : log.root.IsIdle) (hsink : sink ≠ .outside)
    (records : List Record) : (log.recordAll s records).journal sink = log.journal sink := by
  have hnot : sink ∉ log.root.sinks := h.not_mem hsink
  have hcount : log.root.sinks.count sink ≤ 1 := by
    rw [List.count_eq_zero.2 hnot]
    exact Nat.zero_le 1
  rw [log.journal_recordAll hcount, received_eq, if_neg hnot, List.append_nil]

/-! ## Reports that are closed -/

/-- The sinks that are installed in front of the report. -/
def frontSinks (s : Settings) : List Sink := .console :: if s.debugLog then [.debugLog] else []

theorem sinks_of_report (h : s.abortReport = true) : sinks s = frontSinks s ++ [.abortReport] := by
  simp [sinks, frontSinks, h]

theorem report_not_mem_frontSinks (s : Settings) : .abortReport ∉ frontSinks s := by
  unfold frontSinks
  cases s.debugLog <;> decide

theorem mem_sinks_iff :
    sink ∈ sinks s ↔ sink ∈ frontSinks s ∨ sink = .abortReport ∧ s.abortReport = true := by
  rw [sinks, ← List.cons_append, List.mem_append]
  cases hreport : s.abortReport <;> simp [frontSinks]

/-- The report is taken away first, and what becomes of it decides whether the others follow. -/
theorem takeDown_report (h : root.IsIdle) (hreport : s.abortReport = true) (journal : Journal) :
    takeDown s close (sinks s).reverse ⟨{ root with sinks := root.sinks ++ sinks s }, journal⟩ =
      let left : Log := ⟨{ root with sinks := root.sinks ++ frontSinks s }, journal⟩
      match close .abortReport with
      | .done => takeDown s close (frontSinks s).reverse left
      | .refused r => takeDown s close (frontSinks s).reverse (left.record s r)
      | .fault f => (left, some f) := by
  have hnot : .abortReport ∉ root.sinks ++ frontSinks s := by
    rw [List.mem_append, not_or]
    exact ⟨h.not_mem nofun, report_not_mem_frontSinks s⟩
  rw [sinks_of_report hreport, List.reverse_append, List.reverse_singleton, List.singleton_append,
    takeDown]
  simp only [← List.append_assoc, erase_last hnot]

/-- The records that the report leaves when it is closed. -/
def lateRecords (s : Settings) (close : Sink → Closing) : List Record :=
  match s.abortReport, close .abortReport with
  | true, .refused r => [r]
  | _, _ => []

/-- Where no sink but the report has anything to say when it is closed, a sink has what it was given
when the run was over, and what the report had to say. -/
theorem journal_session (h : root.IsIdle) (hclose : ∀ sink ∈ frontSinks s, close sink = .done)
    (hsink : sink ≠ .outside) (x : Traced Fault α) :
    (session s root close x).log.journal sink =
      (if sink ∈ sinks s then x.trace.filter (takes s sink) else []) ++
        (lateRecords s close).filter fun r =>
          decide (sink ∈ frontSinks s) && (root.passes r && takes s sink r) := by
  have hdone : ∀ sink ∈ (frontSinks s).reverse, close sink = .done :=
    fun sink hmem => hclose sink (List.mem_reverse.1 hmem)
  rw [← journal_opened h hsink x.trace, session]
  simp only [Log.root_recordAll, Log.opened, Root.install]
  cases hreport : s.abortReport with
  | false =>
    have hfront : sinks s = frontSinks s := by simp [sinks, frontSinks, hreport]
    rw [hfront, journal_takeDown_of_done hdone]
    simp [lateRecords, hreport]
  | true =>
    rw [takeDown_report h hreport]
    cases hreported : close .abortReport with
    | done => simp [lateRecords, hreport, hreported, journal_takeDown_of_done hdone]
    | fault f => simp [lateRecords, hreport, hreported]
    | refused r =>
      have hnodup : (frontSinks s ++ [Sink.abortReport]).Nodup :=
        sinks_of_report hreport ▸ nodup_sinks s
      have hcount : (root.sinks ++ frontSinks s).count sink ≤ 1 :=
        h.count_append_le hsink (List.nodup_append.1 hnodup).1
      simp only [journal_takeDown_of_done hdone, lateRecords, hreport, hreported]
      rw [Log.journal_record _ hcount, received_eq]
      by_cases hmem : sink ∈ frontSinks s <;> simp [hmem, h.not_mem hsink, Root.passes]

/-- A report that is a fault ends the run in its place, and the console stays at the root. -/
theorem session_of_fault (h : root.IsIdle) (hreport : s.abortReport = true) {f : Fault}
    (hfault : close .abortReport = .fault f) (x : Traced Fault α) :
    (session s root close x).result = .error f ∧
      (session s root close x).log.root = { root with sinks := root.sinks ++ frontSinks s } := by
  rw [session]
  simp only [Log.root_recordAll, Log.opened, Root.install, takeDown_report h hreport, hfault,
    and_self]

/-! ## What sinks were given -/

/-- Whether each sink of a run was given, in their order, the records that are meant for it. -/
structure Routes (s : Settings) (records : List Record) (journal : Journal) : Prop where
  console : journal .console = records.filter fun r => Shown s r
  debugLog : journal .debugLog = if s.debugLog then records.filter fun r => Kept r else []
  abortReport : journal .abortReport = if s.abortReport then records.filter Record.isAbort else []

theorem console_mem_sinks (s : Settings) : .console ∈ sinks s := List.mem_cons_self

theorem debugLog_mem_sinks : .debugLog ∈ sinks s ↔ s.debugLog = true := by
  cases hlog : s.debugLog <;> simp [sinks, hlog]

theorem report_mem_sinks : .abortReport ∈ sinks s ↔ s.abortReport = true := by
  cases hreport : s.abortReport <;> simp [sinks, hreport]

/-- A journal in which every sink has what it takes. -/
theorem Routes.of_takes {records : List Record} {journal : Journal}
    (h : ∀ sink, sink ≠ .outside →
      journal sink = if sink ∈ sinks s then records.filter (takes s sink) else []) :
    Routes s records journal where
  console := by
    rw [h .console nofun, if_pos (console_mem_sinks s), takes_console]
  debugLog := by
    rw [h .debugLog nofun]
    simp only [debugLog_mem_sinks, takes_debugLog]
  abortReport := by
    rw [h .abortReport nofun]
    simp only [report_mem_sinks, takes_abortReport]

/-- What the debug log holds of the records that it was given: those that have bytes. -/
def debugText (records : List Record) : String :=
  String.join ((records.map debugLogLine).filter fun line =>
    not ((Text.codePoints line.toList).any Text.isLoneUnit))

/-- The records that reach a sink of a run that is going on. -/
theorem received_install (root : Root) (hsink : sink ∈ sinks s) (records : List Record) :
    (root.install s).received s sink records = records.filter (takes s sink) := by
  have hmem : sink ∈ (root.install s).sinks := List.mem_append_right _ hsink
  rw [received_eq, if_pos hmem]
  rfl

/-- If no sink has anything to say when it is closed, each was given what is meant for it, which is
what reaches it while the run goes on. -/
theorem routes_of_done (h : root.IsIdle) (hclose : ∀ sink ∈ sinks s, close sink = .done)
    (x : Traced Fault α) :
    Routes s x.trace (session s root close x).log.journal ∧
      ∀ sink ∈ sinks s, (root.install s).received s sink x.trace =
        (session s root close x).log.journal sink := by
  have hfront : ∀ sink ∈ frontSinks s, close sink = .done :=
    fun sink hmem => hclose sink (mem_sinks_iff.2 (.inl hmem))
  have hlate : lateRecords s close = [] := by
    cases hreport : s.abortReport with
    | false => simp [lateRecords, hreport]
    | true => simp [lateRecords, hreport, hclose _ (report_mem_sinks.2 hreport)]
  have hjournal : ∀ sink, sink ≠ .outside → (session s root close x).log.journal sink =
      if sink ∈ sinks s then x.trace.filter (takes s sink) else [] := by
    intro sink hsink
    rw [journal_session h hfront hsink, hlate, List.filter_nil, List.append_nil]
  refine ⟨Routes.of_takes hjournal, fun sink hmem => ?_⟩
  rw [received_install root hmem, hjournal sink (ne_outside_of_mem_sinks hmem), if_pos hmem]

theorem consoleText_install (s : Settings) (root : Root) (records : List Record) :
    consoleText s (root.install s) records =
      String.join ((records.filter fun r => Shown s r).map (consoleLine s)) := by
  rw [consoleText, received_install root (console_mem_sinks s), takes_console]

theorem debugLogText_install (h : s.debugLog = true) (root : Root) (records : List Record) :
    debugLogText s (root.install s) records = debugText (records.filter fun r => Kept r) := by
  rw [debugLogText, received_install root (debugLog_mem_sinks.2 h), takes_debugLog]
  rfl

end Logging

/-! ## Places of reports -/

namespace FileTree

variable {t : FileTree} {p : FilePath}

theorem ends_follow (t : FileTree) (directory : FilePath) (parts : List String) :
    EndsIn (fun e => e.isAnswer = true) (fun _ => True) (t.follow directory parts) := by
  induction parts generalizing directory with
  | nil => trivial
  | cons part rest ih =>
    unfold follow
    split
    next => exact .ite (fun _ => rfl) fun _ => ih _
    next => rfl
    next => rfl
    next => rfl

/-- What is a path can only be refused by the file system. -/
theorem ends_writable (h : p.defect? = none) :
    EndsIn (fun e => e.isAnswer = true) (fun _ => True) (t.writable p) := by
  have hplace : EndsIn (fun e => e.isAnswer = true) (fun _ => True) (t.place p) := by
    unfold place
    rw [h]
    exact .ite (fun _ => rfl) fun _ => t.ends_follow _ _
  refine hplace.bind fun place _ => ?_
  split <;> trivial

theorem writable_of_defect {d : PathDefect} (h : p.defect? = some d) :
    t.writable p = .error (.noPath d) := by
  rw [writable, place, h]
  rfl

end FileTree

/-! ## Runs -/

namespace Run

open Logging (Routes Shown Kept)

variable {files : FileTree} {o : Options} {log : Option FilePath} {colours : Bool}

/-- What comes of closing the sinks of a run: the report alone may have something to say. -/
def closing (reported : ReportOutcome) : Logging.Sink → Logging.Closing
  | .abortReport =>
    match reported.fault, reported.late with
    | some f, _ => .fault f
    | none, r :: _ => .refused r
    | none, [] => .done
  | .console | .debugLog | .outside => .done

/-- The session of a run. -/
def session (files : FileTree) (o : Options) (log : Option FilePath) (colours : Bool) :
    Logging.Session (List Report.Row × String) :=
  Logging.session (logSettings o colours) {} (closing (reported files o log colours))
    (body files o log colours)

theorem isIdle_root : ({} : Logging.Root).IsIdle := by
  simp [Logging.Root.IsIdle]

/-- A report says nothing when it is closed, or says that it is lost. -/
theorem late_reported (files : FileTree) (o : Options) (log : Option FilePath) (colours : Bool) :
    (∃ e, (reported files o log colours).late = [reportLost e] ∧
        (reported files o log colours).fault = none) ∨
      (reported files o log colours).late = [] := by
  unfold reported writeReport
  split
  · exact .inr rfl
  · exact .inr rfl
  · split
    · exact .inr rfl
    · split
      next e _ _ => exact .inl ⟨e, rfl, rfl⟩
      next => exact .inr rfl

/-- Whether the place of the report is given as a path, if it is given. -/
def NamesReport (o : Options) : Prop :=
  o.get .abortReport = .value .null ∨ ∃ p, o.get .abortReport = .path p

/-- There is a report if a place is given for it, and nothing becomes of it otherwise. -/
theorem NamesReport.cases (h : NamesReport o) (files : FileTree) (log : Option FilePath)
    (colours : Bool) :
    (logSettings o colours).abortReport = true ∨
      (logSettings o colours).abortReport = false ∧ (reported files o log colours).late = [] ∧
        (reported files o log colours).fault = none := by
  rcases h with hnull | ⟨p, hp⟩
  · refine .inr ⟨?_, ?_, ?_⟩
    · simp only [logSettings, Options.path?, hnull, Option.isSome_none]
    · rw [reported, writeReport, hnull]
    · rw [reported, writeReport, hnull]
  · refine .inl ?_
    simp only [logSettings, Options.path?, hp, Option.isSome_some]

theorem lateRecords_closing (h : NamesReport o) :
    Logging.lateRecords (logSettings o colours) (closing (reported files o log colours)) =
      (reported files o log colours).late := by
  rcases h.cases files log colours with hreport | ⟨hreport, hlate, -⟩
  · rcases late_reported files o log colours with ⟨e, hlate, hfault⟩ | hlate
    · simp only [Logging.lateRecords, hreport, closing, hlate, hfault]
    · simp only [Logging.lateRecords, hreport, closing, hlate]
      cases (reported files o log colours).fault <;> rfl
  · rw [Logging.lateRecords, hreport, hlate]

/-- Every sink of a run is given what is meant for it, of what the run and its report leave. -/
theorem routes_session (h : NamesReport o) :
    Routes (logSettings o colours)
      ((body files o log colours).trace ++ (reported files o log colours).late)
      (session files o log colours).log.journal := by
  have hlate : ∀ r ∈ (reported files o log colours).late, ∃ e, r = reportLost e := by
    rcases late_reported files o log colours with ⟨e, hlate, -⟩ | hlate <;> rw [hlate]
    · exact fun r hr => ⟨e, List.mem_singleton.1 hr⟩
    · exact fun r hr => nomatch hr
  have hdone : ∀ sink ∈ Logging.frontSinks (logSettings o colours),
      closing (reported files o log colours) sink = .done := by
    intro sink hmem
    cases sink with
    | abortReport => exact absurd hmem (Logging.report_not_mem_frontSinks _)
    | _ => rfl
  apply Routes.of_takes
  intro sink hsink
  rw [session, Logging.journal_session isIdle_root hdone hsink, lateRecords_closing h]
  by_cases hfront : sink ∈ Logging.frontSinks (logSettings o colours)
  · have hmem := Logging.mem_sinks_iff.2 (.inl hfront)
    rw [if_pos hmem, if_pos hmem, List.filter_append]
    congr 1
    apply List.filter_congr
    intro r hr
    obtain ⟨e, rfl⟩ := hlate r hr
    have hpasses : ({} : Logging.Root).passes (reportLost e) = true := rfl
    rw [decide_eq_true hfront, hpasses, Bool.true_and, Bool.true_and]
  · split
    next hmem =>
      -- The sink is the report, and what it has to say is not about a value.
      obtain ⟨rfl, -⟩ := (Logging.mem_sinks_iff.1 hmem).resolve_left hfront
      have hnone : (reported files o log colours).late.filter
          (Logging.takes (logSettings o colours) .abortReport) = [] := by
        rw [List.filter_eq_nil_iff]
        intro r hr
        obtain ⟨e, rfl⟩ := hlate r hr
        exact Bool.false_ne_true
      simp [hfront, List.filter_append, hnone]
    next => simp [hfront]

/-- A report that has a place is a fault when it is closed if that is no place of any file. -/
theorem fault_reported {p : String} (hp : o.get .abortReport = .path p) :
    (reported files o log colours).fault =
      (FilePath.ofText p).defect?.map fun d => .file (.noPath d) := by
  rw [reported, writeReport, hp]
  dsimp only
  cases hdefect : (FilePath.ofText p).defect? with
  | some d =>
    rw [FileTree.writable_of_defect hdefect]
    rfl
  | none =>
    split
    next => rfl
    next e he =>
      have hanswer : e.isAnswer = true := (FileTree.ends_writable hdefect).of_error he
      rw [if_pos hanswer]
      rfl

theorem closing_ne_fault (h : (reported files o log colours).fault = none) (sink : Logging.Sink)
    (f : Fault) : closing (reported files o log colours) sink ≠ .fault f := by
  cases sink with
  | abortReport =>
    simp only [closing, h]
    split
    next heq => cases heq
    next => exact nofun
    next => exact nofun
  | _ => exact nofun

theorem fault_of_no_defect (h : NamesReport o)
    (hplace : ∀ p, o.get .abortReport = .path p → (FilePath.ofText p).defect? = none) :
    (reported files o log colours).fault = none := by
  rcases h with hnull | ⟨p, hp⟩
  · rw [reported, writeReport, hnull]
  · rw [fault_reported hp, hplace p hp]
    rfl

/-- A run whose report has no fault leaves the root as it was, and ends as it does. -/
theorem session_of_no_fault (h : (reported files o log colours).fault = none) :
    (session files o log colours).log.root = {} ∧
      (session files o log colours).result = (body files o log colours).result :=
  Logging.session_of_no_fault isIdle_root (fun sink _ => closing_ne_fault h sink) _

/-- A run ends as its session does. -/
theorem result_closed_eq_session (h : NamesReport o) : (closed files o log colours).result =
    ((session files o log colours).result.map (·.1)).mapError .fault := by
  rw [result_closed]
  cases hfault : (reported files o log colours).fault with
  | none =>
    rw [(session_of_no_fault hfault).2]
    cases (body files o log colours).result <;> rfl
  | some f =>
    rcases h.cases files log colours with hreport | ⟨-, -, hnone⟩
    · have hclosing : closing (reported files o log colours) .abortReport = .fault f := by
        simp only [closing, hfault]
      rw [session, (Logging.session_of_fault isIdle_root hreport hclosing _).1]
      rfl
    · cases hfault.symm.trans hnone

/-- The lines of records on the console. -/
def consoleLines (o : Options) (colours : Bool) (records : List Record) : String :=
  String.join ((records.filter fun r => Shown (logSettings o colours) r).map
    (Logging.consoleLine (logSettings o colours)))

/-- What is printed is what the console is given, with the table between it. -/
theorem printed_closed_eq (files : FileTree) (o : Options) (log : Option FilePath)
    (colours : Bool) : (closed files o log colours).printed =
      [.text (consoleLines o colours (body files o log colours).trace ++
        tableText (body files o log colours).result ++
        consoleLines o colours (reported files o log colours).late)] := by
  rw [printed_closed, openLog, Logging.consoleText_install, Logging.consoleText_install]
  rfl

/-- The debug log holds the lines of the records meant for it, as far as they have bytes. -/
theorem logged_eq (h : (logSettings o colours).debugLog = true) (records : List Record) :
    logged files o log colours records =
      appendLog files log (Logging.debugText (records.filter fun r => Kept r)) := by
  rw [logged, openLog, Logging.debugLogText_install h]

/-- After the report is closed the debug log goes on with what the report had to say. -/
theorem files_closed_eq (h : (logSettings o colours).debugLog = true) :
    (closed files o log colours).files = appendLog (reported files o log colours).files log
      (Logging.debugText ((reported files o log colours).late.filter fun r => Kept r)) := by
  rw [files_closed, openLog, Logging.debugLogText_install h]

namespace Broken

def settings : Logging.Settings where
  debug := true
  debugTopics := [" ast "]
  debugLog := true
  abortReport := true

def step : Record := ⟨Topic.ast, .debug, "a node"⟩
def aside : Record := ⟨"elsewhere", .info, "a word"⟩
def givenUp : Record := ⟨Topic.decoding, .warning, "too long\nby far"⟩

def run : Traced Fault Unit := ⟨[step, aside, givenUp], .error (.missing "name")⟩

def close (_ : Logging.Sink) : Logging.Closing := .done

end Broken

namespace Unwritten

/-- The label of the one variable ends in half of a pair of code units. -/
def dumpText : String :=
  "\x7bstorage:\x7b\x7d,sources:\x7b\x7d,storageLayout:\x7bstorage:[\x7blabel:'a\\ud800'," ++
    "type:'t',slot:0,offset:0\x7d],types:\x7b\x7d\x7d\x7d"

def tree : FileTree := ⟨[(⟨false, ["d"], false⟩, .file dumpText)]⟩

def options : Options := { (Options.unset "").set .debugLogFile (.path "log") with dumpFile := "d" }

def place : FilePath := ⟨false, ["log"], false⟩

def label : String := String.ofList ('a' :: Text.spell 0xd800)

/-- The records of the variable itself. -/
def lost : List Record :=
  [⟨Topic.run, .debug, "decoding " ++ label ++ " at 0x0:32"⟩,
    ⟨Topic.resolution, .warning, "Could not resolve the type of " ++ label ++
      ": storage layout entry of " ++ label ++ " has no astId"⟩]

/-- The records of what is around the variable. -/
def written : List Record :=
  [⟨Topic.options, .debug, "read 0 storage words"⟩,
    ⟨Topic.options, .debug, "decoder configuration: " ++
      "DecoderConfig(max_decode_length=10000, max_nesting_depth=64)"⟩,
    ⟨Topic.run, .debug, "read 1 state variables from d"⟩]

theorem trace_body : (body tree options (some place) false).trace = written ++ lost := by
  have hdump : options.dumpFile = "d" := rfl
  unfold body report Dump.read Dump.readFile Dump.readMembers
  rw [hdump, Lost.ofText_dump]
  decide +kernel

end Unwritten

namespace Nowhere

def tree : FileTree := ⟨[(⟨false, ["d"], false⟩, .file "\x7b\x7d")]⟩

/-- The place of the report has a zero character in it. -/
def options : Options :=
  { (Options.unset "").set .abortReport (.path "a\x00b") with dumpFile := "d" }

theorem ofText_report : FilePath.ofText "a\x00b" = ⟨false, ["a\x00b"], false⟩ := by cbv

/-- Whether a result is an error of the user's. -/
def isInputError {α : Type} : Except Fault α → Bool
  | .error (.input _) => true
  | _ => false

/-- The dump holds no words, which is the fault that the run ends in. -/
theorem isInputError_body : isInputError (body tree options none false).result = true := by
  have hdump : options.dumpFile = "d" := rfl
  unfold body report Dump.read Dump.readFile Dump.readMembers
  rw [hdump, Lost.ofText_dump]
  decide +kernel

theorem fault_report : (reported tree options none false).fault =
    some (.file (.noPath .zeroCharacter)) := by
  rw [fault_reported (p := "a\x00b") rfl, ofText_report]
  rfl

end Nowhere

end Run

end StorageSnapshot

-- SUMMARY: Requests for entries of mappings are read back from their texts, and answered in order.
import Mathlib.Data.List.TakeWhile
import StorageSnapshot.Proofs.MappingPath
import StorageSnapshot.Proofs.TypeNames
import StorageSnapshot.Proofs.Variables

/-!
# Requests for entries

The text of a request is a name and a key for each level, with colons between them. It is split into
no more keys than there are levels, so that a colon in the last key does no harm. Each mapping has
the rows of its own requests, in their order, whichever requests for others stand between them.
-/

namespace StorageSnapshot.Report

section

variable {cs front : List Char} {dump : Dump} {v : StateVariable} {levels : Nat}

/-! ## Splitting -/

theorem splitColon?_append (h : ':' ∉ front) (rest : List Char) :
    splitColon? (front ++ ':' :: rest) = some (front, rest) := by
  have hfront : ∀ ch ∈ front, decide (ch ≠ ':') = true := fun ch hch =>
    decide_eq_true (ne_of_mem_of_not_mem hch h)
  rw [splitColon?, List.dropWhile_append_of_pos hfront, List.takeWhile_append_of_pos hfront]
  simp

theorem splitColon?_eq_none (h : ':' ∉ cs) : splitColon? cs = none := by
  have hcs : cs.dropWhile (fun ch => ch ≠ ':') = [] :=
    List.dropWhile_eq_nil_iff.2 fun ch hch => decide_eq_true (ne_of_mem_of_not_mem hch h)
  rw [splitColon?, hcs]

/-- Keys that are joined with colons are split again, if no colon but one in the last key is met. -/
theorem splitKeys_intercalate {keys : List (List Char)} (hne : keys ≠ [])
    (hle : keys.length ≤ levels) (hinner : ∀ key ∈ keys.dropLast, ':' ∉ key)
    (hfew : keys.length < levels → ∀ key ∈ keys, ':' ∉ key) :
    splitKeys levels ([':'].intercalate keys) = keys := by
  induction keys generalizing levels with
  | nil => exact absurd rfl hne
  | cons key keys ih =>
    obtain _ | _ | levels := levels
    · cases hle
    · obtain rfl : keys = [] := List.length_eq_zero_iff.1 (by simpa using hle)
      rw [List.intercalate_singleton, splitKeys]
    · cases keys with
      | nil =>
        have hkey : ':' ∉ key := hfew (by simp) key List.mem_cons_self
        rw [List.intercalate_singleton, splitKeys, splitColon?_eq_none hkey]
      | cons next keys =>
        rw [List.dropLast_cons_cons, List.forall_mem_cons] at hinner
        rw [List.intercalate_cons_cons, List.append_assoc, splitKeys, List.singleton_append,
          splitColon?_append hinner.1]
        have hfew' : (next :: keys).length < levels + 1 → ∀ other ∈ next :: keys, ':' ∉ other :=
          fun hlt other hother => hfew (Nat.succ_lt_succ hlt) other (List.mem_cons_of_mem _ hother)
        exact congrArg (key :: ·)
          (ih (List.cons_ne_nil _ _) (Nat.le_of_succ_le_succ hle) hinner.2 hfew')

/-- All characters are in keys that have no colons, one more than there are colons. -/
theorem exists_intercalate (cs : List Char) : ∃ keys : List (List Char),
    [':'].intercalate keys = cs ∧ keys.length = cs.count ':' + 1 ∧ ∀ key ∈ keys, ':' ∉ key := by
  induction cs with
  | nil => exact ⟨[[]], rfl, rfl, by simp⟩
  | cons ch cs ih =>
    obtain ⟨keys, hcs, hlength, hplain⟩ := ih
    obtain ⟨key, keys, rfl⟩ := List.exists_cons_of_length_eq_add_one hlength
    by_cases hch : ch = ':'
    · subst hch
      refine ⟨[] :: key :: keys, ?_, ?_, List.forall_mem_cons.2 ⟨by simp, hplain⟩⟩
      · rw [List.intercalate_cons_cons, hcs]
        rfl
      · rw [List.count_cons_self, List.length_cons, hlength]
    · obtain ⟨hkey, hkeys⟩ := List.forall_mem_cons.1 hplain
      refine ⟨(ch :: key) :: keys, ?_, ?_, List.forall_mem_cons.2 ⟨?_, hkeys⟩⟩
      · rw [← hcs]
        cases keys with
        | nil => simp
        | cons next keys => simp [List.intercalate_cons_cons]
      · rw [List.count_cons_of_ne hch]
        exact hlength
      · simp [Ne.symm hch, hkey]

/-! ## Requests -/

/-- A request for an entry: the name of a mapping, and a key for each level of it. -/
structure Request where
  name : String
  keys : List String

namespace Request

variable {q : Request}

/-- The keys as they stand in the text of a request. -/
def joined (q : Request) : String := ":".intercalate q.keys

def text (q : Request) : String := q.name ++ ":" ++ q.joined

/-- What the entry is called in the report. -/
def label (q : Request) : String := q.name ++ String.join (q.keys.map fun k => "[" ++ k ++ "]")

/-- Whether a mapping of this many levels splits the keys of a request as they are. Only the last
key may have a colon, and only if there is a key for each level. -/
structure Fits (levels : Nat) (q : Request) : Prop where
  length_le : q.keys.length ≤ levels
  inner : ∀ key ∈ q.keys.dropLast, ':' ∉ key.toList
  few : q.keys.length < levels → ∀ key ∈ q.keys, ':' ∉ key.toList

theorem Fits.keyPath (h : q.Fits levels) (hne : q.joined ≠ "") :
    keyPath levels q.joined = q.keys := by
  have hkeys : q.keys ≠ [] := by
    intro hnil
    rw [joined, hnil] at hne
    exact hne rfl
  have hsplit : splitKeys levels ([':'].intercalate (q.keys.map String.toList)) =
      q.keys.map String.toList := by
    refine splitKeys_intercalate (by simpa using hkeys) (by simpa using h.length_le) ?_ ?_
    · rw [← List.map_dropLast, List.forall_mem_map]
      exact h.inner
    · rw [List.length_map, List.forall_mem_map]
      exact h.few
  rw [Report.keyPath, joined, String.toList_intercalate]
  exact (congrArg (List.map String.ofList) hsplit).trans (by simp [Function.comp_def])

theorem splitRequest_text (hname : q.name ≠ "") (hplain : ':' ∉ q.name.toList)
    (hjoined : q.joined ≠ "") : splitRequest q.text = .ok (q.name, q.joined) := by
  have htext : q.text.toList = q.name.toList ++ ':' :: q.joined.toList := by
    simp [text]
  have hname' : q.name.toList ≠ [] := mt String.toList_eq_nil_iff.1 hname
  have hjoined' : q.joined.toList ≠ [] := mt String.toList_eq_nil_iff.1 hjoined
  rw [splitRequest, htext, splitColon?_append hplain]
  split
  next ch front ch' back heq =>
    simp only [Option.some.injEq, Prod.mk.injEq] at heq
    rw [← heq.1, ← heq.2, String.ofList_toList, String.ofList_toList]
  next hnone =>
    obtain ⟨ch, front, hfront⟩ := List.exists_cons_of_ne_nil hname'
    obtain ⟨ch', back, hback⟩ := List.exists_cons_of_ne_nil hjoined'
    rw [hfront, hback] at hnone
    exact absurd rfl (hnone ch front ch' back)

/-- A text with too few colons is that of a request with fewer keys than levels. -/
theorem exists_few (name : String) {keys : String} (h : keys.toList.count ':' + 1 < levels) :
    ∃ q : Request, q.name = name ∧ q.joined = keys ∧ q.keys.length < levels ∧ q.Fits levels := by
  obtain ⟨parts, hparts, hlength, hplain⟩ := exists_intercalate keys.toList
  have hkeys : ∀ key ∈ parts.map String.ofList, ':' ∉ key.toList := by
    simpa using hplain
  have hlt : (parts.map String.ofList).length < levels := by
    rw [List.length_map, hlength]
    exact h
  have hjoined : ":".intercalate (parts.map String.ofList) = keys := by
    rw [← String.toList_inj, String.toList_intercalate, List.map_map]
    exact (congrArg ([':'].intercalate) (by simp [Function.comp_def])).trans hparts
  exact ⟨⟨name, parts.map String.ofList⟩, rfl, hjoined, hlt, hlt.le,
    fun key hkey => hkeys key (List.dropLast_subset _ hkey), fun _ => hkeys⟩

end Request

/-! ## Gathering -/

variable {qs : List Request}

/-- A request as it is read: its name and its keys as they stand in its text. -/
def Request.read (q : Request) : String × String := (q.name, q.joined)

theorem requests_texts (h : ∀ q ∈ qs, splitRequest q.text = .ok q.read) :
    requests (qs.map Request.text) = .ok (gathered (qs.map Request.read) []) := by
  refine requests_of_split ?_
  rw [List.forall₂_map_left_iff, List.forall₂_map_right_iff, List.forall₂_same]
  exact h

/-- The requests for a variable, in their order. -/
def asking (qs : List Request) (v : StateVariable) : List Request :=
  qs.filter fun q => labelled v q.name

theorem keysFor_read (qs : List Request) (v : StateVariable) :
    keysFor (gathered (qs.map Request.read) []) v = (asking qs v).map Request.joined := by
  rw [keysFor_gathered, keysAsked_eq, List.filter_map, List.map_map]
  rfl

/-! ## Answers -/

/-- The row of an entry, with its value or without one if it is given up. -/
def answer (dump : Dump) (v : StateVariable) (t : DeclaredType) (q : Request) : Except Fault Row :=
  (fun value =>
    { label := .text q.label, declared := v, type := some { type := t.type.valueType }, value }) <$>
  (valueOrNone (Decode.boundedMappingPath dump.context t.type v.place
    (q.keys.map .text))).result

/-- The rows of a variable whose label can be written: one for each request, or the one that it has
without any. -/
def partOf (dump : Dump) (qs : List Request) (v : StateVariable) : Except Fault (List Row) := do
  Fault.lift v.label.checkText
  match asking qs v with
  | [] => (rowsOf dump v []).result
  | asked => do
    let t ← (v.declaredType dump.index).result
    asked.mapM (answer dump v t)

/-- Whether a dump has a mapping of this name, and the text of a request is one for its levels. -/
structure Request.IsFor (dump : Dump) (q : Request) : Prop where
  name_ne : q.name ≠ ""
  name_plain : ':' ∉ q.name.toList
  joined_ne : q.joined ≠ ""
  known : ∃ v ∈ dump.state, v.label = .text q.name
  fits : ∀ v ∈ dump.state, v.label = .text q.name →
    ∃ t, (v.declaredType dump.index).result = .ok t ∧ Row.isMapping t.type = true ∧
      q.Fits t.type.keyTypes.length

/-- A name that one variable has is that of a mapping if this variable is one. -/
theorem Request.IsFor.of_unique {q : Request} {t : DeclaredType} (hname : q.name ≠ "")
    (hplain : ':' ∉ q.name.toList) (hjoined : q.joined ≠ "") (hv : v ∈ dump.state)
    (hlabel : v.label = .text q.name)
    (hunique : ∀ u ∈ dump.state, u.label = .text q.name → u = v)
    (ht : (v.declaredType dump.index).result = .ok t) (hmapping : Row.isMapping t.type = true)
    (hfits : q.Fits t.type.keyTypes.length) : q.IsFor dump where
  name_ne := hname
  name_plain := hplain
  joined_ne := hjoined
  known := ⟨v, hv, hlabel⟩
  fits u hu hu' := by
    obtain rfl := hunique u hu hu'
    exact ⟨t, ht, hmapping, hfits⟩

theorem result_entryRow {t : DeclaredType} {q : Request} (hlabel : v.label = .text q.name)
    (hfits : q.Fits t.type.keyTypes.length) (hjoined : q.joined ≠ "") :
    (entryRow dump.context v t.type q.joined).result = answer dump v t q := by
  rw [entryRow, hfits.keyPath hjoined, answer]
  cases hvalue : (valueOrNone (Decode.boundedMappingPath dump.context t.type v.place
    (q.keys.map .text))).result with
  | error f =>
    simp only [Traced.result_bind, hvalue, error_bind]
    rfl
  | ok value =>
    simp only [Traced.result_bind, hvalue, ok_bind, hlabel]
    rfl

theorem result_rowsOf_asked {t : DeclaredType} {asked : List Request} {q : Request}
    (ht : (v.declaredType dump.index).result = .ok t) (hmapping : Row.isMapping t.type = true)
    (hq : q ∈ asked)
    (hasked : ∀ q ∈ asked, v.label = .text q.name ∧ q.Fits t.type.keyTypes.length ∧ q.joined ≠ "") :
    (rowsOf dump v (asked.map Request.joined)).result = asked.mapM (answer dump v t) := by
  have hkeys : asked.map Request.joined ≠ [] := List.ne_nil_of_mem (List.mem_map_of_mem hq)
  rw [result_rowsOf_mapping ht hmapping hkeys, List.mapM_map]
  exact mapM_congr fun q hq => result_entryRow (hasked q hq).1 (hasked q hq).2.1 (hasked q hq).2.2

theorem labelledRows_gathered (hqs : ∀ q ∈ qs, q.IsFor dump) (hv : v ∈ dump.state) :
    labelledRows dump (gathered (qs.map Request.read) []) v = partOf dump qs v := by
  have hasking : ∀ q ∈ asking qs v, q ∈ qs ∧ v.label = .text q.name := fun q hq =>
    ⟨(List.mem_filter.1 hq).1, labelled_iff.1 (List.mem_filter.1 hq).2⟩
  rw [labelledRows, keysFor_read, partOf]
  congr 1
  funext
  split
  next hnone => rw [hnone, List.map_nil]
  next hsome =>
    obtain ⟨q, hq⟩ := List.exists_mem_of_ne_nil _ hsome
    obtain ⟨t, ht, hmapping, -⟩ := (hqs q (hasking q hq).1).fits v hv (hasking q hq).2
    rw [ht, ok_bind]
    refine result_rowsOf_asked ht hmapping hq fun q' hq' => ?_
    obtain ⟨hmem, hlabel⟩ := hasking q' hq'
    obtain ⟨t', ht', -, hfits⟩ := (hqs q' hmem).fits v hv hlabel
    obtain rfl : t = t' := Except.ok.inj (ht.symm.trans ht')
    exact ⟨hlabel, hfits, (hqs q' hmem).joined_ne⟩

/-- A path with fewer keys than levels is refused. -/
theorem answer_of_few {t : DeclaredType} {q : Request} (hoffset : v.offset = 0)
    (hname : t.type.checkName = .ok ()) (hfew : q.keys.length < t.type.keyTypes.length) :
    answer dump v t q = .error (.input (.wrongKeyCount t.type (q.keys.map .text))) := by
  have hfresh : v.place.isFresh = true := by
    simp [StateVariable.place, Cursor.isFresh, hoffset, wordSize]
  have htypes : t.type.keyTypes ≠ [] := by
    intro hnil
    rw [hnil] at hfew
    cases hfew
  have hlength : (q.keys.map Datum.text).length ≠ t.type.keyTypes.length := by
    rw [List.length_map]
    exact Nat.ne_of_lt hfew
  have hkeys : (Datum.list (q.keys.map .text)).isWritable = true :=
    Datum.areWritable_iff.2 fun _ => Datum.isWritable_of_mem_texts
  rw [answer, Decode.boundedMappingPath,
    Decode.mappingPathBy_refuses _ htypes hfresh hlength, Decode.ofInput_wrongKeyCount hname,
    if_pos hkeys]
  rfl

/-! ## Runs -/

/-- The variables with these names, all if there are none. -/
def chosen (dump : Dump) (names : List String) : List StateVariable :=
  dump.state.filter fun v => names.isEmpty || names.any (labelled v)

/-- Whether a request for a variable is come to: all variables and all of its own requests in front
have rows. -/
def Reached (dump : Dump) (names : List String) (qs : List Request) (v : StateVariable)
    (t : DeclaredType) (q : Request) : Prop :=
  ∃ before after first rest, chosen dump names = before ++ v :: after ∧
    (∀ u ∈ before, ∃ part, partOf dump qs u = .ok part) ∧ asking qs v = first ++ q :: rest ∧
    (v.declaredType dump.index).result = .ok t ∧ ∀ p ∈ first, ∃ row, answer dump v t p = .ok row

theorem Reached.partOf_eq_error {names : List String} {t : DeclaredType} {q : Request} {f : Fault}
    (h : Reached dump names qs v t q) (hf : answer dump v t q = .error f) :
    (chosen dump names).mapM (partOf dump qs) = .error f := by
  obtain ⟨before, after, first, rest, hchosen, hbefore, hasking, ht, hfirst⟩ := h
  rw [hchosen]
  refine mapM_eq_error hbefore ?_
  have hlabel : v.label = .text q.name := by
    have hq : q ∈ asking qs v := hasking ▸ List.mem_append_right _ List.mem_cons_self
    exact labelled_iff.1 (List.mem_filter.1 hq).2
  rw [partOf, hlabel, hasking]
  change (match first ++ q :: rest with | [] => _ | asked => _) = _
  split
  next hnil => simp at hnil
  next => rw [ht, ok_bind, mapM_eq_error hfirst hf]

/--
The texts of requests are read back. Each chosen variable has one row for each of its own requests,
in their order, with the keys that the request was written from, and the first request that fails
ends the report with what became of it. A request with fewer keys than levels is refused where it is
come to, and so is every text with too few colons, which is that of such a request.
-/
theorem rows_of_requests (dump : Dump) (o : Options) (qs : List Request)
    (hlabels : ∀ v ∈ dump.state, v.label.isKey = true)
    (hnames : ∀ name ∈ o.texts .variable, Known dump.state name)
    (hqs : ∀ q ∈ qs, q.IsFor dump) (htexts : o.texts .mappingKey = qs.map Request.text) :
    ∃ reqs, requests (o.texts .mappingKey) = .ok reqs ∧
      (rows dump (o.texts .variable) reqs).result =
        List.flatten <$> (chosen dump (o.texts .variable)).mapM (partOf dump qs) ∧
      (∀ v t q, Reached dump (o.texts .variable) qs v t q →
        (∀ f, answer dump v t q = .error f →
          (rows dump (o.texts .variable) reqs).result = .error f) ∧
        (q.keys.length < t.type.keyTypes.length → v.offset = 0 → t.type.checkName = .ok () →
          (rows dump (o.texts .variable) reqs).result =
            .error (.input (.wrongKeyCount t.type (q.keys.map .text))))) ∧
      ∀ (name keys : String) (levels : Nat), keys.toList.count ':' + 1 < levels →
        ∃ q : Request, q.name = name ∧ q.joined = keys ∧ q.keys.length < levels ∧
          q.Fits levels := by
  have hsplit : ∀ q ∈ qs, splitRequest q.text = .ok q.read := fun q hq =>
    Request.splitRequest_text (hqs q hq).name_ne (hqs q hq).name_plain (hqs q hq).joined_ne
  have hknown : ∀ name ∈ o.texts .variable ++ (gathered (qs.map Request.read) []).map (·.1),
      Known dump.state name := by
    refine List.forall_mem_append.2 ⟨hnames, fun name hname => ?_⟩
    rcases mem_names_gathered hname with hasked | hnone
    · rw [List.map_map] at hasked
      obtain ⟨q, hq, rfl⟩ := List.mem_map.1 hasked
      obtain ⟨v, hv, hlabel⟩ := (hqs q hq).known
      exact ⟨v, hv, labelled_iff.2 hlabel⟩
    · cases hnone
  have hrows : (rows dump (o.texts .variable) (gathered (qs.map Request.read) [])).result =
      List.flatten <$> (chosen dump (o.texts .variable)).mapM (partOf dump qs) := by
    rw [result_rows_of_known hlabels hknown]
    exact congrArg (List.flatten <$> ·) (mapM_congr fun v hv =>
      labelledRows_gathered hqs (List.mem_filter.1 hv).1)
  have hfails : ∀ v t q, Reached dump (o.texts .variable) qs v t q → ∀ f,
      answer dump v t q = .error f →
        (rows dump (o.texts .variable) (gathered (qs.map Request.read) [])).result = .error f := by
    intro v t q hreached f hf
    rw [hrows, hreached.partOf_eq_error hf]
    rfl
  refine ⟨gathered (qs.map Request.read) [], htexts ▸ requests_texts hsplit, hrows,
    fun v t q hreached => ?_,
    fun name keys levels => Request.exists_few name⟩
  refine ⟨hfails v t q hreached, fun hfew hoffset hname => ?_⟩
  exact hfails v t q hreached _ (answer_of_few hoffset hname hfew)

end

/-! ## Requests for grades and for counts -/

namespace Grades

def smallName : Datum := .object [("nodeType", .text "ElementaryTypeName"), ("name", .text "uint8")]

def textName : Datum := .object [("nodeType", .text "ElementaryTypeName"), ("name", .text "string")]

def numberName : Datum := .object [("nodeType", .text "ElementaryTypeName"), ("name", .text "uint")]

def byText : Datum :=
  .object [("nodeType", .text "Mapping"), ("keyType", textName), ("valueType", smallName)]

def byYear : Datum :=
  .object [("nodeType", .text "Mapping"), ("keyType", numberName), ("valueType", byText)]

def index : Ast.Index where
  nodes :=
    [(1, .object [("nodeType", .text "VariableDeclaration"), ("typeName", byYear)]),
      (2, .object [("nodeType", .text "VariableDeclaration"), ("typeName", byText)])]

def stored (label : String) (id : Int) (slot : Slot) : StateVariable where
  label := .text label
  astId := .int id
  contract := .text ""
  slot := slot
  offset := 0
  typeKey := .text ""
  numberOfBytes := none
  offset_lt := IntType.wholeWord_pos

def grades : StateVariable := stored "grades" 1 3

def counts : StateVariable := stored "counts" 2 4

def dump : Dump where
  store := {}
  index := index
  state := [grades, counts]
  limits := {}

def unnoted : Notes := ⟨none, none, none⟩

def countsType : TypeExpr := .mapping unnoted .string (.elementary none (.sized .uint8))

def gradesType : TypeExpr := .mapping unnoted (.elementary none .uint) countsType

theorem writes_counts : Ast.Writes index.resolver.lookup byText countsType :=
  .mapping rfl rfl (.string rfl rfl) rfl (.elementary rfl rfl (.inl ⟨rfl, rfl⟩))
    ⟨.inl ⟨rfl, rfl⟩, rfl, rfl⟩

theorem writes_grades : Ast.Writes index.resolver.lookup byYear gradesType :=
  .mapping rfl rfl (.elementary rfl rfl (.inl ⟨rfl, rfl⟩)) rfl writes_counts
    ⟨.inl ⟨rfl, rfl⟩, rfl, rfl⟩

theorem declared_grades :
    (grades.declaredType dump.index).result = .ok { type := gradesType.type } :=
  StateVariable.result_declaredType rfl rfl rfl writes_grades ⟨trivial, trivial, trivial⟩
    (by decide)

theorem declared_counts :
    (counts.declaredType dump.index).result = .ok { type := countsType.type } :=
  StateVariable.result_declaredType rfl rfl rfl writes_counts ⟨trivial, trivial⟩ (by decide)

/-- What no word was written for is zero. -/
theorem value_unwritten {levels : Nat} (h : levels ≤ 2) (slot : Slot) :
    ∃ next, (Decode.value dump.context levels countsType.type.valueType (.fresh slot)).result =
      .ok (.int 0, next) := by
  obtain _ | _ | _ | levels := levels
  · exact ⟨_, rfl⟩
  · exact ⟨_, rfl⟩
  · exact ⟨_, rfl⟩
  · omega

/-- The row of an entry that was never written. -/
def row (v : StateVariable) (label : String) : Row where
  label := .text label
  declared := v
  type := some { type := countsType.type.valueType }
  value := some (.int 0)

theorem answer_unwritten {v : StateVariable} {t : DeclaredType} {q : Request} {raws : List Bytes}
    (hvalue : t.type.valueType = countsType.type.valueType) (hname : t.type.checkName = .ok ())
    (hfresh : v.place.isFresh = true) (hlength : q.keys.length = t.type.keyTypes.length)
    (hne : t.type.keyTypes ≠ []) (hle : q.keys.length ≤ 2)
    (h : Key.Encodes dump.context.resolver t.type.keyTypes (q.keys.map .text) raws) :
    answer dump v t q = .ok (row v q.label) := by
  have hlevels : (q.keys.map Datum.text).length = q.keys.length := List.length_map _
  have hwritable : ∀ key ∈ q.keys.map Datum.text, key.isWritable = true := fun _ =>
    Datum.isWritable_of_mem_texts
  have hbudget : Decode.budget dump.context (q.keys.map Datum.text).length ≤ Decode.mostNested := by
    rw [Decode.budget]
    have hdepth : dump.context.limits.maxDepth = 64 := rfl
    simp only [Decode.mostNested]
    omega
  obtain ⟨next, hnext⟩ := value_unwritten hle (v.place.slot.path raws)
  rw [answer, Decode.boundedMappingPath_eq_mappingPath hbudget, valueOrNone,
    Decode.result_mappingPath hne hfresh (hlevels.trans hlength),
    Decode.followKeys_of_encodes hname hfresh hwritable (hlevels.trans hlength) h, ok_bind, hvalue,
    hlevels, hnext]
  rfl

theorem encode_text {s : String} (h : Text.loneUnits? 0 (Text.codePoints s.toList) = none) :
    (Key.encode dump.context.resolver .string (.text s)).result =
      .ok (Text.plain s).toUTF8.toList := by
  rw [Key.encode, Key.encodeRaw, Datum.textOrBytes, Text.encodeUtf8, h]
  rfl

/-- The options that ask for entries. -/
def options (qs : List Request) : Options :=
  (Options.unset "dump.json").set .mappingKey (.value (.list (qs.map fun q => .text q.text)))

theorem texts_options (qs : List Request) :
    (options qs).texts .mappingKey = qs.map Request.text := by
  change (qs.map fun q => Datum.text q.text).map Datum.display = qs.map Request.text
  rw [List.map_map]
  rfl

theorem unique_label : ∀ v ∈ dump.state, ∀ u ∈ dump.state, u.label = v.label → u = v := by
  simp [dump, grades, counts, stored]

theorem isFor_grades {keys : List String} (hne : (Request.mk "grades" keys).joined ≠ "")
    (hfits : Request.Fits 2 ⟨"grades", keys⟩) : Request.IsFor dump ⟨"grades", keys⟩ :=
  .of_unique (by decide : "grades" ≠ "") (by decide : ':' ∉ "grades".toList) hne
    List.mem_cons_self rfl (unique_label _ List.mem_cons_self) declared_grades rfl hfits

theorem isFor_counts {keys : List String} (hne : (Request.mk "counts" keys).joined ≠ "")
    (hfits : Request.Fits 1 ⟨"counts", keys⟩) : Request.IsFor dump ⟨"counts", keys⟩ :=
  .of_unique (by decide : "counts" ≠ "") (by decide : ':' ∉ "counts".toList) hne
    (List.mem_cons_of_mem _ List.mem_cons_self) rfl
    (unique_label _ (List.mem_cons_of_mem _ List.mem_cons_self)) declared_counts rfl hfits

theorem answer_grade {year s : String} {raw : Bytes}
    (hyear : (Key.encode dump.context.resolver (TypeExpr.elementary none .uint).type
      (.text year)).result = .ok raw)
    (hs : Text.loneUnits? 0 (Text.codePoints s.toList) = none) :
    answer dump grades { type := gradesType.type } ⟨"grades", [year, s]⟩ =
      .ok (row grades (Request.label ⟨"grades", [year, s]⟩)) :=
  answer_unwritten rfl rfl rfl rfl (List.cons_ne_nil _ _) (Nat.le_refl 2)
    (.cons hyear (.cons (encode_text hs) .nil))

theorem answer_count {s : String} (hs : Text.loneUnits? 0 (Text.codePoints s.toList) = none) :
    answer dump counts { type := countsType.type } ⟨"counts", [s]⟩ =
      .ok (row counts (Request.label ⟨"counts", [s]⟩)) :=
  answer_unwritten rfl rfl rfl rfl (List.cons_ne_nil _ _) (by decide : 1 ≤ 2)
    (.cons (encode_text hs) .nil)

def asked : List Request :=
  [⟨"grades", ["7", "a:b"]⟩, ⟨"counts", ["a:b"]⟩, ⟨"grades", ["8", ""]⟩]

/-- A request without a key for the inner mapping. -/
def short : Request := ⟨"grades", ["9"]⟩

theorem isFor_asked : ∀ q ∈ asked, q.IsFor dump := by
  simp only [asked, List.forall_mem_cons]
  exact ⟨isFor_grades (by decide) ⟨by decide, by decide, by decide⟩,
    isFor_counts (by decide) ⟨by decide, by decide, by decide⟩,
    isFor_grades (by decide) ⟨by decide, by decide, by decide⟩, nofun⟩

theorem isFor_short : ∀ q ∈ asked ++ [short], q.IsFor dump :=
  List.forall_mem_append.2 ⟨isFor_asked, List.forall_mem_singleton.2
    (isFor_grades (by decide) ⟨by decide, by decide, by decide⟩)⟩

theorem reached_short :
    Reached dump [] (asked ++ [short]) grades { type := gradesType.type } short := by
  refine ⟨[], [counts], [⟨"grades", ["7", "a:b"]⟩, ⟨"grades", ["8", ""]⟩], [], rfl, nofun, rfl,
    declared_grades, ?_⟩
  simp only [List.forall_mem_cons]
  exact ⟨⟨_, answer_grade rfl (by decide)⟩, ⟨_, answer_grade rfl (by decide)⟩, nofun⟩

theorem parts_asked : (chosen dump []).mapM (partOf dump asked) =
    .ok [[row grades "grades[7][a:b]", row grades "grades[8][]"], [row counts "counts[a:b]"]] := by
  have hgrades : partOf dump asked grades =
      .ok [row grades "grades[7][a:b]", row grades "grades[8][]"] := by
    change ((grades.declaredType dump.index).result >>= fun t =>
      [Request.mk "grades" ["7", "a:b"], ⟨"grades", ["8", ""]⟩].mapM (answer dump _ t)) = _
    rw [declared_grades, ok_bind]
    exact mapM_eq_ok_iff.2 (.cons (answer_grade rfl (by decide))
      (.cons (answer_grade rfl (by decide)) .nil))
  have hcounts : partOf dump asked counts = .ok [row counts "counts[a:b]"] := by
    change ((counts.declaredType dump.index).result >>= fun t =>
      [Request.mk "counts" ["a:b"]].mapM (answer dump _ t)) = _
    rw [declared_counts, ok_bind]
    exact mapM_eq_ok_iff.2 (.cons (answer_count (by decide)) .nil)
  exact mapM_eq_ok_iff.2 (.cons hgrades (.cons hcounts .nil))

end Grades

/-- Keys with a colon and without a character are read back, and the requests for one mapping stand
together. A request that leaves out a key is refused. -/
theorem rows_of_requests_grades :
    (∃ reqs, requests ["grades:7:a:b", "counts:a:b", "grades:8:"] = .ok reqs ∧
      (rows Grades.dump [] reqs).result =
        .ok [Grades.row Grades.grades "grades[7][a:b]", Grades.row Grades.grades "grades[8][]",
          Grades.row Grades.counts "counts[a:b]"]) ∧
    ∃ reqs, requests ["grades:7:a:b", "counts:a:b", "grades:8:", "grades:9"] = .ok reqs ∧
      (rows Grades.dump [] reqs).result =
        .error (.input (.wrongKeyCount Grades.gradesType.type [.text "9"])) := by
  have hlabels : ∀ v ∈ Grades.dump.state, v.label.isKey = true := by decide
  constructor
  · obtain ⟨reqs, hreqs, hrows, -⟩ := rows_of_requests Grades.dump (Grades.options Grades.asked)
      Grades.asked hlabels (List.forall_mem_nil _) Grades.isFor_asked (Grades.texts_options _)
    refine ⟨reqs, hreqs, hrows.trans ?_⟩
    change List.flatten <$> (chosen Grades.dump []).mapM (partOf Grades.dump Grades.asked) = _
    rw [Grades.parts_asked]
    rfl
  · obtain ⟨reqs, hreqs, -, hreached, -⟩ := rows_of_requests Grades.dump
      (Grades.options (Grades.asked ++ [Grades.short])) (Grades.asked ++ [Grades.short]) hlabels
      (List.forall_mem_nil _) Grades.isFor_short (Grades.texts_options _)
    refine ⟨reqs, hreqs, ?_⟩
    exact (hreached _ _ _ Grades.reached_short).2 (by decide : 1 < 2) rfl rfl

end StorageSnapshot.Report

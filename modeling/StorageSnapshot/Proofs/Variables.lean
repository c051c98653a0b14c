-- SUMMARY: The rows of a variable do not depend on the others, nor on which are asked for.
import StorageSnapshot.Proofs.MappingPath
import StorageSnapshot.Proofs.Rows
import StorageSnapshot.Proofs.TypeNames

/-!
# Variables apart from each other

The report is made variable by variable, in the order of the layout. What a variable contributes is
what it would contribute alone: that one variable was given up, or has no known type, changes no row
of another. So the report on some variables is a part of the report on all of them. The keys that a
mapping is asked for are those of the requests with its name, in their order.
-/

namespace StorageSnapshot

/-! ## Steps one after another -/

section

variable {ε α β : Type}

theorem Traced.result_mapM (f : α → Traced ε β) (as : List α) :
    (as.mapM f).result = as.mapM fun a => (f a).result := by
  induction as with
  | nil => rfl
  | cons a as ih =>
    simp only [List.mapM_cons, Traced.result_bind, ih]
    rfl

end

/-- The type of a variable whose node writes it. -/
theorem StateVariable.result_declaredType {v : StateVariable} {index : Ast.Index} {id : Int}
    {node : Datum} {e : TypeExpr} (hid : v.astId = .int id) (hsize : v.numberOfBytes = none)
    (hnode : index.node (.int id) =
      .ok (.object [("nodeType", .text "VariableDeclaration"), ("typeName", node)]))
    (h : Ast.Writes index.resolver.lookup node e) (hwritable : e.IsWritable)
    (hdepth : e.depth ≤ Ast.mostNested) :
    (v.declaredType index).result = .ok { type := e.type } := by
  have htype : index.resolver.boundedTypeOfName node = pure e.type := by
    rw [Resolver.boundedTypeOfName, h.nesting, if_pos hdepth, Resolver.typeOfName,
      h.typeOfName hwritable]
    rfl
  simp only [declaredType, hid, hnode, hsize]
  change (index.resolver.boundedTypeOfName node >>= fun type =>
    (pure { type := type } : Traced Fault DeclaredType)).result = _
  rw [htype]
  rfl

namespace Report

section

variable {dump : Dump} {v : StateVariable} {keys names : List String}
  {requests : List (String × List String)} {part rs : List Row}

/-! ## Requested keys -/

theorem labelled_iff {name : String} : labelled v name = true ↔ v.label = .text name := by
  rw [labelled]
  cases v.label <;> simp [Datum.same, Datum.integer?]

/-- The keys that are requested for a variable by its name. -/
def requestedKeys (requests : List (String × List String)) (v : StateVariable) : List String :=
  match v.label with
  | .text label => (requests.lookup label).getD []
  | _ => []

theorem keysFor_eq_requestedKeys (requests : List (String × List String)) (v : StateVariable) :
    keysFor requests v = requestedKeys requests v := by
  induction requests with
  | nil =>
    rw [requestedKeys]
    cases v.label <;> rfl
  | cons r requests ih =>
    obtain ⟨name, ks⟩ := r
    rw [keysFor, List.find?_cons]
    cases hname : labelled v name with
    | true =>
      rw [requestedKeys, labelled_iff.1 hname]
      simp
    | false =>
      rw [← keysFor, ih, requestedKeys, requestedKeys]
      cases hlabel : v.label with
      | text label =>
        have hne : label ≠ name := by
          rintro rfl
          rw [labelled_iff.2 hlabel] at hname
          cases hname
        simp only [List.lookup_cons, beq_false_of_ne hne]
      | _ => rfl

/-- The keys of requests by name, as they are gathered one request after another. -/
def gathered (asked : List (String × String)) (reqs : List (String × List String)) :
    List (String × List String) :=
  asked.foldl (fun reqs a => addRequest a.1 a.2 reqs) reqs

theorem requests_of_split {texts : List String} {asked : List (String × String)}
    (h : List.Forall₂ (fun text a => splitRequest text = .ok a) texts asked) :
    Report.requests texts = .ok (gathered asked []) := by
  rw [Report.requests, gathered]
  generalize ([] : List (String × List String)) = reqs
  induction h generalizing reqs with
  | nil => rfl
  | cons htext _ ih =>
    rw [List.foldlM_cons, htext]
    exact ih _

/-- A request adds its keys behind those that its name has, and no others. -/
theorem keysFor_addRequest {name key : String} :
    keysFor (addRequest name key requests) v =
      keysFor requests v ++ if labelled v name then [key] else [] := by
  induction requests with
  | nil =>
    simp only [addRequest, keysFor, List.find?_cons, List.find?_nil]
    cases labelled v name <;> rfl
  | cons r requests ih =>
    obtain ⟨other, ks⟩ := r
    simp only [keysFor, addRequest] at ih ⊢
    by_cases hname : other = name
    · subst hname
      rw [if_pos rfl, List.find?_cons, List.find?_cons]
      cases labelled v other <;> simp
    · rw [if_neg hname, List.find?_cons, List.find?_cons]
      cases hother : labelled v other with
      | false => exact ih
      | true =>
        have hnot : labelled v name = false := by
          rw [Bool.eq_false_iff, Ne, labelled_iff, labelled_iff.1 hother]
          simpa using hname
        simp [hnot]

/-- The keys that requests ask for of a variable, each request a name and keys. -/
def keysAsked (asked : List (String × String)) (v : StateVariable) : List String :=
  match v.label with
  | .text label => (asked.filter fun a => a.1 = label).map (·.2)
  | _ => []

theorem keysAsked_eq (asked : List (String × String)) (v : StateVariable) :
    keysAsked asked v = (asked.filter fun a => labelled v a.1).map (·.2) := by
  have hlabelled : ∀ (a : String × String) (label : Datum), v.label = label →
      labelled v a.1 = label.same (.text a.1) := fun a label hlabel => by rw [labelled, hlabel]
  rw [keysAsked]
  cases hlabel : v.label with
  | text label =>
    dsimp only
    congr 1
    apply List.filter_congr
    intro a _
    rw [Bool.eq_iff_iff, decide_eq_true_iff, labelled_iff, hlabel]
    simp [eq_comm]
  | _ => simp [hlabelled _ _ hlabel, Datum.same, Datum.integer?]

theorem keysFor_gathered (asked : List (String × String)) :
    keysFor (gathered asked requests) v = keysFor requests v ++ keysAsked asked v := by
  rw [gathered, keysAsked_eq]
  induction asked generalizing requests with
  | nil => simp
  | cons a asked ih =>
    rw [List.foldl_cons, ih, keysFor_addRequest, List.filter_cons]
    cases labelled v a.1 <;> simp

theorem mem_names_addRequest {name key other : String}
    (h : other ∈ (addRequest name key requests).map (·.1)) :
    other = name ∨ other ∈ requests.map (·.1) := by
  induction requests with
  | nil => exact .inl (by simpa [addRequest] using h)
  | cons r requests ih =>
    rw [addRequest] at h
    split at h
    next => exact .inr (by simpa using h)
    next =>
      rcases List.mem_cons.1 h with rfl | h
      · exact .inr List.mem_cons_self
      · exact (ih h).imp_right (List.mem_cons_of_mem _)

/-- No name is gathered but those of requests. -/
theorem mem_names_gathered {asked : List (String × String)} {name : String}
    (h : name ∈ (gathered asked requests).map (·.1)) :
    name ∈ asked.map (·.1) ∨ name ∈ requests.map (·.1) := by
  rw [gathered] at h
  induction asked generalizing requests with
  | nil => exact .inr h
  | cons a asked ih =>
    rcases ih h with hasked | h
    · exact .inl (List.mem_cons_of_mem _ hasked)
    · refine (mem_names_addRequest h).imp_left fun hname => ?_
      rw [hname]
      exact List.mem_cons_self

/-! ## The rows of a variable -/

/-- What a variable contributes to the report, for which these keys were asked for: one row, unless
it is a mapping. A mapping contributes one row for each of its keys, in their order. -/
inductive Contributes (dump : Dump) (v : StateVariable) (keys : List String) : List Row → Prop
  /-- The type of the variable is not known. -/
  | unresolved {e : Unresolved}
    (h : (v.declaredType dump.index).result = .error (.unresolved e)) :
    Contributes dump v keys [{ label := v.label, declared := v, type := none, value := none }]
  | mapping {t : DeclaredType} (ht : (v.declaredType dump.index).result = .ok t)
    (hmapping : Row.isMapping t.type = true) (hkeys : keys = []) :
    Contributes dump v keys [{ label := v.label, declared := v, type := some t, value := none }]
  | entries {t : DeclaredType} {rows : List Row} (ht : (v.declaredType dump.index).result = .ok t)
    (hmapping : Row.isMapping t.type = true) (hkeys : keys ≠ [])
    (hrows : List.Forall₂ (fun key row => (entryRow dump.context v t.type key).result = .ok row)
      keys rows) : Contributes dump v keys rows
  | value {t : DeclaredType} {value : Option Value}
    (ht : (v.declaredType dump.index).result = .ok t)
    (hmapping : Row.isMapping t.type = false) (hkeys : keys = [])
    (hvalue : (valueOrNone (Decode.boundedValue dump.context 0 t.type v.place)).result =
      .ok value) :
    Contributes dump v keys [{ label := v.label, declared := v, type := some t, value }]

/-- The keys of a mapping are looked up one after another. -/
theorem result_rowsOf_mapping {t : DeclaredType}
    (ht : (v.declaredType dump.index).result = .ok t) (hmapping : Row.isMapping t.type = true)
    (hkeys : keys ≠ []) :
    (rowsOf dump v keys).result =
      keys.mapM fun key => (entryRow dump.context v t.type key).result := by
  obtain ⟨first, rest, rfl⟩ := List.exists_cons_of_ne_nil hkeys
  simp only [rowsOf, ht, Traced.result_bind, ok_bind, if_pos hmapping]
  rw [Traced.result_mapM]
  rfl

/-- The rows of a variable are made in one of four ways. -/
theorem contributes_of_rowsOf (h : (rowsOf dump v keys).result = .ok part) :
    Contributes dump v keys part := by
  cases hresult : (v.declaredType dump.index).result with
  | error f =>
    cases f with
    | unresolved e =>
      simp only [rowsOf, hresult, Traced.result_bind, Traced.result_pure] at h
      obtain ⟨-, -, h⟩ := bind_eq_ok.1 h
      obtain ⟨-, -, h⟩ := bind_eq_ok.1 h
      cases h
      exact .unresolved hresult
    | _ =>
      simp only [rowsOf, hresult, Traced.result_bind, error_bind] at h
      cases h
  | ok t =>
    simp only [rowsOf, hresult, Traced.result_bind, ok_bind] at h
    split at h
    next hmapping =>
      split at h
      next =>
        cases h
        exact .mapping hresult hmapping rfl
      next hkeys =>
        rw [Traced.result_mapM] at h
        exact .entries hresult hmapping hkeys (mapM_eq_ok_iff.1 h)
    next hmapping =>
      split at h
      next =>
        rw [Traced.result_bind] at h
        obtain ⟨-, -, h⟩ := bind_eq_ok.1 h
        cases h
      next hkeys =>
        simp only [Bool.not_eq_true, Bool.not_eq_false', List.isEmpty_iff] at hkeys
        rw [Traced.result_bind] at h
        obtain ⟨value, hvalue, h⟩ := bind_eq_ok.1 h
        cases h
        exact .value hresult (Bool.eq_false_iff.2 hmapping) hkeys hvalue

theorem declared_of_entryRow {ctx : Context} {type : Ty} {key : String} {row : Row}
    (h : (entryRow ctx v type key).result = .ok row) : row.declared = v := by
  simp only [entryRow, Traced.result_bind] at h
  obtain ⟨value, -, h⟩ := bind_eq_ok.1 h
  obtain ⟨label, -, h⟩ := bind_eq_ok.1 h
  cases h
  rfl

/-- What a variable contributes says which variable it is from. -/
theorem Contributes.declared (h : Contributes dump v keys part) :
    ∀ row ∈ part, row.declared = v := by
  cases h with
  | unresolved => simp
  | mapping => simp
  | value => simp
  | entries _ _ hkeys hrows =>
    clear hkeys
    induction hrows with
    | nil => simp
    | cons hrow _ ih => exact List.forall_mem_cons.2 ⟨declared_of_entryRow hrow, ih⟩

/-! ## The rows of a dump -/

/-- Whether a name is that of a variable. -/
def Known (state : List StateVariable) (name : String) : Prop :=
  ∃ v ∈ state, labelled v name = true

instance (state : List StateVariable) (name : String) : Decidable (Known state name) :=
  inferInstanceAs (Decidable (∃ v ∈ state, labelled v name = true))

theorem unknownNames_eq_nil {state : List StateVariable} :
    unknownNames state names = [] ↔ ∀ name ∈ names, Known state name := by
  simp [unknownNames, Known]

/-- A name that is not known ends the report before anything is decoded. -/
theorem rows_eq_fail (hkeys : ∀ v ∈ dump.state, v.label.isKey = true)
    (hunknown : unknownNames dump.state (names ++ requests.map (·.1)) ≠ []) :
    rows dump names requests = Traced.fail
      (.input (.unknownVariables (unknownNames dump.state (names ++ requests.map (·.1))))) := by
  have hfind : dump.state.find? (fun v => !v.label.isKey) = none := by simpa using hkeys
  rw [rows, hfind]
  dsimp only
  split
  next hnone => exact absurd hnone hunknown
  next => rfl

/-- The rows of a variable whose label can be written, with the keys that requests ask for. -/
def labelledRows (dump : Dump) (requests : List (String × List String)) (v : StateVariable) :
    Except Fault (List Row) := do
  Fault.lift v.label.checkText
  (rowsOf dump v (keysFor requests v)).result

theorem labelledRows_eq_ok :
    labelledRows dump requests v = .ok part ↔
      v.label.isWritable = true ∧ (rowsOf dump v (keysFor requests v)).result = .ok part :=
  Fault.checkText_bind_eq_ok

/-- Where all labels can be looked up and all names are known, the chosen variables are asked for
their rows one after another. -/
theorem result_rows_of_known (hkeys : ∀ v ∈ dump.state, v.label.isKey = true)
    (hknown : ∀ name ∈ names ++ requests.map (·.1), Known dump.state name) :
    (rows dump names requests).result =
      List.flatten <$>
        (dump.state.filter fun v => names.isEmpty || names.any (labelled v)).mapM
          (labelledRows dump requests) := by
  have hfind : dump.state.find? (fun v => !v.label.isKey) = none := by simpa using hkeys
  have hdebug : ∀ topic message, (Traced.debug topic message : Traced Fault Unit).result =
      .ok () := fun _ _ => rfl
  rw [rows, hfind]
  simp only [unknownNames_eq_nil.2 hknown, Traced.result_bind, Traced.result_mapM, hdebug, ok_bind,
    Traced.result_pure]
  rfl

/-- A report is made if all labels can be looked up, all names are known, and all chosen variables
have rows; and then it is made of these. -/
theorem result_rows_iff :
    (rows dump names requests).result = .ok rs ↔
      (∀ v ∈ dump.state, v.label.isKey = true) ∧
      (∀ name ∈ names ++ requests.map (·.1), Known dump.state name) ∧
      ∃ parts, List.Forall₂ (fun v part => labelledRows dump requests v = .ok part)
        (dump.state.filter fun v => names.isEmpty || names.any (labelled v)) parts ∧
        rs = parts.flatten := by
  by_cases hkeys : ∀ v ∈ dump.state, v.label.isKey = true
  · by_cases hknown : ∀ name ∈ names ++ requests.map (·.1), Known dump.state name
    · rw [result_rows_of_known hkeys hknown, map_eq_ok]
      simp only [mapM_eq_ok_iff, eq_comm (b := rs)]
      exact ⟨fun h => ⟨hkeys, hknown, h⟩, fun h => h.2.2⟩
    · rw [rows_eq_fail hkeys (mt unknownNames_eq_nil.1 hknown)]
      exact ⟨nofun, fun h => absurd h.2.1 hknown⟩
  · refine ⟨fun h => ?_, fun h => absurd h.1 hkeys⟩
    unfold rows at h
    split at h
    next => cases h
    next hfind => exact absurd (by simpa using hfind) hkeys

/-- The rows of chosen variables are those of the rows of all. The induction is on the variables,
and each of them takes all of its rows along or leaves them. -/
theorem exists_chosen_parts {vs : List StateVariable} {parts : List (List Row)}
    (h : List.Forall₂ (fun v part => labelledRows dump requests v = .ok part) vs parts)
    (p : StateVariable → Bool) :
    ∃ chosen, List.Forall₂ (fun v part => labelledRows dump requests v = .ok part)
      (vs.filter p) chosen ∧ chosen.flatten = parts.flatten.filter fun r => p r.declared := by
  induction h with
  | nil => exact ⟨[], .nil, rfl⟩
  | @cons v part vs parts hpart _ ih =>
    obtain ⟨chosen, hchosen, heq⟩ := ih
    have hdeclared : ∀ row ∈ part, p row.declared = p v := fun row hrow =>
      congrArg p ((contributes_of_rowsOf (labelledRows_eq_ok.1 hpart).2).declared row hrow)
    by_cases hp : p v = true
    · refine ⟨part :: chosen, ?_, ?_⟩
      · rw [List.filter_cons_of_pos hp]
        exact .cons hpart hchosen
      · have hall : part.filter (fun r => p r.declared) = part :=
          List.filter_eq_self.2 fun row hrow => (hdeclared row hrow).trans hp
        rw [List.flatten_cons, List.flatten_cons, List.filter_append, hall, heq]
    · refine ⟨chosen, ?_, ?_⟩
      · rw [List.filter_cons_of_neg hp]
        exact hchosen
      · have hnone : part.filter (fun r => p r.declared) = [] :=
          List.filter_eq_nil_iff.2 fun row hrow => (hdeclared row hrow).symm ▸ hp
        rw [List.flatten_cons, List.filter_append, hnone, heq, List.nil_append]

/-- A variable has the same rows alone. -/
theorem rows_alone (hkey : v.label.isKey = true)
    (h : labelledRows dump requests v = .ok part) :
    (rows { dump with state := [v] } [] (requests.filter fun r => labelled v r.1)).result =
      .ok part := by
  have hkeys : keysFor (requests.filter fun r => labelled v r.1) v = keysFor requests v := by
    simp only [keysFor, List.find?_filter, and_self, Bool.decide_eq_true]
  refine result_rows_iff.2 ⟨by simpa using hkey, ?_, [part], ?_, by simp⟩
  · intro name hname
    obtain ⟨r, hr, rfl⟩ := List.mem_map.1 hname
    exact ⟨v, List.mem_singleton_self v, (List.mem_filter.1 hr).2⟩
  · refine .cons ?_ .nil
    rw [labelledRows, hkeys]
    exact h

/--
Variables are decoded apart from each other. If there is a report on all variables of a dump, it is
made of what each of them contributes, in the order of the layout, and each contributes what it
does alone; so there is a report on any of them that are named, which has the rows of these and no
others, unchanged. A name that is not known, be it asked for or given keys, is refused before
anything is decoded. The keys that a variable contributes rows for are those that are requested by
its name, in the order of the requests, whichever requests for others stand between them.
-/
theorem rows_independent (dump : Dump) :
    (∀ requests rs, (rows dump [] requests).result = .ok rs →
      (∀ names, names ≠ [] → (∀ name ∈ names, Known dump.state name) →
        (rows dump names requests).result =
          .ok (rs.filter fun r => names.any (labelled r.declared))) ∧
      ∃ parts, rs = parts.flatten ∧ List.Forall₂ (fun v part =>
        Contributes dump v (requestedKeys requests v) part ∧
        (rows { dump with state := [v] } [] (requests.filter fun r => labelled v r.1)).result =
          .ok part) dump.state parts) ∧
    (∀ requests, (∀ v ∈ dump.state, v.label.isKey = true) → ∀ names,
      (∃ name ∈ names ++ requests.map (·.1), ¬Known dump.state name) →
        rows dump names requests = Traced.fail (.input (.unknownVariables
          (unknownNames dump.state (names ++ requests.map (·.1)))))) ∧
    ∀ texts asked, List.Forall₂ (fun text a => splitRequest text = .ok a) texts asked →
      ∃ requests, Report.requests texts = .ok requests ∧
        ∀ v, requestedKeys requests v = keysAsked asked v := by
  refine ⟨fun requests rs hrs => ?_, fun requests hkeys names hunknown => rows_eq_fail hkeys ?_,
    fun texts asked htexts => ⟨_, requests_of_split htexts, fun v => ?_⟩⟩
  · obtain ⟨hkeys, hknown, parts, hparts, rfl⟩ := result_rows_iff.1 hrs
    simp only [List.isEmpty_nil, Bool.true_or, List.filter_true] at hparts
    refine ⟨fun names hne hnames => ?_, parts, rfl, ?_⟩
    · obtain ⟨chosen, hchosen, heq⟩ :=
        exists_chosen_parts hparts fun v => names.any (labelled v)
      have hempty : names.isEmpty = false := by simpa using hne
      refine result_rows_iff.2 ⟨hkeys, ?_, chosen, ?_, heq.symm⟩
      · rw [List.forall_mem_append]
        exact ⟨hnames, by simpa using hknown⟩
      · simpa only [hempty, Bool.false_or] using hchosen
    · refine List.Forall₂.imp ?_ ((List.forall₂_and_left _ _).2 ⟨hkeys, hparts⟩)
      rintro v part ⟨hkey, hpart⟩
      rw [← keysFor_eq_requestedKeys]
      exact ⟨contributes_of_rowsOf (labelledRows_eq_ok.1 hpart).2, rows_alone hkey hpart⟩
  · obtain ⟨name, hname, hnot⟩ := hunknown
    rw [Ne, unknownNames_eq_nil]
    exact fun hknown => hnot (hknown name hname)
  · rw [← keysFor_eq_requestedKeys, keysFor_gathered]
    rfl

end

/-! ## Variables beside one of no known type -/

namespace Beside

def countName : Datum :=
  .object [("nodeType", .text "ElementaryTypeName"), ("name", .text "uint8")]

def voterName : Datum :=
  .object [("nodeType", .text "ElementaryTypeName"), ("name", .text "uint256")]

def votesName : Datum :=
  .object [("nodeType", .text "Mapping"), ("keyType", voterName), ("valueType", countName)]

def index : Ast.Index where
  nodes :=
    [(1, .object [("nodeType", .text "VariableDeclaration"), ("typeName", countName)]),
      (2, .object [("nodeType", .text "VariableDeclaration"), ("typeName", votesName)])]

/-- A variable that the layout has no node for. -/
def lost : StateVariable where
  label := .text "lost"
  astId := .null
  contract := .text ""
  slot := 0
  offset := 0
  typeKey := .text "t_lost"
  numberOfBytes := none
  offset_lt := IntType.wholeWord_pos

def count : StateVariable where
  label := .text "count"
  astId := .int 1
  contract := .text ""
  slot := 0
  offset := 1
  typeKey := .text "t_uint8"
  numberOfBytes := none
  offset_lt := by decide

def votes : StateVariable where
  label := .text "votes"
  astId := .int 2
  contract := .text ""
  slot := 3
  offset := 0
  typeKey := .text "t_mapping"
  numberOfBytes := none
  offset_lt := IntType.wholeWord_pos

/-- The number of the slot that the key 7 leads to from the slot of the votes. -/
def seven : Nat := Decode.Flags.seven

/-- The number of the slot that the key 8 leads to. -/
def eight : Nat := 0x85aaa47b6dc46495bb8824fad4583769726fea36efd831a35556690b830a8fbe

set_option maxRecDepth 100000 in
theorem digest_eight :
    Bytes.toNat (Keccak.digest (Bytes.ofNat 32 8 ++ Bytes.ofNat 32 3)) = eight := by
  decide +kernel

def dump : Dump where
  store := { words := [(0, [7, 9]), (seven, [5]), (eight, [6])] }
  index := index
  state := [lost, votes, count]
  limits := {}

def countExpr : TypeExpr := .elementary none (.sized .uint8)

def votesExpr : TypeExpr :=
  .mapping ⟨none, none, none⟩ (.elementary none (.sized .uint256)) countExpr

theorem declared_count : (count.declaredType dump.index).result = .ok { type := countExpr.type } :=
  StateVariable.result_declaredType rfl rfl rfl (.elementary rfl rfl (.inl ⟨rfl, rfl⟩)) trivial
    (by decide)

theorem declared_votes : (votes.declaredType dump.index).result = .ok { type := votesExpr.type } :=
  StateVariable.result_declaredType rfl rfl rfl
    (.mapping rfl rfl (.elementary rfl rfl (.inl ⟨rfl, rfl⟩)) rfl
      (.elementary rfl rfl (.inl ⟨rfl, rfl⟩)) ⟨.inl ⟨rfl, rfl⟩, rfl, rfl⟩) ⟨trivial, trivial⟩
    (by decide)

def lostRow : Row where
  label := .text "lost"
  declared := lost
  type := none
  value := none

def countRow : Row where
  label := .text "count"
  declared := count
  type := some { type := countExpr.type }
  value := some (.int 7)

/-- The row of a number of votes. -/
def votesRow (label : String) (n : Int) : Row where
  label := .text label
  declared := votes
  type := some { type := countExpr.type }
  value := some (.int n)

/-- A key of the votes leads to the slot that its digest spells. -/
theorem entry_votes {key label : String} {n slot : Nat} {value : Int} {next : Cursor}
    (hpath : keyPath 1 key = [key]) (hlabel : "votes" ++ String.join ["[" ++ key ++ "]"] = label)
    (hkey : (Key.encode dump.context.resolver (TypeExpr.elementary none (.sized .uint256)).type
      (.text key)).result = .ok (Bytes.ofNat 32 n))
    (hdigest : Bytes.toNat (Keccak.digest (Bytes.ofNat 32 n ++ Bytes.ofNat 32 3)) = slot)
    (hvalue : (Decode.value dump.context 1 countExpr.type
      (.fresh (BitVec.ofNat 256 slot))).result = .ok (.int value, next)) :
    (entryRow dump.context votes votesExpr.type key).result = .ok (votesRow label value) := by
  have hencodes : Key.Encodes dump.context.resolver votesExpr.type.keyTypes [.text key]
      [Bytes.ofNat 32 n] := .cons hkey .nil
  have hslot : Slot.path votes.place.slot [Bytes.ofNat 32 n] = BitVec.ofNat 256 slot :=
    congrArg (BitVec.ofNat 256) hdigest
  have hwritable : ∀ d ∈ [Datum.text key], d.isWritable = true := fun _ =>
    @Datum.isWritable_of_mem_texts [key] _
  have hfresh : votes.place.isFresh = true := rfl
  have hbudget : Decode.budget dump.context 1 ≤ Decode.mostNested := by decide
  have htypes : votesExpr.type.keyTypes ≠ [] := List.cons_ne_nil _ _
  have hresult : (Decode.boundedMappingPath dump.context votesExpr.type votes.place
      [.text key]).result = .ok (.int value, votes.place.nextWord) := by
    rw [Decode.boundedMappingPath_eq_mappingPath hbudget,
      Decode.result_mappingPath htypes rfl rfl,
      Decode.followKeys_of_encodes rfl hfresh hwritable rfl hencodes, ok_bind, hslot]
    exact congrArg (Except.map _) hvalue
  have hlevels : keyPath votesExpr.type.keyTypes.length key = [key] := hpath
  subst hlabel
  rw [entryRow, hlevels, Traced.result_bind, List.map_singleton, valueOrNone, hresult]
  rfl

theorem result_rows : (rows dump [] [("votes", ["7", "8"])]).result =
    .ok [lostRow, votesRow "votes[7]" 5, votesRow "votes[8]" 6, countRow] := by
  have hvotes : (rowsOf dump votes ["7", "8"]).result =
      .ok [votesRow "votes[7]" 5, votesRow "votes[8]" 6] := by
    rw [result_rowsOf_mapping declared_votes rfl (List.cons_ne_nil _ _)]
    exact mapM_eq_ok_iff.2 (.cons (entry_votes rfl rfl rfl Decode.Flags.digest_seven rfl)
      (.cons (entry_votes rfl rfl rfl digest_eight rfl) .nil))
  have hcount : (rowsOf dump count []).result = .ok [countRow] := by
    simp only [rowsOf, declared_count, Traced.result_bind, ok_bind]
    rfl
  have hlabelled : labelledRows dump [("votes", ["7", "8"])] votes =
      .ok [votesRow "votes[7]" 5, votesRow "votes[8]" 6] :=
    labelledRows_eq_ok.2 ⟨rfl, hvotes⟩
  exact result_rows_iff.2 ⟨by decide, by decide, [[lostRow], _, [countRow]],
    .cons rfl (.cons hlabelled (.cons (labelledRows_eq_ok.2 ⟨rfl, hcount⟩) .nil)), rfl⟩

end Beside

/-- The votes for two keys and a count are not changed by a variable that has no known type, a name
that none of them has is refused, and the keys stand in the texts of requests. -/
theorem rows_independent_beside :
    (rows Beside.dump ["votes"] [("votes", ["7", "8"])]).result =
        .ok [Beside.votesRow "votes[7]" 5, Beside.votesRow "votes[8]" 6] ∧
      (rows Beside.dump ["count"] [("votes", ["7", "8"])]).result = .ok [Beside.countRow] ∧
      rows Beside.dump ["count", "counter"] [] =
        Traced.fail (.input (.unknownVariables ["counter"])) ∧
      ∃ requests, Report.requests ["votes:7", "count:0", "votes:8"] = .ok requests ∧
        requestedKeys requests Beside.votes = ["7", "8"] := by
  obtain ⟨hall, hunknown, htexts⟩ := rows_independent Beside.dump
  obtain ⟨hnamed, -⟩ := hall _ _ Beside.result_rows
  refine ⟨?_, ?_, ?_, ?_⟩
  · rw [hnamed ["votes"] (by decide) (by decide)]
    rfl
  · rw [hnamed ["count"] (by decide) (by decide)]
    rfl
  · rw [hunknown [] (by decide) ["count", "counter"] ⟨"counter", by decide, by decide⟩]
    rfl
  · obtain ⟨requests, hrequests, hkeys⟩ :=
      htexts ["votes:7", "count:0", "votes:8"] [("votes", "7"), ("count", "0"), ("votes", "8")]
        (.cons rfl (.cons rfl (.cons rfl .nil)))
    exact ⟨requests, hrequests, hkeys Beside.votes⟩

end Report

end StorageSnapshot

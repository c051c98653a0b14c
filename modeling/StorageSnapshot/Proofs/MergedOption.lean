-- SUMMARY: Dump files of which one has an option more than the other: what merging makes of it.
import Mathlib.Data.List.Nodup
import StorageSnapshot.Proofs.AddedOption

/-!
# Options in dump files

Merging takes in one member after another, so that an option that a dump file gives is as good as
one that was set before merging began. Reserved names are an exception: what they show of the
options depends on which were set when their turn came.
-/

namespace StorageSnapshot

theorem Traced.map_eq {ε α β : Type} (f : α → β) (x : Traced ε α) :
    f <$> x = ⟨x.trace, f <$> x.result⟩ := by
  rw [map_eq_pure_bind]
  cases h : x.result with
  | ok a =>
    rw [Traced.bind_of_ok h, Traced.trace_pure, List.append_nil]
    rfl
  | error e =>
    rw [Traced.bind_of_error h]
    rfl

/-- Whether an option is about the log. -/
def OptionName.isLogging : OptionName → Bool
  | .quiet | .debug | .debugTopics | .showDebugTopics | .debugLogFile | .abortReport => true
  | _ => false

/-- Whether what stands for a reserved name shows the options. -/
def Reserved.showsOptions : Reserved → Bool
  | .table | .method .. => true
  | _ => false

theorem Traced.trace_map {ε α β : Type} (f : α → β) (x : Traced ε α) :
    (f <$> x).trace = x.trace := by rw [map_eq]

theorem Traced.result_map {ε α β : Type} (f : α → β) (x : Traced ε α) :
    (f <$> x).result = f <$> x.result := by rw [map_eq]

namespace Options

variable {o : Options} {name : OptionName} {value : Setting}

/-! ## Members in front of an option -/

theorem keep_set (o : Options) (member : String) (isSame : Bool) (mine : Except DataError String)
    (given : Datum) :
    (o.set name value).keep member isSame mine given =
      (·.set name value) <$> o.keep member isSame mine given := by
  unfold keep
  cases isSame with
  | true => rfl
  | false => simp [map_bind]

theorem absorb_set {other : OptionName} (h : other ≠ name) (o : Options) (given : Datum) :
    (o.set name value).absorb other given = (·.set name value) <$> o.absorb other given := by
  unfold absorb
  rw [map_bind]
  congr 1
  funext v
  dsimp only
  rw [get_set_of_ne h]
  split
  · rw [set_comm h]
    rfl
  · exact keep_set o _ _ _ _

/-- What a reserved name is told to have already, if that shows no options. -/
theorem absorbReserved_set {meaning : Reserved} (h : meaning.showsOptions = false) (o : Options)
    (member : String) (given : Datum) :
    (o.set name value).absorbReserved member meaning given =
      (·.set name value) <$> o.absorbReserved member meaning given := by
  unfold absorbReserved
  cases meaning with
  | table => cases h
  | method => cases h
  | observers => rfl
  | mark =>
    dsimp only
    have hmark : (o.set name value).mark = o.mark := rfl
    rw [hmark]
    split
    next => exact keep_set o _ _ _ _
    next => rfl
  | _ => exact keep_set o _ _ _ _

theorem eq_text_of_ofText {member : String} {n : OptionName}
    (h : OptionName.ofText? member = some n) : n.text = member := by
  simpa using List.find?_some h

theorem ofText_text (n : OptionName) : OptionName.ofText? n.text = some n := by
  cases n <;> decide

/-- Whether no member of a dump file has a reserved name that shows the options. -/
def ShowNoOptions (ms : List (String × Datum)) : Prop :=
  ∀ m ∈ ms, ∀ meaning, Reserved.ofText? m.1 = some meaning → meaning.showsOptions = false

/-- Whether taking in a member of a dump file does not depend on an option. -/
def IsBeside (name : OptionName) (member : String) : Prop :=
  member ≠ name.text ∧ ∀ meaning, Reserved.ofText? member = some meaning →
    meaning.showsOptions = false

theorem absorbMember_set {member : String} (h : IsBeside name member) (o : Options)
    (given : Datum) :
    (o.set name value).absorbMember? member given =
      ((·.set name value) <$> ·) <$> o.absorbMember? member given := by
  unfold absorbMember?
  split
  next n hn =>
    have hne : n ≠ name := fun hsame => h.1 (hsame ▸ (eq_text_of_ofText hn).symm)
    rw [absorb_set hne]
    rfl
  next =>
    cases hmeaning : Reserved.ofText? member with
    | none => rfl
    | some meaning =>
      exact congrArg some (absorbReserved_set (h.2 meaning hmeaning) o member given)

theorem absorbAll_of_ok {member : String} {given : Datum} {step : Traced Fault Options}
    {next : Options} (hdata : ¬dataNames.contains member = true)
    (hstep : o.absorbMember? member given = some step) (hresult : step.result = .ok next)
    (ms : List (String × Datum)) :
    o.absorbAll ((member, given) :: ms) = ((next.absorbAll ms).1,
      ⟨step.trace ++ (next.absorbAll ms).2.trace, (next.absorbAll ms).2.result⟩) := by
  rw [absorbAll, if_neg hdata, hstep]
  dsimp only
  rw [hresult]

theorem absorbAll_of_error {member : String} {given : Datum} {step : Traced Fault Options}
    {e : Fault} (hdata : ¬dataNames.contains member = true)
    (hstep : o.absorbMember? member given = some step) (hresult : step.result = .error e)
    (ms : List (String × Datum)) :
    o.absorbAll ((member, given) :: ms) = (o, ⟨step.trace, .error e⟩) := by
  rw [absorbAll, if_neg hdata, hstep]
  dsimp only
  rw [hresult]

theorem absorbAll_of_unknown {member : String} {given : Datum}
    (hdata : ¬dataNames.contains member = true) (hstep : o.absorbMember? member given = none)
    (ms : List (String × Datum)) :
    o.absorbAll ((member, given) :: ms) = (o, .fail (.input (.unknownOption member))) := by
  rw [absorbAll, if_neg hdata, hstep]

theorem absorbAll_of_data {member : String} (hdata : dataNames.contains member = true)
    (o : Options) (given : Datum) (ms : List (String × Datum)) :
    o.absorbAll ((member, given) :: ms) =
      ((o.absorbAll ms).1, ((member, given) :: ·) <$> (o.absorbAll ms).2) := by
  rw [absorbAll, if_pos hdata]

/-- An option that no member gives may be set before the members are taken in, or afterwards. -/
theorem absorbAll_set {ms : List (String × Datum)} (h : ∀ m ∈ ms, IsBeside name m.1)
    (o : Options) :
    (o.set name value).absorbAll ms = ((o.absorbAll ms).1.set name value, (o.absorbAll ms).2) := by
  induction ms generalizing o with
  | nil => rfl
  | cons m ms ih =>
    obtain ⟨member, given⟩ := m
    have hms : ∀ m ∈ ms, IsBeside name m.1 := fun m hm => h m (List.mem_cons_of_mem _ hm)
    by_cases hdata : dataNames.contains member = true
    · rw [absorbAll_of_data hdata, absorbAll_of_data hdata, ih hms]
    · have hset : (o.set name value).absorbMember? member given = _ :=
        absorbMember_set (h _ List.mem_cons_self) o given
      cases hstep : o.absorbMember? member given with
      | none =>
        rw [hstep] at hset
        rw [absorbAll_of_unknown hdata hset, absorbAll_of_unknown hdata hstep]
      | some step =>
        rw [hstep] at hset
        have hmap := Traced.result_map (·.set name value) step
        cases hresult : step.result with
        | error e =>
          rw [hresult] at hmap
          rw [absorbAll_of_error hdata hset hmap, absorbAll_of_error hdata hstep hresult,
            Traced.trace_map]
        | ok next =>
          rw [hresult] at hmap
          rw [absorbAll_of_ok hdata hset hmap, absorbAll_of_ok hdata hstep hresult,
            Traced.trace_map, ih hms]

/-! ## Options among members -/

/-- Goes on with members where others have been taken in. -/
def after (taken : Options × Traced Fault (List (String × Datum)))
    (ms : List (String × Datum)) : Options × Traced Fault (List (String × Datum)) :=
  match taken.2.result with
  | .error _ => taken
  | .ok data =>
    ((taken.1.absorbAll ms).1, ⟨taken.2.trace ++ (taken.1.absorbAll ms).2.trace,
      (data ++ ·) <$> (taken.1.absorbAll ms).2.result⟩)

theorem after_of_ok {taken : Options × Traced Fault (List (String × Datum))}
    {data : List (String × Datum)} (h : taken.2.result = .ok data) (ms : List (String × Datum)) :
    after taken ms = ((taken.1.absorbAll ms).1, ⟨taken.2.trace ++ (taken.1.absorbAll ms).2.trace,
      (data ++ ·) <$> (taken.1.absorbAll ms).2.result⟩) := by
  unfold after
  rw [h]

theorem after_of_error {taken : Options × Traced Fault (List (String × Datum))} {e : Fault}
    (h : taken.2.result = .error e) (ms : List (String × Datum)) : after taken ms = taken := by
  unfold after
  rw [h]

theorem absorbAll_append (o : Options) (front back : List (String × Datum)) :
    o.absorbAll (front ++ back) = after (o.absorbAll front) back := by
  induction front generalizing o with
  | nil =>
    rw [@after_of_ok (o.absorbAll []) [] rfl]
    change o.absorbAll back = ((o.absorbAll back).1, ⟨_, (fun ms => ms) <$> _⟩)
    rw [id_map']
    rfl
  | cons m front ih =>
    obtain ⟨member, given⟩ := m
    rw [List.cons_append]
    by_cases hdata : dataNames.contains member = true
    · rw [absorbAll_of_data hdata, absorbAll_of_data hdata, ih]
      have hmap := Traced.result_map ((member, given) :: ·) (o.absorbAll front).2
      cases hresult : (o.absorbAll front).2.result with
      | error e =>
        rw [hresult] at hmap
        rw [after_of_error hresult, after_of_error hmap]
      | ok data =>
        rw [hresult] at hmap
        rw [after_of_ok hresult, after_of_ok hmap, Traced.map_eq, Traced.trace_map]
        dsimp only
        rw [← comp_map]
        rfl
    · cases hstep : o.absorbMember? member given with
      | none =>
        rw [absorbAll_of_unknown hdata hstep, absorbAll_of_unknown hdata hstep]
        rfl
      | some step =>
        cases hresult : step.result with
        | error e =>
          rw [absorbAll_of_error hdata hstep hresult, absorbAll_of_error hdata hstep hresult]
          rfl
        | ok next =>
          rw [absorbAll_of_ok hdata hstep hresult, absorbAll_of_ok hdata hstep hresult, ih]
          cases hfront : (next.absorbAll front).2.result with
          | error e =>
            rw [after_of_error hfront, after_of_error rfl, hfront]
          | ok data =>
            rw [after_of_ok hfront, after_of_ok rfl, List.append_assoc]

/-- A member sets no option but its own. -/
theorem get_of_absorbMember {member : String} (hmember : member ≠ name.text) {given : Datum}
    {step : Traced Fault Options} (hstep : o.absorbMember? member given = some step)
    {next : Options} (hnext : step.result = .ok next) : next.get name = o.get name := by
  have hkeep : ∀ {shown : String} {isSame : Bool} {mine : Except DataError String} {given : Datum},
      (o.keep shown isSame mine given).result = .ok next → next.get name = o.get name := by
    intro shown isSame mine given h
    have hany : ∀ text : Except DataError String, Shows (fun _ => True) text :=
      shows_of_data fun _ => trivial
    rw [(ends_keep (hany mine) (hany (Setting.listing given))).of_ok h]
  unfold absorbMember? at hstep
  split at hstep
  next n hn =>
    cases hstep
    have hne : n ≠ name := fun hsame => hmember (hsame ▸ (eq_text_of_ofText hn).symm)
    unfold absorb at hnext
    rw [Traced.result_bind] at hnext
    obtain ⟨v, -, hnext⟩ := bind_eq_ok.1 hnext
    dsimp only at hnext
    split at hnext
    next =>
      cases hnext
      exact get_set_of_ne hne.symm o _
    next => exact hkeep hnext
  next =>
    obtain ⟨meaning, -, rfl⟩ := Option.map_eq_some_iff.1 hstep
    unfold absorbReserved at hnext
    cases meaning with
    | observers => cases hnext
    | mark =>
      dsimp only at hnext
      split at hnext
      next => exact hkeep hnext
      next =>
        cases hnext
        rfl
    | _ => exact hkeep hnext

theorem get_of_absorbAll {ms : List (String × Datum)} (h : ∀ m ∈ ms, m.1 ≠ name.text)
    (o : Options) : (o.absorbAll ms).1.get name = o.get name := by
  induction ms generalizing o with
  | nil => rfl
  | cons m ms ih =>
    obtain ⟨member, given⟩ := m
    have hms : ∀ m ∈ ms, m.1 ≠ name.text := fun m hm => h m (List.mem_cons_of_mem _ hm)
    by_cases hdata : dataNames.contains member = true
    · rw [absorbAll_of_data hdata]
      exact ih hms o
    · cases hstep : o.absorbMember? member given with
      | none => rw [absorbAll_of_unknown hdata hstep]
      | some step =>
        cases hresult : step.result with
        | error e => rw [absorbAll_of_error hdata hstep hresult]
        | ok next =>
          rw [absorbAll_of_ok hdata hstep hresult]
          exact (ih hms next).trans (get_of_absorbMember (h _ List.mem_cons_self) hstep hresult)

/-- A member that gives an unset option sets it. -/
theorem absorbAll_option {given v : Datum} (hvalue : checked name given = .ok v)
    (hunset : (o.get name).isUnset = true) (ms : List (String × Datum)) :
    o.absorbAll ((name.text, given) :: ms) = (o.set name (.value v)).absorbAll ms := by
  have hdata : ¬dataNames.contains name.text = true := by cases name <;> decide
  have habsorb : o.absorb name given = pure (o.set name (.value v)) := by
    unfold absorb
    rw [hvalue]
    change (if (o.get name).isUnset = true then _ else _ : Traced Fault Options) = _
    rw [if_pos hunset]
  have hstep : o.absorbMember? name.text given = some (pure (o.set name (.value v))) := by
    unfold absorbMember?
    rw [ofText_text]
    exact congrArg some habsorb
  rw [absorbAll_of_ok hdata hstep rfl]
  rfl

/-! ## Two dump files -/

/-- Whether options have the same values where they are not about the log. -/
def SameBesideLog (o o' : Options) : Prop :=
  ∀ name, name.isLogging = false → o.get name = o'.get name

/-- Whether taking in members yields the same data and leaves the same records. Where it succeeds,
the options are the same but for the log. -/
def SameMerge (taken taken' : Options × Traced Fault (List (String × Datum))) : Prop :=
  taken.2 = taken'.2 ∧ ∀ data, taken.2.result = .ok data → SameBesideLog taken.1 taken'.1

section

variable {given v : Datum} {front back : List (String × Datum)}

/-- An option that a dump file gives is as good as one that was set before. -/
theorem sameMerge_absorbAll_set (hvalue : checked name given = .ok v)
    (hunset : (o.get name).isUnset = true) (hfront : ∀ m ∈ front, IsBeside name m.1) :
    SameMerge (o.absorbAll (front ++ (name.text, given) :: back))
      ((o.set name (.value v)).absorbAll (front ++ back)) := by
  have hget := get_of_absorbAll (fun m hm => (hfront m hm).1) o
  rw [absorbAll_append, absorbAll_append, absorbAll_set hfront]
  cases hresult : (o.absorbAll front).2.result with
  | error e =>
    have hset : ((o.absorbAll front).1.set name (.value v), (o.absorbAll front).2).2.result =
      .error e := hresult
    rw [after_of_error hresult, after_of_error hset]
    refine ⟨rfl, fun data hdata => ?_⟩
    cases hresult.symm.trans hdata
  | ok data =>
    have hset : ((o.absorbAll front).1.set name (.value v), (o.absorbAll front).2).2.result =
      .ok data := hresult
    rw [after_of_ok hresult, after_of_ok hset, absorbAll_option hvalue (hget.symm ▸ hunset)]
    exact ⟨rfl, fun _ _ _ _ => rfl⟩

/-- An option of the log that a dump file gives is as good as none. -/
theorem sameMerge_absorbAll_logging (hlogging : name.isLogging = true)
    (hvalue : checked name given = .ok v) (hunset : (o.get name).isUnset = true)
    (hfront : ∀ m ∈ front, m.1 ≠ name.text) (hback : ∀ m ∈ back, IsBeside name m.1) :
    SameMerge (o.absorbAll (front ++ (name.text, given) :: back))
      (o.absorbAll (front ++ back)) := by
  have hget := get_of_absorbAll hfront o
  rw [absorbAll_append, absorbAll_append]
  cases hresult : (o.absorbAll front).2.result with
  | error e =>
    rw [after_of_error hresult, after_of_error hresult]
    exact ⟨rfl, fun _ _ _ _ => rfl⟩
  | ok data =>
    rw [after_of_ok hresult, after_of_ok hresult, absorbAll_option hvalue (hget.symm ▸ hunset),
      absorbAll_set hback]
    refine ⟨rfl, fun _ _ other hother => get_set_of_ne (fun hsame => ?_) _ _⟩
    rw [hsame, hlogging] at hother
    cases hother

end

theorem SameMerge.merge {o o' : Options} {ms ms' : List (String × Datum)}
    (h : SameMerge (o.absorbAll ms) (o'.absorbAll ms')) :
    SameMerge (o.merge ms) (o'.merge ms') := by
  refine ⟨?_, fun data hdata => ?_⟩
  · unfold Options.merge
    dsimp only
    rw [h.1]
  · unfold Options.merge at hdata
    rw [Traced.result_bind] at hdata
    obtain ⟨taken, htaken, -⟩ := bind_eq_ok.1 hdata
    exact h.2 taken htaken

end Options

/-! ## Names that are used twice -/

namespace Json

theorem repeatedName?_eq_none {seen : List String} {ms : List (String × Datum)} :
    repeatedName? seen ms = none ↔
      (∀ m ∈ ms, m.1 ∉ seen) ∧ (ms.map Prod.fst).Nodup := by
  induction ms generalizing seen with
  | nil => simp [repeatedName?]
  | cons m ms ih =>
    obtain ⟨k, d⟩ := m
    unfold repeatedName?
    by_cases hk : k ∈ seen
    · rw [if_pos (by simpa using hk)]
      simp [hk]
    · rw [if_neg (by simpa using hk), ih]
      have hnew : (∀ m ∈ ms, m.1 ∉ k :: seen) ↔
          (∀ m ∈ ms, m.1 ∉ seen) ∧ k ∉ ms.map Prod.fst := by
        simp only [List.mem_cons, not_or, List.mem_map, not_exists, not_and]
        exact ⟨fun h => ⟨fun m hm => (h m hm).2, fun m hm hk => (h m hm).1 hk⟩,
          fun h m hm => ⟨h.2 m hm, h.1 m hm⟩⟩
      rw [hnew, List.forall_mem_cons, List.map_cons, List.nodup_cons]
      constructor
      · rintro ⟨⟨hms, hk'⟩, hnodup⟩
        exact ⟨⟨hk, hms⟩, hk', hnodup⟩
      · rintro ⟨⟨-, hms⟩, hk', hnodup⟩
        exact ⟨⟨hms, hk'⟩, hnodup⟩

theorem duplicateInMembers?_append (front back : List (String × Datum)) :
    duplicateInMembers? (front ++ back) = none ↔
      duplicateInMembers? front = none ∧ duplicateInMembers? back = none := by
  induction front with
  | nil => simp [duplicateInMembers?]
  | cons m front ih =>
    obtain ⟨k, d⟩ := m
    rw [List.cons_append, duplicateInMembers?, duplicateInMembers?]
    simp [ih, and_assoc]

/-- A new name with a value of its own does not use a name twice. -/
theorem duplicate?_insert {front back : List (String × Datum)} {k : String} {given : Datum}
    (hgiven : duplicate? given = none) (hfront : ∀ m ∈ front, m.1 ≠ k)
    (hback : ∀ m ∈ back, m.1 ≠ k) :
    duplicate? (.object (front ++ (k, given) :: back)) = none ↔
      duplicate? (.object (front ++ back)) = none := by
  have hobject : ∀ ms, duplicate? (.object ms) = none ↔
      duplicateInMembers? ms = none ∧ (ms.map Prod.fst).Nodup := by
    intro ms
    simp [duplicate?, repeatedName?_eq_none]
  have hmembers : duplicateInMembers? ((k, given) :: back) = none ↔
      duplicateInMembers? back = none := by
    rw [duplicateInMembers?, hgiven]
    rfl
  have hnames : ((front ++ (k, given) :: back).map Prod.fst).Nodup ↔
      ((front ++ back).map Prod.fst).Nodup := by
    rw [List.map_append, List.map_cons, List.nodup_middle, List.nodup_cons, ← List.map_append]
    refine and_iff_right fun hmem => ?_
    obtain ⟨m, hm, hk⟩ := List.mem_map.1 hmem
    rcases List.mem_append.1 hm with hm | hm
    · exact hfront m hm hk
    · exact hback m hm hk
  rw [hobject, hobject, duplicateInMembers?_append, duplicateInMembers?_append, hmembers, hnames]

theorem duplicateInItems?_texts {xs : List Datum} {ss : List String}
    (h : Check.allTexts? xs = some ss) : duplicateInItems? xs = none := by
  induction xs generalizing ss with
  | nil => rfl
  | cons x xs ih =>
    cases x with
    | text s =>
      obtain ⟨ss', hxs, -⟩ := Option.map_eq_some_iff.1 h
      rw [duplicateInItems?, ih hxs]
      rfl
    | _ => cases h

/-- A value that is checked has no members. -/
theorem duplicate?_of_checked {name : OptionName} {given v : Datum}
    (hname : Options.isChecked name = true) (h : Options.checked name given = .ok v) :
    duplicate? given = none := by
  have hnumber : ∀ n, Check.nonNegative given = .ok n → duplicate? given = none := by
    intro n hn
    rcases Check.int_or_text_of_nonNegative hn with ⟨m, rfl⟩ | ⟨s, rfl⟩ <;> rfl
  have hlimit : name = .maxLength ∨ name = .maxDepth → duplicate? given = none := by
    rintro (rfl | rfl)
    · obtain ⟨n, hn, -⟩ := map_eq_ok.1 h
      exact hnumber n hn
    · obtain ⟨n, hn, -⟩ := map_eq_ok.1 h
      exact hnumber n (Check.nonNegative_of_positive hn)
  cases given with
  | list xs =>
    have htexts : ∀ {ss}, Check.texts (.list xs) = .ok ss → duplicate? (.list xs) = none := by
      intro ss hss
      unfold Check.texts at hss
      dsimp only at hss
      split at hss
      next htexts => rw [duplicate?, duplicateInItems?_texts htexts]
      next => cases hss
    cases name with
    | «variable» | mappingKey | debugTopics =>
      obtain ⟨ss, hss, -⟩ := map_eq_ok.1 h
      exact htexts hss
    | debugLogFile | abortReport => cases hname
    | maxLength => exact hlimit (.inl rfl)
    | maxDepth => exact hlimit (.inr rfl)
    | _ => cases h
  | object ms =>
    cases name with
    | debugLogFile | abortReport => cases hname
    | maxLength => exact hlimit (.inl rfl)
    | maxDepth => exact hlimit (.inr rfl)
    | _ => cases h
  | _ => rfl

end Json

end StorageSnapshot

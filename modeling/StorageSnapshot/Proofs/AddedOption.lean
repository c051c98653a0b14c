-- SUMMARY: Command lines of which one has an option more than the other: what it sets, and no more.
import StorageSnapshot.Proofs.Arguments

/-!
# Added options

Words are consumed one after another, so that the words of an option that stand between others set
that option and nothing else. They may stand wherever the words in front of them are complete.
-/

namespace StorageSnapshot

/-! ## Options that are set -/

namespace Options

variable {o : Options} {name other : OptionName} {value : Setting}

@[simp] theorem get_set_self (o : Options) (name : OptionName) (value : Setting) :
    (o.set name value).get name = value := if_pos rfl

theorem get_set_of_ne (h : other ≠ name) (o : Options) (value : Setting) :
    (o.set name value).get other = o.get other := if_neg h

/-- Options that are set to different names may be set in any order. -/
theorem set_comm (h : other ≠ name) (o : Options) (value value' : Setting) :
    (o.set name value).set other value' = (o.set other value').set name value := by
  unfold set
  congr 1
  funext n
  dsimp only
  by_cases hn : n = other
  · rw [if_pos hn, if_neg (hn ▸ h), if_pos hn]
  · rw [if_neg hn, if_neg hn]

theorem set_of_get (h : o.get name = value) : o.set name value = o := by
  unfold set
  congr 1
  funext n
  by_cases hn : n = name
  · rw [if_pos hn, hn, h]
  · rw [if_neg hn]

end Options

namespace CommandLine

variable {files files' : FileTree} {p : Progress} {name : OptionName} {value : Setting}

/-- What has been consumed, with an option set beside it. -/
def Progress.setting (p : Progress) (name : OptionName) (value : Setting) : Progress :=
  { p with options := p.options.set name value }

/-! ## Option words -/

/-- What an option word asks for. -/
inductive Demand where
  | unknown
  | setting (name : OptionName) (value : Except InputError Setting)

/-- What an option word asks for and the words that it leaves, whatever was consumed before. -/
def demand (s : Switch) (own : Option String) (ws : List Word) :
    Except Stop (Demand × List Word) :=
  match s, own with
  | .unknown, _ => .ok (.unknown, ws)
  | .help, none => .error .help
  | .help, some _ => .error .usage
  | .option name, some v =>
    if name.isFlag then .error .usage else .ok (.setting name (settingBehindSign name v), ws)
  | .option name, none =>
    if name.isFlag then .ok (.setting name (.ok (.value (.bool true))), ws)
    else
      match ws with
      | .plain v :: rest =>
        if takesMany name then
          .ok (.setting name (.ok (settingOfMany (v :: plainTexts rest))), afterPlain rest)
        else .ok (.setting name (settingOf name v), rest)
      | _ => .error .usage

/-- What has been consumed once a demand is met. -/
def Demand.meet (p : Progress) : Demand → Except Stop Progress
  | .unknown => .ok { p with leftOver := true }
  | .setting name value => takeSetting p name value

theorem takeSwitch_eq_demand (p : Progress) (s : Switch) (own : Option String) (ws : List Word) :
    (fun next => (next.1, next.2.val)) <$> takeSwitch p s own ws =
      demand s own ws >>= fun d => (·, d.2) <$> d.1.meet p := by
  have hmet : ∀ {n : Nat} (x : Except Stop Progress)
      (rest : { rest : List Word // rest.length ≤ n }),
      ((fun next => (next.1, next.2.val)) <$> do return (← x, rest)) =
        ((·, rest.val) <$> x : Except Stop (Progress × List Word)) := by
    intro n x rest
    cases x <;> rfl
  unfold takeSwitch demand
  match s, own with
  | .unknown, _ | .help, none | .help, some _ => rfl
  | .option name, some v =>
    dsimp only
    split
    · rfl
    · exact hmet _ _
  | .option name, none =>
    dsimp only
    split
    · exact hmet _ _
    · match ws with
      | .plain v :: rest =>
        dsimp only
        split
        · exact hmet _ _
        · exact hmet _ _
      | [] | .separator :: _ | .switch .. :: _ => rfl

theorem suffix_afterPlain (ws : List Word) : afterPlain ws <:+ ws := by
  induction ws with
  | nil => exact List.suffix_refl _
  | cons w ws ih =>
    cases w with
    | plain => exact ih.trans (List.suffix_cons _ _)
    | separator | switch => exact List.suffix_refl _

/-- The words that an option leaves are the last ones. -/
theorem suffix_of_demand {s : Switch} {own : Option String} {ws rest : List Word} {d : Demand}
    (h : demand s own ws = .ok (d, rest)) : rest <:+ ws := by
  unfold demand at h
  split at h
  next => exact (Prod.mk.inj (Except.ok.inj h)).2 ▸ List.suffix_refl _
  next => cases h
  next => cases h
  next =>
    split at h
    next => cases h
    next => exact (Prod.mk.inj (Except.ok.inj h)).2 ▸ List.suffix_refl _
  next =>
    split at h
    next => exact (Prod.mk.inj (Except.ok.inj h)).2 ▸ List.suffix_refl _
    next =>
      split at h
      next v behind =>
        split at h
        next =>
          rw [← (Prod.mk.inj (Except.ok.inj h)).2]
          exact (suffix_afterPlain behind).trans (List.suffix_cons _ _)
        next => exact (Prod.mk.inj (Except.ok.inj h)).2 ▸ List.suffix_cons _ _
      next => cases h

theorem afterPlain_append (ws : List Word) (s : Switch) (own : Option String) (back : List Word) :
    afterPlain (ws ++ .switch s own :: back) = afterPlain ws ++ .switch s own :: back := by
  induction ws with
  | nil => rfl
  | cons w ws ih =>
    cases w with
    | plain => exact ih
    | separator | switch => rfl

theorem plainTexts_append (ws : List Word) (s : Switch) (own : Option String) (back : List Word) :
    plainTexts (ws ++ .switch s own :: back) = plainTexts ws := by
  induction ws with
  | nil => rfl
  | cons w ws ih =>
    cases w with
    | plain text => exact congrArg (text :: ·) ih
    | separator | switch => rfl

/-- An option takes nothing from behind the next option. -/
theorem demand_append (s : Switch) (own : Option String) (ws : List Word) (s' : Switch)
    (own' : Option String) (back : List Word) :
    demand s own (ws ++ .switch s' own' :: back) =
      (fun next => (next.1, next.2 ++ .switch s' own' :: back)) <$> demand s own ws := by
  unfold demand
  match s, own with
  | .unknown, _ | .help, none | .help, some _ => rfl
  | .option name, some v =>
    dsimp only
    split <;> rfl
  | .option name, none =>
    dsimp only
    split
    · rfl
    · match ws with
      | .plain v :: rest =>
        dsimp only [List.cons_append]
        rw [plainTexts_append, afterPlain_append]
        split <;> rfl
      | [] | .separator :: _ | .switch .. :: _ => rfl

/-! ## Steps -/

theorem consume_nil (files : FileTree) (p : Progress) : consume files p [] = .ok p := by
  rw [consume_of_no_switch rfl]
  unfold finish
  split <;> simp_all

theorem consume_takeSwitch (files : FileTree) (p : Progress) (s : Switch) (own : Option String)
    (ws : List Word) :
    consume files p (.switch s own :: ws) =
      ((fun next => (next.1, next.2.val)) <$> takeSwitch p s own ws) >>= fun next =>
        consume files next.1 next.2 := by
  rw [consume.eq_def, if_neg (by simp [hasSwitch])]
  dsimp only
  cases takeSwitch p s own ws <;> rfl

theorem consume_switch (files : FileTree) (p : Progress) (s : Switch) (own : Option String)
    (ws : List Word) :
    consume files p (.switch s own :: ws) =
      demand s own ws >>= fun d => d.1.meet p >>= fun next => consume files next d.2 := by
  rw [consume_takeSwitch, takeSwitch_eq_demand]
  cases demand s own ws with
  | error e => rfl
  | ok next =>
    rw [ok_bind, ok_bind]
    cases next.1.meet p <;> rfl

/-- What a plain word in front of others is taken for. -/
def takenPlain (files : FileTree) (p : Progress) (word : String) : Except Stop Progress :=
  match p.dumpFile with
  | none => takeFile files p word
  | some _ => .ok { p with leftOver := true }

theorem dumpFile_takeFile {word : String} {next : Progress}
    (h : takeFile files p word = .ok next) : next.dumpFile.isSome = true := by
  unfold takeFile at h
  split at h
  next =>
    cases h
    rfl
  next => cases h

/-- Once there is a file, all words behind the last option are left over. -/
theorem finish_of_file (h : p.dumpFile.isSome = true) (ws : List Word) :
    finish files p ws = .ok { p with leftOver := p.leftOver || not ws.isEmpty } := by
  unfold finish
  split <;> simp_all

theorem finish_plain {word : String} {ws : List Word} (hws : ∀ w ∈ ws.head?, w ≠ .separator) :
    finish files p (.plain word :: ws) =
      takenPlain files p word >>= fun next => finish files next ws := by
  unfold takenPlain
  cases hfile : p.dumpFile with
  | some path =>
    have hsome : p.dumpFile.isSome = true := by rw [hfile]; rfl
    rw [ok_bind, finish_of_file hsome, finish_of_file (p := ⟨some path, p.options, true⟩) rfl,
      Bool.true_or, List.isEmpty_cons, Bool.not_false, Bool.or_true, hfile]
  | none =>
    have hfinish : finish files p (.plain word :: ws) = takeFile files p word >>= fun next =>
        .ok { next with leftOver := next.leftOver || not ws.isEmpty } := by
      unfold finish
      rw [hfile]
      cases ws with
      | nil => rfl
      | cons w ws =>
        cases w with
        | separator => exact (hws _ rfl rfl).elim
        | plain | switch => rfl
    rw [hfinish]
    cases htaken : takeFile files p word with
    | error e => rfl
    | ok next => rw [ok_bind, ok_bind, finish_of_file (dumpFile_takeFile htaken)]

theorem consume_plain {word : String} {ws : List Word}
    (hws : hasSwitch ws = false → ∀ w ∈ ws.head?, w ≠ .separator) :
    consume files p (.plain word :: ws) =
      takenPlain files p word >>= fun next => consume files next ws := by
  cases hswitch : hasSwitch ws with
  | false =>
    rw [consume_of_no_switch (by simpa [hasSwitch] using hswitch),
      finish_plain (hws hswitch)]
    congr 1
    funext next
    rw [consume_of_no_switch hswitch]
  | true =>
    rw [consume.eq_def, if_neg (by simpa [hasSwitch] using hswitch)]
    unfold takenPlain
    dsimp only
    cases p.dumpFile <;> rfl

/-- The words in front of an option are consumed as if nothing followed them. -/
theorem consume_append (p : Progress) {front : List Word} (hfront : ∀ w ∈ front, w ≠ .separator)
    (s : Switch) (own : Option String) (ws : List Word) :
    consume files p (front ++ .switch s own :: ws) =
      consume files p front >>= fun next => consume files next (.switch s own :: ws) := by
  induction hlength : front.length using Nat.strongRecOn generalizing p front with
  | ind length ih =>
    subst hlength
    match front with
    | [] => rw [consume_nil]; rfl
    | .separator :: rest => exact (hfront _ List.mem_cons_self rfl).elim
    | .plain word :: rest =>
      have hrest : ∀ w ∈ rest, w ≠ .separator := fun w hw => hfront w (List.mem_cons_of_mem _ hw)
      have hswitch : hasSwitch (rest ++ .switch s own :: ws) = true := by simp [hasSwitch]
      rw [List.cons_append, consume_plain (by simp [hswitch]),
        consume_plain fun _ w hw => hrest w (List.mem_of_mem_head? hw), bind_assoc]
      congr 1
      funext next
      exact ih rest.length (Nat.lt_succ_self _) next hrest rfl
    | .switch s' own' :: rest =>
      rw [List.cons_append, consume_switch, consume_switch, demand_append]
      cases hdemand : demand s' own' rest with
      | error e => rfl
      | ok d =>
        have hsuffix := suffix_of_demand hdemand
        have hlength := Nat.lt_succ_of_le hsuffix.length_le
        have hd : ∀ w ∈ d.2, w ≠ .separator :=
          fun w hw => hfront w (List.mem_cons_of_mem _ (hsuffix.subset hw))
        change (d.1.meet p >>= fun next => consume files next (d.2 ++ .switch s own :: ws)) = _
        rw [ok_bind, bind_assoc]
        congr 1
        funext next
        exact ih d.2.length hlength next hd rfl

/-! ## Options beside others -/

/-- Whether words leave an option unset: it is none of those that they ask for. -/
def LeavesUnset (name : OptionName) (ws : List Word) : Prop :=
  ∀ own, Word.switch (.option name) own ∉ ws

/-- An option word asks for its own option only. -/
theorem eq_option_of_demand {s : Switch} {own : Option String} {ws rest : List Word}
    {asked : Except InputError Setting}
    (h : demand s own ws = .ok (.setting name asked, rest)) : s = .option name := by
  unfold demand at h
  split at h
  next => cases h
  next => cases h
  next => cases h
  next =>
    split at h
    next => cases h
    next =>
      cases h
      rfl
  next =>
    split at h
    next =>
      cases h
      rfl
    next =>
      split at h
      next =>
        split at h
        all_goals
          cases h
          rfl
      next => cases h

theorem meet_setting {s : Switch} {own : Option String} {ws : List Word} {d : Demand × List Word}
    (hs : s ≠ .option name) (hd : demand s own ws = .ok d) (p : Progress) :
    d.1.meet (p.setting name value) = (·.setting name value) <$> d.1.meet p := by
  obtain ⟨d, rest⟩ := d
  cases d with
  | unknown => rfl
  | setting other asked =>
    have hother : other ≠ name := fun h => hs (h ▸ eq_option_of_demand hd)
    cases asked with
    | error e => rfl
    | ok asked =>
      change Except.ok _ = Except.ok _
      unfold Progress.setting
      rw [Options.set_comm hother]

theorem takeFile_setting (hfiles : ∀ path, checkDumpFile files path = checkDumpFile files' path)
    (p : Progress) (word : String) :
    takeFile files' (p.setting name value) word =
      (·.setting name value) <$> takeFile files p word := by
  unfold takeFile
  rw [hfiles]
  cases checkDumpFile files' word <;> rfl

theorem finish_setting (hfiles : ∀ path, checkDumpFile files path = checkDumpFile files' path)
    (p : Progress) (ws : List Word) :
    finish files' (p.setting name value) ws = (·.setting name value) <$> finish files p ws := by
  have htaken : ∀ word (left : Bool),
      (takeFile files' (p.setting name value) word >>= fun next =>
        (.ok { next with leftOver := next.leftOver || left } : Except Stop Progress)) =
      (·.setting name value) <$> (takeFile files p word >>= fun next =>
        (.ok { next with leftOver := next.leftOver || left } : Except Stop Progress)) := by
    intro word left
    rw [takeFile_setting hfiles]
    cases takeFile files p word <;> rfl
  unfold finish
  have hfile : (p.setting name value).dumpFile = p.dumpFile := rfl
  rw [hfile]
  split
  next => exact htaken _ _
  next => exact htaken _ _
  next => exact htaken _ _
  next => rfl

/-- An option that words leave unset may be set before them or behind them. -/
theorem consume_setting (hfiles : ∀ path, checkDumpFile files path = checkDumpFile files' path)
    (p : Progress) {ws : List Word} (hws : LeavesUnset name ws) :
    consume files' (p.setting name value) ws = (·.setting name value) <$> consume files p ws := by
  induction hlength : ws.length using Nat.strongRecOn generalizing p ws with
  | ind length ih =>
    subst hlength
    cases hswitch : hasSwitch ws with
    | false =>
      rw [consume_of_no_switch hswitch, consume_of_no_switch hswitch, finish_setting hfiles]
    | true =>
      match ws with
      | .switch s own :: rest =>
        have hs : s ≠ .option name := fun h => hws own (h ▸ List.mem_cons_self)
        rw [consume_switch, consume_switch]
        cases hdemand : demand s own rest with
        | error e => rfl
        | ok d =>
          have hsuffix := suffix_of_demand hdemand
          have hd : LeavesUnset name d.2 :=
            fun own' h => hws own' (List.mem_cons_of_mem _ (hsuffix.subset h))
          rw [ok_bind, ok_bind, meet_setting hs hdemand]
          cases d.1.meet p with
          | error e => rfl
          | ok next => exact ih d.2.length (Nat.lt_succ_of_le hsuffix.length_le) next hd rfl
      | .plain word :: rest =>
        have hrest : LeavesUnset name rest := fun own h => hws own (List.mem_cons_of_mem _ h)
        have hplain : hasSwitch rest = true := by simpa [hasSwitch] using hswitch
        rw [consume_plain (by simp [hplain]), consume_plain (by simp [hplain])]
        have htaken : takenPlain files' (p.setting name value) word =
            (·.setting name value) <$> takenPlain files p word := by
          unfold takenPlain
          have hfile : (p.setting name value).dumpFile = p.dumpFile := rfl
          rw [hfile]
          split
          next => exact takeFile_setting hfiles p word
          next => rfl
        rw [htaken]
        cases takenPlain files p word with
        | error e => rfl
        | ok next => exact ih rest.length (Nat.lt_succ_self _) next hrest rfl
      | .separator :: rest =>
        have hrest : LeavesUnset name rest := fun own h => hws own (List.mem_cons_of_mem _ h)
        rw [consume.eq_def, consume.eq_def files, hswitch]
        exact ih rest.length (Nat.lt_succ_self _) { p with leftOver := true } hrest rfl

theorem Progress.setting_get (p : Progress) (name : OptionName) :
    p.setting name (p.options.get name) = p := by
  unfold Progress.setting
  rw [Options.set_of_get rfl]

theorem get_of_consume {ws : List Word} (hws : LeavesUnset name ws) {next : Progress}
    (h : consume files p ws = .ok next) : next.options.get name = p.options.get name := by
  have hsame := @consume_setting files files name (p.options.get name) (fun _ => rfl) p ws hws
  rw [p.setting_get, h] at hsame
  have hnext : next = next.setting name (p.options.get name) := Except.ok.inj hsame
  rw [hnext]
  exact Options.get_set_self _ _ _

/-- Of files, only those that are taken for the dump file matter. -/
theorem consume_congr (hfiles : ∀ path, checkDumpFile files path = checkDumpFile files' path)
    (p : Progress) {ws : List Word} (hws : LeavesUnset name ws) :
    consume files' p ws = consume files p ws := by
  have hset := @consume_setting files files' name (p.options.get name) hfiles p ws hws
  rw [p.setting_get] at hset
  rw [hset]
  cases hconsume : consume files p ws with
  | error e => rfl
  | ok next =>
    change Except.ok (next.setting _ _) = _
    unfold Progress.setting
    rw [Options.set_of_get (get_of_consume hws hconsume)]

/-! ## Added options -/

/-- Whether an option takes words for a value, up to those that it leaves. -/
def Takes (name : OptionName) (value : Setting) (own : Option String) (ws back : List Word) :
    Prop :=
  ∀ p, (fun next => (next.1, next.2.val)) <$> takeSwitch p (.option name) own ws =
    .ok (p.setting name value, back)

/-- Whether words are those of an option, or there are none. -/
def StartsOption : List Word → Prop
  | [] | .switch .. :: _ => True
  | _ => False

/-- Whether a command line has the words of another one, and those of an option that the other one
leaves unset. They stand in front of everything, or in front of another option, or behind
everything. -/
def Adds (name : OptionName) (value : Setting) (args more : List String) : Prop :=
  ∃ front own ws back, words? args = some (front ++ back) ∧
    words? more = some (front ++ .switch (.option name) own :: ws) ∧
    Takes name value own ws back ∧ LeavesUnset name (front ++ back) ∧
    (front = [] ∨ StartsOption back)

theorem ne_separator_of_wordOf {word : String} {w : Word} (h : wordOf? word = some w) :
    w ≠ .separator := by
  rintro rfl
  unfold wordOf? at h
  dsimp only at h
  repeat' split at h
  all_goals cases h

/-- No option stands behind the separator. -/
theorem ne_separator_of_words {args : List String} {front ws : List Word} {s : Switch}
    {own : Option String} (h : words? args = some (front ++ .switch s own :: ws)) :
    ∀ w ∈ front, w ≠ .separator := by
  induction args generalizing front with
  | nil => simp [words?] at h
  | cons word args ih =>
    cases front with
    | nil => simp
    | cons f front =>
      by_cases hword : word = "--"
      · subst hword
        have hplain : args.map Word.plain = front ++ .switch s own :: ws :=
          (List.cons.inj (Option.some.inj h)).2
        have hmem : Word.switch s own ∈ args.map Word.plain := by simp [hplain]
        simp at hmem
      · rw [words?_cons hword] at h
        obtain ⟨w, hw, h⟩ := Option.bind_eq_some_iff.1 h
        obtain ⟨ws', hws', h⟩ := Option.bind_eq_some_iff.1 h
        obtain ⟨rfl, rfl⟩ := List.cons.inj (Option.some.inj h)
        intro w' hw'
        rcases List.mem_cons.1 hw' with rfl | hw'
        · exact ne_separator_of_wordOf hw
        · exact ih hws' w' hw'

theorem consume_of_startsOption {front back : List Word} (hfront : ∀ w ∈ front, w ≠ .separator)
    (hback : StartsOption back) (p : Progress) :
    consume files p (front ++ back) =
      consume files p front >>= fun next => consume files next back := by
  match back with
  | [] =>
    rw [List.append_nil]
    cases consume files p front with
    | error e => rfl
    | ok next => rw [ok_bind, consume_nil]
  | .switch s own :: ws => exact consume_append p hfront s own ws

theorem consume_added {front back ws : List Word} {own : Option String}
    (hfiles : ∀ path, checkDumpFile files path = checkDumpFile files' path)
    (hfront : ∀ w ∈ front, w ≠ .separator) (htakes : Takes name value own ws back)
    (hunset : LeavesUnset name (front ++ back)) (hapart : front = [] ∨ StartsOption back)
    (p : Progress) :
    consume files' p (front ++ .switch (.option name) own :: ws) =
      (·.setting name value) <$> consume files p (front ++ back) := by
  have hunsetBack : LeavesUnset name back := fun own h => hunset own (List.mem_append_right _ h)
  have hunsetFront : LeavesUnset name front := fun own h => hunset own (List.mem_append_left _ h)
  have hadded : ∀ p, consume files' p (.switch (.option name) own :: ws) =
      (·.setting name value) <$> consume files p back := by
    intro p
    rw [consume_takeSwitch, htakes]
    exact consume_setting hfiles p hunsetBack
  rcases hapart with rfl | hback
  · exact hadded p
  · rw [consume_append p hfront, consume_of_startsOption hfront hback,
      consume_congr hfiles p hunsetFront]
    cases consume files p front with
    | error e => rfl
    | ok next => exact hadded next

/-- What a command line asks for does not depend on the text of any file that is taken for the dump
file anyway. An option that its words leave unset has no value. -/
theorem parse_congr {args : List String}
    (hfiles : ∀ path, checkDumpFile files path = checkDumpFile files' path)
    (hargs : ∀ ws, words? args = some ws → LeavesUnset name ws) :
    parse files' args = parse files args ∧
      ∀ o, parse files args = .ok o → (o.get name).isUnset = true := by
  unfold parse
  split
  next =>
    refine ⟨rfl, fun o ho => ?_⟩
    cases ho
  next ws hws =>
    rw [consume_congr hfiles {} (hargs ws hws)]
    refine ⟨rfl, fun o ho => ?_⟩
    obtain ⟨p, hconsume, ho⟩ := bind_eq_ok.1 ho
    have hunset : (p.options.get name).isUnset = true := by
      rw [get_of_consume (hargs ws hws) hconsume]
      cases name <;> rfl
    split at ho
    next =>
      cases ho
      exact hunset
    next => cases ho

/-- What a command line with an option more asks for is what the other one does, with the option
set. -/
theorem parse_adds {args more : List String}
    (hfiles : ∀ path, checkDumpFile files path = checkDumpFile files' path)
    (h : Adds name value args more) :
    parse files' more = (·.set name value) <$> parse files args := by
  obtain ⟨front, own, ws, back, hargs, hmore, htakes, hunset, hapart⟩ := h
  unfold parse
  rw [hargs, hmore]
  dsimp only
  rw [consume_added hfiles (ne_separator_of_words hmore) htakes hunset hapart {}]
  cases consume files {} (front ++ back) with
  | error e => rfl
  | ok p =>
    obtain ⟨dumpFile, options, leftOver⟩ := p
    cases dumpFile <;> cases leftOver <;> rfl

theorem leavesUnset_of_adds {args more : List String} (h : Adds name value args more)
    (ws : List Word) (hws : words? args = some ws) : LeavesUnset name ws := by
  obtain ⟨front, own, taken, back, hargs, -, -, hunset, -⟩ := h
  rw [hargs] at hws
  exact Option.some.inj hws ▸ hunset

end CommandLine

end StorageSnapshot

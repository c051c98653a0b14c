-- SUMMARY: Command lines word by word: what their options are, and words in front of others.
import StorageSnapshot.Proofs.Merging

/-!
# Arguments

Words are consumed from the left, so that what a command line means is found by going through it.
Every value that a word gives an option can be shown.
-/

namespace StorageSnapshot.CommandLine

variable {files : FileTree} {P : Fault → Prop}

/-! ## Words -/

theorem words?_cons {word : String} (h : word ≠ "--") (rest : List String) :
    words? (word :: rest) = do return (← wordOf? word) :: (← words? rest) := by
  rw [words?]
  exact h

theorem wordOf?_plain {word : String} (h : word.toList.head? ≠ some '-') :
    wordOf? word = some (.plain word) := if_pos (.inl h)

/-- Whether a path of a file that can be read is taken for one depends on the path alone. -/
def checkPath (path : String) : Except Fault String :=
  if FilePath.byteCount path ≥ FilePath.pathEnd then throw (.file (.nameTooLong path))
  else if path.endsWith "/" || path.endsWith "/." then throw (.file (.notADirectory path))
  else .ok path

theorem checkDumpFile_of_parse {path text : String} {d : Datum}
    (hread : files.readText (.ofText path) = .ok text) (hparse : Json.Five.parse text = .ok d) :
    checkDumpFile files path = checkPath path := by
  unfold checkDumpFile checkPath
  rw [hread, ok_bind]
  simp only [hparse]
  split
  · rfl
  · split <;> rfl

/-! ## Values -/

/-- Whether a property holds of everything that words give options, and of options without words. -/
structure HoldsOfWords (Q : OptionName → Setting → Prop) : Prop where
  unset : ∀ name, Q name ((Options.unset "").get name)
  flag : ∀ name, name.isFlag = true → Q name (.value (.bool true))
  nothing : ∀ name, name.isFlag = false → Q name (settingOfMany [])
  many : ∀ name words, takesMany name = true → Q name (settingOfMany words)
  one : ∀ name word v, name.isFlag = false → takesMany name = false →
    settingOf name word = .ok v → Q name v

variable {Q : OptionName → Setting → Prop}

theorem HoldsOfWords.behindSign (hQ : HoldsOfWords Q) {name : OptionName} {word : String}
    {v : Setting} (hname : name.isFlag = false) (h : settingBehindSign name word = .ok v) :
    Q name v := by
  unfold settingBehindSign at h
  split at h
  · cases h
    exact hQ.nothing name hname
  · split at h
    next hmany =>
      cases h
      exact hQ.many name [word] hmany
    next hone => exact hQ.one name word v hname (Bool.eq_false_iff.2 hone) h

/-! ## Consuming words -/

theorem consume_of_no_switch {ws : List Word} (h : hasSwitch ws = false) (p : Progress) :
    consume files p ws = finish files p ws := by
  rw [consume.eq_def, if_pos (by rw [h]; rfl)]

/-! ## Options -/

/-- Whether a property holds of all options, and nothing is in the place of their hash. -/
structure AllHold (Q : OptionName → Setting → Prop) (o : Options) : Prop where
  settings : ∀ name, Q name (o.get name)
  mark : o.mark = none

/-- Whether a property holds of the options that were consumed. -/
abbrev EndsWith (Q : OptionName → Setting → Prop) (x : Except Stop Progress) : Prop :=
  EndsIn (fun _ => True) (fun p => AllHold Q p.options) x

theorem ends_takeSetting {p : Progress} (hp : AllHold Q p.options) {name : OptionName}
    {value : Except InputError Setting} (hvalue : ∀ v, value = .ok v → Q name v) :
    EndsWith Q (takeSetting p name value) := by
  unfold takeSetting
  split
  next v => exact ⟨Options.forall_get_set hp.settings (hvalue v rfl), hp.mark⟩
  next => trivial

theorem ends_takeSwitch (hQ : HoldsOfWords Q) {p : Progress}
    (hp : AllHold Q p.options) (s : Switch) (value : Option String)
    (ws : List Word) :
    EndsIn (fun _ => True) (fun next => AllHold Q next.1.options)
      (takeSwitch p s value ws) := by
  unfold takeSwitch
  split
  next => exact hp
  next => trivial
  next => trivial
  next name v =>
    refine .ite (fun _ => trivial) fun hflag => ?_
    have hvalue : ∀ w, settingBehindSign name v = .ok w → Q name w :=
      fun _ => hQ.behindSign (Bool.eq_false_iff.2 hflag)
    exact (ends_takeSetting hp hvalue).bind fun _ h => h
  next name =>
    refine .ite (fun hflag => ?_) fun hflag => ?_
    · refine (ends_takeSetting hp fun v hv => ?_).bind fun _ h => h
      cases hv
      exact hQ.flag name hflag
    · split
      next v rest =>
        refine .ite (fun hmany => ?_) fun hone => ?_
        · refine (ends_takeSetting hp fun v hv => ?_).bind fun _ h => h
          cases hv
          exact hQ.many name _ hmany
        · have hvalue : ∀ w, settingOf name v = .ok w → Q name w := fun w =>
            hQ.one name v w (Bool.eq_false_iff.2 hflag) (Bool.eq_false_iff.2 hone)
          exact (ends_takeSetting hp hvalue).bind fun _ h => h
      next => trivial

theorem ends_takeFile {p : Progress} (hp : AllHold Q p.options) (word : String) :
    EndsWith Q (takeFile files p word) := by
  unfold takeFile
  split
  next => exact hp
  next => trivial

theorem ends_finish {p : Progress} (hp : AllHold Q p.options) (ws : List Word) :
    EndsWith Q (finish files p ws) := by
  have htaken : ∀ word (left : Bool), EndsWith Q (takeFile files p word >>= fun next =>
      .ok { next with leftOver := next.leftOver || left }) :=
    fun word left => (ends_takeFile hp word).bind fun _ h => h
  unfold finish
  split
  next => exact htaken _ _
  next => exact htaken _ _
  next => exact htaken _ _
  next => exact hp

theorem ends_consume (hQ : HoldsOfWords Q) {p : Progress}
    (hp : AllHold Q p.options) (ws : List Word) :
    EndsWith Q (consume files p ws) := by
  induction hlength : ws.length using Nat.strongRecOn generalizing p ws with
  | ind length ih =>
    subst hlength
    rw [consume.eq_def]
    refine .ite (fun _ => ends_finish hp ws) fun _ => ?_
    match ws with
    | [] => exact hp
    | .switch s value :: rest =>
      refine (ends_takeSwitch hQ hp s value rest).bind fun next hnext => ?_
      exact ih _ (Nat.lt_succ_of_le next.2.property) hnext next.2.val rfl
    | .plain word :: rest =>
      dsimp only
      split
      next =>
        refine (ends_takeFile hp word).bind fun p' hp' => ?_
        exact ih _ (Nat.lt_succ_self _) hp' rest rfl
      next => exact ih _ (Nat.lt_succ_self _) (p := { p with leftOver := true }) hp rest rfl
    | .separator :: rest =>
      exact ih _ (Nat.lt_succ_self _) (p := { p with leftOver := true }) hp rest rfl

/-- What holds of all that words give options holds of the options of a command line. -/
theorem allHold_parse (hQ : HoldsOfWords Q) {args : List String} {o : Options}
    (h : parse files args = .ok o) : AllHold Q o := by
  unfold parse at h
  split at h
  next => cases h
  next ws _ =>
    obtain ⟨p, hconsume, hp⟩ := bind_eq_ok.1 h
    have hends := (ends_consume hQ ⟨hQ.unset, rfl⟩ ws).of_ok hconsume
    split at hp
    next =>
      cases hp
      exact ⟨hends.settings, hends.mark⟩
    next => cases hp

/-- Whether the numbers among options have no more digits than can be written. -/
def WritableNumbers (o : Options) : Prop :=
  ∀ name n, o.get name = .value (.int n) → Text.isWritable n = true

/-- Everything among the options of a command line can be shown if the numbers on it can be
written. -/
theorem allShow_parse {args : List String} {o : Options} (h : parse files args = .ok o)
    (hnumbers : WritableNumbers o) : o.AllShow P := by
  have hflag : ∀ b, (Setting.value (.bool b)).IsShown P := fun _ => Setting.isShown_value rfl nofun
  have hwords : HoldsOfWords fun _ v => (∀ n, v = .value (.int n) → Text.isWritable n = true) →
      v.IsShown P := by
    refine ⟨fun name _ => ?_, fun _ _ _ => hflag true, fun _ _ _ => Setting.isShown_texts [],
      fun _ words _ _ => Setting.isShown_texts words, fun name word v _ _ hv hwritable => ?_⟩
    · unfold Options.unset
      dsimp only
      split
      next => exact hflag false
      next => exact Setting.isShown_value rfl nofun
    · have hnumber : ∀ {x : Except InputError Nat},
          (fun (n : Nat) => Setting.value (.int n)) <$> x = .ok v → v.IsShown P := by
        intro x hx
        obtain ⟨n, -, rfl⟩ := map_eq_ok.1 hx
        exact Setting.isShown_value (hwritable n rfl) nofun
      cases name with
      | maxLength | maxDepth => exact hnumber hv
      | _ =>
        cases hv
        exact Setting.isShown_path _
  obtain ⟨hsettings, hmark⟩ := allHold_parse hwords h
  refine ⟨fun name => hsettings name (hnumbers name), ?_⟩
  rw [hmark]
  nofun

end StorageSnapshot.CommandLine

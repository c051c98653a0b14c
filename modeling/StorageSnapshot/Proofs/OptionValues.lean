-- SUMMARY: Of which kinds the values of options are, in dump files and on command lines.
import StorageSnapshot.Proofs.Arguments

/-!
# Kinds of option values

An option whose value is checked is a flag, a limit or a list of texts. Its values are all of one
kind, wherever they come from, so that two of them are only equal if they are the same.
-/

namespace StorageSnapshot

theorem Datum.same_texts {ss ss' : List String} :
    same (.list (ss.map .text)) (.list (ss'.map .text)) = true ↔ ss = ss' := by
  have hitems : Datum.sameItems (ss.map .text) (ss'.map .text) = true ↔ ss = ss' := by
    induction ss generalizing ss' with
    | nil => cases ss' <;> simp [sameItems]
    | cons s ss ih =>
      cases ss' with
      | nil => simp [sameItems]
      | cons s' ss' => simp [sameItems, same, ih]
  rw [same, hitems]

namespace Options

variable {o : Options} {name : OptionName} {given v : Datum}

/-- Whether a value is of the kind that an option has whose value is checked. -/
def IsOfKind : OptionName → Datum → Prop
  | .hashedKeys, d | .json, d | .quiet, d | .debug, d | .showDebugTopics, d => ∃ b, d = .bool b
  | .variable, d | .mappingKey, d | .debugTopics, d => ∃ ss : List String, d = .list (ss.map .text)
  | .maxLength, d | .maxDepth, d => ∃ n : Nat, d = .int n
  | .debugLogFile, _ | .abortReport, _ => False

/-- Whether a setting is what a command line leaves of an option whose value is checked. An option
that is given no word has no items. -/
def IsParsed (name : OptionName) (s : Setting) : Prop :=
  isChecked name = true → ∃ d, s = .value d ∧ (d = .null ∨ d = .list [] ∨ IsOfKind name d)

theorem isOfKind_of_checked (hname : isChecked name = true) (h : checked name given = .ok v) :
    IsOfKind name v := by
  cases name with
  | debugLogFile | abortReport => cases hname
  | _ =>
    obtain ⟨a, -, rfl⟩ := map_eq_ok.1 h
    exact ⟨a, rfl⟩

/-- The values of an option are equal only if they are the same. -/
theorem equals_iff {s : Setting} (hname : isChecked name = true) (hs : IsParsed name s)
    (hv : IsOfKind name v) : s.equals v = true ↔ s = .value v := by
  obtain ⟨d, rfl, hd⟩ := hs hname
  rw [Setting.value.injEq, Setting.equals]
  have htruth : (∃ b, v = .bool b) → (d = .null ∨ d = .list [] ∨ ∃ b, d = .bool b) →
      (d.same v = true ↔ d = v) := by
    rintro ⟨b, rfl⟩ (rfl | rfl | ⟨b', rfl⟩)
    · simp [Datum.same, Datum.integer?]
    · simp [Datum.same, Datum.integer?]
    · cases b <;> cases b' <;> simp [Datum.same, Datum.integer?]
  have htexts : (∃ ss : List String, v = .list (ss.map .text)) →
      (d = .null ∨ d = .list [] ∨ ∃ ss : List String, d = .list (ss.map .text)) →
      (d.same v = true ↔ d = v) := by
    have hlists (ss ss' : List String) : (Datum.list (ss.map .text)).same (.list (ss'.map .text)) =
        true ↔ Datum.list (ss.map .text) = .list (ss'.map .text) := by
      rw [Datum.same_texts, Datum.list.injEq, List.map_inj_right fun _ _ => Datum.text.inj]
    rintro ⟨ss, rfl⟩ (rfl | rfl | ⟨ss', rfl⟩)
    · simp [Datum.same, Datum.integer?]
    · exact hlists [] ss
    · exact hlists ss' ss
  have hnumber : (∃ n : Nat, v = .int n) → (d = .null ∨ d = .list [] ∨ ∃ n : Nat, d = .int n) →
      (d.same v = true ↔ d = v) := by
    rintro ⟨n, rfl⟩ (rfl | rfl | ⟨n', rfl⟩) <;> simp [Datum.same, Datum.integer?]
  cases name with
  | debugLogFile | abortReport => cases hname
  | «variable» | mappingKey | debugTopics => exact htexts hv hd
  | maxLength | maxDepth => exact hnumber hv hd
  | _ => exact htruth hv hd

/-- The settings of a command line are of the kinds of its options. -/
theorem isParsed_parse {files : FileTree} {args : List String}
    (h : CommandLine.parse files args = .ok o) (name : OptionName) :
    IsParsed name (o.get name) := by
  refine (CommandLine.allHold_parse (Q := IsParsed) ⟨?_, ?_, ?_, ?_, ?_⟩ h).settings name
  · intro name hname
    cases name with
    | debugLogFile | abortReport => cases hname
    | «variable» | mappingKey | debugTopics | maxLength | maxDepth => exact ⟨_, rfl, .inl rfl⟩
    | _ => exact ⟨_, rfl, .inr (.inr ⟨false, rfl⟩)⟩
  · intro name hflag hname
    cases name with
    | hashedKeys | json | quiet | debug | showDebugTopics =>
      exact ⟨_, rfl, .inr (.inr ⟨true, rfl⟩)⟩
    | _ => cases hflag
  · exact fun _ _ _ => ⟨_, rfl, .inr (.inl rfl)⟩
  · intro name words hmany _
    cases name with
    | «variable» | mappingKey | debugTopics => exact ⟨_, rfl, .inr (.inr ⟨words, rfl⟩)⟩
    | _ => cases hmany
  · intro name word s hflag hmany hs hname
    cases name with
    | maxLength | maxDepth =>
      obtain ⟨n, -, rfl⟩ := map_eq_ok.1 hs
      exact ⟨_, rfl, .inr (.inr ⟨n, rfl⟩)⟩
    | debugLogFile | abortReport => cases hname
    | «variable» | mappingKey | debugTopics => cases hmany
    | _ => cases hflag

end Options

end StorageSnapshot

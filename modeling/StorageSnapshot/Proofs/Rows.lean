-- SUMMARY: Rows that say that a value is not decodable, and the records behind them.
import Mathlib.Data.List.Forall2
import StorageSnapshot.Proofs.Silence
import StorageSnapshot.Report.Row

/-!
# Rows without a value

A row says that its value is not decodable where the type of a variable is not known or a value was
given up, and each of these leaves one record. The rows that say so and the records follow each
other in the same order.
-/

namespace StorageSnapshot

open Traced (Silent)

/-! ## Texts -/

namespace Text

/-- A numeral has a digit in it. -/
theorem exists_digit_mem_decimal (n : Int) : ∃ ch ∈ (decimal n).toList, ch.isDigit = true := by
  have hdigit : ∀ m, ∃ ch ∈ Nat.toDigits 10 m, ch.isDigit = true := by
    intro m
    obtain ⟨ch, hch⟩ := List.exists_mem_of_ne_nil _ (Nat.toDigits_ne_nil (n := m) (b := 10))
    exact ⟨ch, hch, Nat.isDigit_of_mem_toDigits (by decide) (by decide) hch⟩
  cases n with
  | ofNat m => simpa [decimal] using hdigit m
  | negSucc m =>
    obtain ⟨ch, hch, hisDigit⟩ := hdigit (m + 1)
    exact ⟨ch, by simp [decimal, hch], hisDigit⟩

end Text

/-- What a row says of a value that is not decodable is the text of no value: every value has a
character in its text that is not in this one. -/
theorem Value.text_ne_notDecodable (v : Value) : v.text ≠ "<not decodable>" := by
  have hne : ∀ {s : String} (ch : Char), ch ∈ s.toList → ch ∉ "<not decodable>".toList →
      s ≠ "<not decodable>" := by
    rintro s ch hmem hnot rfl
    exact hnot hmem
  cases v with
  | int n =>
    obtain ⟨ch, hmem, hdigit⟩ := Text.exists_digit_mem_decimal n
    refine hne ch (by simpa [text] using hmem) ?_
    have hnone : ("<not decodable>".toList.all fun ch => !ch.isDigit) = true := rfl
    intro hch
    have hnot := List.all_eq_true.1 hnone ch hch
    rw [hdigit] at hnot
    cases hnot
  | bool b => cases b <;> decide
  | fixedBytes b => exact hne 'x' (by simp [text, bytesText]) (by decide)
  | bytes b => exact hne 'x' (by simp [text, bytesText]) (by decide)
  | address a => exact hne 'x' (by simp [text, Address.text]) (by decide)
  | enum ordinal member =>
    cases member with
    | none => exact hne '(' (by simp [text]) (by decide)
    | some name => exact hne '(' (by simp [text]) (by decide)
  | string s =>
    have hquote : ∀ single double, Text.quoteFor single double ∉ "<not decodable>".toList := by
      decide
    have hmem : Text.quoteFor (s.toList.contains '\'') (s.toList.contains '"') ∈
        (Text.quoted s).toList := by
      rw [Text.quoted, String.toList_ofList]
      exact List.mem_append_left _ List.mem_cons_self
    exact hne _ hmem (hquote _ _)
  | array elements => exact hne '[' (by simp [text]) (by decide)
  | struct fields => exact hne '\x7b' (by simp [text]) (by decide)

/-- What the values of a dump are decoded with. -/
def Dump.context (dump : Dump) : Context where
  store := dump.store
  resolver := dump.index.resolver
  limits := dump.limits

namespace Report

/-- Whether a row says that its value is not decodable. -/
def Row.isNotDecodable (r : Row) : Bool :=
  match r.valueText with
  | .ok s => s == "<not decodable>"
  | .error _ => false

theorem Row.isNotDecodable_of_value {r : Row} {v : Value} (h : r.value = some v) :
    r.isNotDecodable = false := by
  have hshown : r.valueText = v.shown := by rw [valueText, h]
  rw [isNotDecodable, hshown, Value.shown]
  split
  next s hs =>
    split at hs
    · obtain ⟨-, -, htext⟩ := bind_eq_ok.1 hs
      cases htext
      exact beq_eq_false_iff_ne.2 v.text_ne_notDecodable
    · cases hs
  next => rfl

/-! ## Rows and records -/

variable {dump : Dump} {v : StateVariable} {t : DeclaredType} {record : Record}

/-- Whether a row has no value for the reason that a record gives. -/
inductive GivenUp (dump : Dump) : Row → Record → Prop
  /-- The type of the variable is not known. -/
  | unresolved {v : StateVariable} {e : Unresolved}
    (h : (v.declaredType dump.index).result = .error (.unresolved e)) :
    GivenUp dump { label := v.label, declared := v, type := none, value := none }
      ⟨Topic.resolution, .warning,
        "Could not resolve the type of " ++ v.label.display ++ ": " ++ e.message⟩
  | value {v : StateVariable} {t : DeclaredType} {record : Record}
    (ht : (v.declaredType dump.index).result = .ok t)
    (h : (Decode.boundedValue dump.context 0 t.type v.place).aborts = [record]) :
    GivenUp dump { label := v.label, declared := v, type := some t, value := none } record
  /-- The value that a mapping holds for a path of keys was given up. -/
  | entry {v : StateVariable} {t : DeclaredType} {path : List String} {label : Datum}
    {record : Record} (ht : (v.declaredType dump.index).result = .ok t)
    (hlabel : entryLabel v.label path = .ok label)
    (h : (Decode.boundedMappingPath dump.context t.type v.place (path.map .text)).aborts =
      [record]) :
    GivenUp dump
      { label, declared := v, type := some { type := t.type.valueType }, value := none } record

/-- Whether the rows that say that a value is not decodable are given up for the reasons in
records, one for each, in the same order. -/
def Matched (dump : Dump) (rows : List Row) (records : List Record) : Prop :=
  List.Forall₂ (GivenUp dump) (rows.filter Row.isNotDecodable) records

namespace Matched

theorem nil : Matched dump [] [] := List.Forall₂.nil

theorem append {rows rows' : List Row} {records records' : List Record}
    (h : Matched dump rows records) (h' : Matched dump rows' records') :
    Matched dump (rows ++ rows') (records ++ records') := by
  rw [Matched, List.filter_append]
  exact List.rel_append h h'

theorem single {row : Row} (hrow : row.isNotDecodable = true) (h : GivenUp dump row record) :
    Matched dump [row] [record] := by
  rw [Matched, List.filter_cons_of_pos hrow]
  exact .cons h .nil

theorem other {row : Row} (hrow : row.isNotDecodable = false) : Matched dump [row] [] := by
  rw [Matched, List.filter_cons_of_neg (by simp [hrow])]
  exact .nil

/-- Rows that are made one after another, from parts that are matched each. -/
theorem mapM {α β : Type} {f : α → Traced Fault β} (toRows : β → List Row)
    (h : ∀ a b, (f a).result = .ok b → Matched dump (toRows b) (f a).aborts) (as : List α)
    {bs : List β} (hbs : (as.mapM f).result = .ok bs) :
    Matched dump (bs.flatMap toRows) (as.mapM f).aborts := by
  induction as generalizing bs with
  | nil =>
    rw [List.mapM_nil] at hbs ⊢
    rw [Traced.result_pure, Except.ok.injEq] at hbs
    subst hbs
    exact nil
  | cons a as ih =>
    rw [List.mapM_cons] at hbs ⊢
    obtain ⟨b, hb, hbs, haborts⟩ := Traced.ok_of_bind hbs
    obtain ⟨rest, hrest, rfl, hlater⟩ := Traced.ok_of_bind_pure hbs
    rw [haborts, hlater, List.flatMap_cons]
    exact (h a b hb).append (ih hrest)

end Matched

/-! ## Values -/

/-- A decoding has a value and nothing to report, or was given up for one reason. -/
theorem valueOrNone_eq_ok {x : Decoding (Decoded Value)} (hx : Decode.Reports x)
    {value : Option Value} (h : (valueOrNone x).result = .ok value) :
    (∃ v, value = some v ∧ x.aborts = []) ∨ value = none ∧ ∃ record, x.aborts = [record] := by
  rw [Decode.Reports] at hx
  unfold valueOrNone at h
  split at h
  next v _ hresult =>
    rw [hresult] at hx
    rw [Except.ok.injEq] at h
    exact .inl ⟨v, h.symm, List.length_eq_zero_iff.1 hx⟩
  next hresult =>
    rw [hresult] at hx
    rw [Except.ok.injEq] at h
    exact .inr ⟨h.symm, List.length_eq_one_iff.1 hx⟩
  next => cases h

theorem aborts_valueOrNone (x : Decoding (Decoded Value)) : (valueOrNone x).aborts = x.aborts := by
  unfold valueOrNone
  split <;> rfl

theorem isMapping_valueType : ∀ t : Ty, Row.isMapping t.valueType = false
  | .mapping _ _ _ value => isMapping_valueType value
  | .elementary _ | .bytes | .string | .array .. | .enum .. | .struct .. | .aliasOf ..
  | .aliasNode .. | .contract .. => rfl

/-! ## Variables -/

/-- A row with the value of a decoding: it has one, or was given up for one reason. -/
theorem matched_of_value {x : Decoding (Decoded Value)} (hx : Decode.Reports x)
    {value : Option Value} (hvalue : (valueOrNone x).result = .ok value) (label : Datum)
    (ht : Row.isMapping t.type = false)
    (hgiven : ∀ record, x.aborts = [record] →
      GivenUp dump { label, declared := v, type := some t, value := none } record) :
    Matched dump [{ label, declared := v, type := some t, value }] x.aborts := by
  rcases valueOrNone_eq_ok hx hvalue with ⟨w, rfl, haborts⟩ | ⟨rfl, record, haborts⟩
  · rw [haborts]
    exact .other (Row.isNotDecodable_of_value rfl)
  · have hrow : Row.isNotDecodable
        { label, declared := v, type := some t, value := none } = true := by
      simp [Row.isNotDecodable, Row.valueText, ht]
    rw [haborts]
    exact .single hrow (hgiven record haborts)

theorem matched_entryRow (ht : (v.declaredType dump.index).result = .ok t) (keys : String)
    {row : Row} (h : (entryRow dump.context v t.type keys).result = .ok row) :
    Matched dump [row] (entryRow dump.context v t.type keys).aborts := by
  unfold entryRow at h ⊢
  obtain ⟨value, hvalue, h, haborts⟩ := Traced.ok_of_bind h
  obtain ⟨label, hlabel, rfl, hlater⟩ := Traced.ok_of_bind_pure h
  rw [haborts, hlater, Silent.lift, List.append_nil, aborts_valueOrNone]
  exact matched_of_value (Decode.reports_boundedMappingPath ..) hvalue label
    (isMapping_valueType t.type) fun record haborts => .entry ht hlabel haborts

/-- The one record of a variable whose type is not known. -/
theorem matched_unresolved {e : Unresolved}
    (h : (v.declaredType dump.index).result = .error (.unresolved e)) (keys : List String)
    {rows : List Row} (hrows : (rowsOf dump v keys).result = .ok rows) :
    Matched dump rows (rowsOf dump v keys).aborts := by
  have hreplay : Silent ((v.declaredType dump.index).replay : Traced Fault Unit) :=
    v.silent_declaredType dump.index
  simp only [rowsOf, h] at hrows ⊢
  obtain ⟨⟨⟩, -, hrows, haborts⟩ := hreplay.ok_of_bind hrows
  rw [haborts]
  obtain ⟨⟨⟩, -, hrows, haborts⟩ := (Silent.lift _).ok_of_bind hrows
  rw [haborts]
  cases hrows
  exact .single rfl (.unresolved h)

/-- The rows of a variable: one, or one for each path of keys that was asked for. -/
theorem matched_rowsOf (v : StateVariable) (keys : List String) {rows : List Row}
    (h : (rowsOf dump v keys).result = .ok rows) :
    Matched dump rows (rowsOf dump v keys).aborts := by
  cases hresult : (v.declaredType dump.index).result with
  | error f =>
    cases f with
    | unresolved e => exact matched_unresolved hresult keys h
    | _ =>
      simp only [rowsOf, hresult, Traced.result_bind, error_bind] at h
      cases h
  | ok t =>
    simp only [rowsOf, hresult] at h ⊢
    obtain ⟨t', ht', h, haborts⟩ := (v.silent_declaredType dump.index).ok_of_bind h
    cases hresult.symm.trans ht'
    rw [haborts]
    by_cases hmapping : Row.isMapping t.type = true
    · rw [if_pos hmapping] at h ⊢
      split at h
      -- Without keys nothing is decoded, and the row says that it is a mapping.
      next =>
        cases h
        have hrow : Row.isNotDecodable
            { label := v.label, declared := v, type := some t, value := none } = false := by
          simp [Row.isNotDecodable, Row.valueText, hmapping]
        exact .other hrow
      next =>
        have hmatched := Matched.mapM (fun row => [row])
          (fun keys row hrow => matched_entryRow hresult keys hrow) keys h
        rwa [List.flatMap_singleton'] at hmatched
    · rw [if_neg hmapping] at h ⊢
      split at h
      next =>
        obtain ⟨-, -, h, -⟩ := (Silent.lift _).ok_of_bind h
        cases h
      next hkeys =>
        obtain ⟨value, hvalue, rfl, haborts⟩ := Traced.ok_of_bind_pure h
        rw [if_neg hkeys, haborts, aborts_valueOrNone]
        exact matched_of_value (Decode.reports_boundedValue ..) hvalue v.label
          (Bool.eq_false_iff.2 hmapping) fun record haborts => .value hresult haborts

/-- The rows of a dump: those without a value are given up for the reasons in its records. -/
theorem matched_rows (names : List String) (requests : List (String × List String))
    {rs : List Row} (h : (rows dump names requests).result = .ok rs) :
    Matched dump rs (rows dump names requests).aborts := by
  unfold rows at h ⊢
  split at h
  next => cases h
  next =>
    split at h
    next =>
      obtain ⟨parts, hparts, rfl, haborts⟩ := Traced.ok_of_bind_pure h
      rw [haborts, ← List.flatMap_id]
      refine Matched.mapM id (fun v rows hrows => ?_) _ hparts
      obtain ⟨-, -, hrows, hlabel⟩ := (Silent.lift _).ok_of_bind hrows
      obtain ⟨-, -, hrows, hdebug⟩ := (Silent.debug _ _).ok_of_bind hrows
      rw [hlabel, hdebug]
      exact matched_rowsOf v _ hrows
    next => cases h

end Report

end StorageSnapshot

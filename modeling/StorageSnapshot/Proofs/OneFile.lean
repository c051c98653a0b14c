-- SUMMARY: Trees of files that differ in the text of one file, and what is read and written there.
import StorageSnapshot.Proofs.Files

/-!
# Trees that differ in one file

Where a path leads does not depend on the text of any file, so that two trees that differ in the
text of one file are seen alike by every path that does not lead to it. They stay such trees when
the same text is written to the same place of both.
-/

namespace StorageSnapshot.FileTree

variable {t t' : FileTree} {place other : FilePath}

/-! ## Written places -/

theorem any_within_filter_ne (place q : FilePath) (entries : List (FilePath × FileEntry)) :
    (place.within q || (entries.filter fun e => e.1 ≠ place).any fun e => e.1.within q) =
      (place.within q || entries.any fun e => e.1.within q) := by
  induction entries with
  | nil => rfl
  | cons e entries ih =>
    by_cases he : e.1 = place
    · rw [List.filter_cons_of_neg (by simp [he]), ih, List.any_cons, he, ← Bool.or_assoc,
        Bool.or_self]
    · rw [List.filter_cons_of_pos (by simp [he]), List.any_cons, List.any_cons, Bool.or_left_comm,
        ih, Bool.or_left_comm]

/-- What was written is there, the places around it are directories, and the others stay. -/
theorem at?_write_eq (hdevice : t.at? place ≠ some .device) (text : String) (q : FilePath) :
    (t.write place text).at? q =
      if q.isAround then some .directory
      else if q = place then some (.file text)
      else (t.at? q).or (if place.within q then some .directory else none) := by
  have hwrite : t.write place text =
      ⟨(place, .file text) :: t.entries.filter fun e => e.1 ≠ place⟩ := by
    unfold write
    split
    next h => exact (hdevice h).elim
    next => rfl
  rw [hwrite, at?]
  split
  next => rfl
  next haround =>
    by_cases hq : q = place
    · rw [if_pos hq, hq, List.lookup_cons_self]
    · rw [if_neg hq, List.lookup_cons, beq_false_of_ne hq, lookup_filter_ne hq, List.any_cons,
        any_within_filter_ne, at?, if_neg haround]
      cases t.entries.lookup q with
      | some e => rfl
      | none =>
        cases place.within q <;> cases t.entries.any fun e => e.1.within q <;> rfl

/-! ## Trees that differ in one file -/

/-- Whether two trees hold the same everywhere but at one place, where both have a file. -/
structure SameBut (place : FilePath) (t t' : FileTree) : Prop where
  first : ∃ s, t.at? place = some (.file s)
  second : ∃ s, t'.at? place = some (.file s)
  elsewhere : ∀ q, q ≠ place → t.at? q = t'.at? q

namespace SameBut

variable (h : SameBut place t t')

include h

/-- Both trees have a directory at a place, or both have not; the same holds of nothing at all. -/
theorem cases_at? (q : FilePath) :
    t.at? q = t'.at? q ∨ (∃ s, t.at? q = some (.file s)) ∧ ∃ s, t'.at? q = some (.file s) := by
  by_cases hq : q = place
  · exact .inr ⟨hq ▸ h.first, hq ▸ h.second⟩
  · exact .inl (h.elsewhere q hq)

theorem follow_eq (directory : FilePath) (parts : List String) :
    t.follow directory parts = t'.follow directory parts := by
  induction parts generalizing directory with
  | nil => rfl
  | cons part parts ih =>
    unfold follow
    rcases h.cases_at? directory with hsame | ⟨⟨s, hs⟩, s', hs'⟩
    · rw [hsame]
      simp only [ih]
    · rw [hs, hs']

theorem place_eq (p : FilePath) : t.place p = t'.place p := by
  unfold FileTree.place
  rw [h.follow_eq]

theorem writable_eq (p : FilePath) : t.writable p = t'.writable p := by
  unfold writable
  rw [h.place_eq]
  cases t'.place p with
  | error e => rfl
  | ok q =>
    rw [ok_bind, ok_bind]
    rcases h.cases_at? q with hsame | ⟨⟨s, hs⟩, s', hs'⟩
    · rw [hsame]
      rcases h.cases_at? q.outward with hsame | ⟨⟨s, hs⟩, s', hs'⟩
      · rw [hsame]
      · rw [hs, hs']
        match t'.at? q with
        | none | some (.file _) | some .device | some .directory => rfl
    · rw [hs, hs']

/-- A path that does not lead to the file leads to the same thing in both trees. -/
theorem find?_eq {p : FilePath} (hp : t.place p ≠ .ok place) : t.find? p = t'.find? p := by
  unfold find?
  rw [← h.place_eq]
  cases hplace : t.place p with
  | error e => cases e <;> rfl
  | ok q =>
    dsimp only
    rw [h.elsewhere q fun hq => hp (hq ▸ hplace)]

theorem readText_eq {p : FilePath} (hp : t.place p ≠ .ok place) :
    t.readText p = t'.readText p := by
  unfold readText
  rw [h.find?_eq hp]

/-- Both files may get a text of their own. -/
theorem write_there (text text' : String) :
    SameBut place (t.write place text) (t'.write place text') := by
  obtain ⟨s, hs⟩ := h.first
  obtain ⟨s', hs'⟩ := h.second
  have hdevice : t.at? place ≠ some .device := by simp [hs]
  have hdevice' : t'.at? place ≠ some .device := by simp [hs']
  have haround := (at?_eq_file.1 hs).1
  refine ⟨⟨text, at?_write haround hdevice text⟩, ⟨text', at?_write haround hdevice' text'⟩, ?_⟩
  intro q hq
  rw [at?_write_eq hdevice, at?_write_eq hdevice', h.elsewhere q hq, if_neg hq, if_neg hq]

theorem write (other : FilePath) (text : String) :
    SameBut place (t.write other text) (t'.write other text) := by
  by_cases hother : place = other
  · exact hother ▸ h.write_there text text
  · obtain ⟨s, hs⟩ := h.first
    obtain ⟨s', hs'⟩ := h.second
    have hsame := h.elsewhere other (Ne.symm hother)
    refine ⟨⟨s, at?_write_of_ne hother hs text⟩, ⟨s', at?_write_of_ne hother hs' text⟩, ?_⟩
    intro q hq
    by_cases hdevice : t.at? other = some .device
    · have hdevice' := hsame ▸ hdevice
      unfold FileTree.write
      rw [hdevice, hdevice']
      exact h.elsewhere q hq
    · have hdevice' : t'.at? other ≠ some .device := hsame ▸ hdevice
      rw [at?_write_eq hdevice, at?_write_eq hdevice', h.elsewhere q hq]

theorem append (other : FilePath) (text : String) :
    SameBut place (t.append other text) (t'.append other text) := by
  unfold FileTree.append
  by_cases hother : other = place
  · obtain ⟨s, hs⟩ := h.first
    obtain ⟨s', hs'⟩ := h.second
    subst hother
    rw [hs, hs']
    exact h.write_there _ _
  · rw [h.elsewhere other hother]
    split
    next => exact h.write _ _
    next => exact h.write _ _

end SameBut

/-! ## Places of paths -/

/-- Where a path leads is told by the path alone, if it leads anywhere. -/
theorem follow_eq_ok {directory q : FilePath} {parts : List String}
    (h : t.follow directory parts = .ok q) :
    q = parts.foldl (fun done part => if part = ".." then done.outward else done.child part)
      directory := by
  induction parts generalizing directory with
  | nil =>
    cases h
    rfl
  | cons part parts ih =>
    unfold follow at h
    split at h
    next =>
      split at h
      next => cases h
      next => exact ih h
    next => cases h
    next => cases h
    next => cases h

theorem place_eq_ok {p q : FilePath} (h : t.place p = .ok q) : q = p.collapsed := by
  unfold FileTree.place at h
  split at h
  next => cases h
  next =>
    split at h
    next => cases h
    next => exact follow_eq_ok h

/-! ## Paths after writing -/

theorem at?_ne_directory_of_writable {p : FilePath} (h : t.writable p = .ok place) :
    t.at? place ≠ some .directory := by
  unfold writable at h
  obtain ⟨found, -, h⟩ := bind_eq_ok.1 h
  intro hdirectory
  split at h
  next => cases h
  all_goals cases h
  all_goals simp_all

/-- Writing makes no directory of what is none, and takes none away. -/
theorem at?_append_directory (hother : t.at? other ≠ some .directory) (text : String) :
    (∀ q, t.at? q = some .directory → (t.append other text).at? q = some .directory) ∧
      (t.append other text).at? other ≠ some .directory := by
  have haround : other.isAround = false := by
    cases haround : other.isAround with
    | true => exact (hother (if_pos haround)).elim
    | false => rfl
  have hwrite : ∀ text, (∀ q, t.at? q = some .directory →
      (t.write other text).at? q = some .directory) ∧
        (t.write other text).at? other ≠ some .directory := by
    intro text
    by_cases hdevice : t.at? other = some .device
    · have hsame : t.write other text = t := by
        unfold write
        rw [hdevice]
      rw [hsame]
      exact ⟨fun _ h => h, hother⟩
    · refine ⟨fun q hq => ?_, ?_⟩
      · rw [at?_write_eq hdevice]
        split
        next => rfl
        next =>
          have hne : q ≠ other := by
            rintro rfl
            exact hother hq
          rw [if_neg hne, hq]
          rfl
      · rw [at?_write_eq hdevice, haround]
        simp
  unfold append
  split
  next => exact hwrite _
  next => exact hwrite _

theorem follow_append (hother : t.at? other ≠ some .directory) (text : String)
    {directory q : FilePath} {parts : List String} (h : t.follow directory parts = .ok q) :
    (t.append other text).follow directory parts = .ok q := by
  induction parts generalizing directory with
  | nil => exact h
  | cons part parts ih =>
    unfold follow at h ⊢
    split at h
    next hdirectory =>
      rw [(at?_append_directory hother text).1 _ hdirectory]
      dsimp only
      split at h
      next => cases h
      next hlength =>
        rw [if_neg hlength]
        exact ih h
    next => cases h
    next => cases h
    next => cases h

/-- A path that leads somewhere still does when a file has been written. -/
theorem place_append (hother : t.at? other ≠ some .directory) (text : String) {p q : FilePath}
    (h : t.place p = .ok q) : (t.append other text).place p = .ok q := by
  unfold FileTree.place at h ⊢
  split at h
  next => cases h
  next hdefect =>
    split at h
    next => cases h
    next hlength =>
      rw [if_neg hlength]
      exact follow_append hother text h

end StorageSnapshot.FileTree

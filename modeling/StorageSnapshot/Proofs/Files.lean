-- SUMMARY: What places of a tree of files hold after something was written.
import StorageSnapshot.Files
import StorageSnapshot.Proofs.Outcome

/-!
# Written files

A place that is written to holds what was written, and the files at other places stay.
-/

namespace StorageSnapshot

namespace FileTree

variable {t : FileTree} {place other : FilePath} {text : String}

theorem at?_eq_file : t.at? place = some (.file text) ↔
    place.isAround = false ∧ t.entries.lookup place = some (.file text) := by
  unfold at?
  split
  next h => simp [h]
  next h =>
    rw [Bool.not_eq_true] at h
    split
    next e he => simp [h, he]
    next hnone => split <;> simp [h, hnone]

/-- What was written is there, if the place keeps what is written. -/
theorem at?_write (haround : place.isAround = false) (hdevice : t.at? place ≠ some .device)
    (text : String) : (t.write place text).at? place = some (.file text) := by
  unfold write
  split
  next h => exact absurd h hdevice
  next => exact at?_eq_file.2 ⟨haround, List.lookup_cons_self⟩

theorem lookup_filter_ne (hne : place ≠ other) (entries : List (FilePath × FileEntry)) :
    (entries.filter fun e => e.1 ≠ other).lookup place = entries.lookup place := by
  induction entries with
  | nil => rfl
  | cons e entries ih =>
    obtain ⟨key, entry⟩ := e
    by_cases hkey : key = other
    · have hother : (place == key) = false := beq_false_of_ne (hkey ▸ hne)
      rw [List.filter_cons_of_neg (by simp [hkey]), List.lookup_cons, hother]
      exact ih
    · rw [List.filter_cons_of_pos (by simp [hkey]), List.lookup_cons, List.lookup_cons, ih]

/-- A file stays when another place is written to. -/
theorem at?_write_of_ne (hne : place ≠ other) (h : t.at? place = some (.file text))
    (written : String) : (t.write other written).at? place = some (.file text) := by
  obtain ⟨haround, hlookup⟩ := at?_eq_file.1 h
  unfold write
  split
  next => exact h
  next =>
    refine at?_eq_file.2 ⟨haround, ?_⟩
    rw [List.lookup_cons, beq_false_of_ne hne, lookup_filter_ne hne]
    exact hlookup

/-- Nothing at the end of a file changes no file. -/
theorem at?_append_nothing (other : FilePath) (h : t.at? place = some (.file text)) :
    (t.append other "").at? place = some (.file text) := by
  by_cases hne : place = other
  · subst hne
    have hdevice : t.at? place ≠ some .device := by simp [h]
    have happend : t.append place "" = t.write place text := by
      simp [append, h]
    rw [happend]
    exact at?_write (at?_eq_file.1 h).1 hdevice text
  · unfold append
    split
    next => exact at?_write_of_ne hne h _
    next => exact at?_write_of_ne hne h _

/-- A file is written at a place that is no directory. -/
theorem isAround_of_writable {p : FilePath} (h : t.writable p = .ok place) :
    place.isAround = false := by
  unfold writable at h
  obtain ⟨found, -, h⟩ := bind_eq_ok.1 h
  cases haround : found.isAround with
  | true =>
    have hdirectory : t.at? found = some .directory := by rw [at?, if_pos haround]
    rw [hdirectory] at h
    cases h
  | false =>
    split at h
    next => cases h
    all_goals cases h
    all_goals exact haround

end FileTree

end StorageSnapshot

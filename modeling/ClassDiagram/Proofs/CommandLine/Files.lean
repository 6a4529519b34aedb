import ClassDiagram.CommandLine.Files
import Mathlib.Logic.Function.Basic

/-! What writing does to files, seen as a map from paths to contents. It changes the one path that
was written to. Directories stay as they are, and so every text of a path leads where it led. -/

namespace ClassDiagram.CommandLine

def Path.kept (path : Path) (content : String) : ByteArray :=
  if path = nullDevice then .empty else content.toUTF8

namespace Files

variable {files after : Files} {path : Path} {text content : String}

def target? (files : Files) (text : String) : Option Path :=
  (files.resolve? text).filter fun path => !files.isDirectory path && path ≠ Path.fullDevice

section Entries

variable {bytes : ByteArray} {entries : List (Path × ByteArray)}

theorem lookup_put (other : Path) :
    (put path bytes entries).lookup other =
      if other = path then some bytes else entries.lookup other := by
  induction entries with
  | nil =>
      rw [put, List.lookup_cons, List.lookup_nil]
      by_cases here : other = path
      · rw [if_pos here, beq_iff_eq.mpr here]
      · rw [if_neg here, beq_false_of_ne here]
  | cons entry rest ih =>
      obtain ⟨p, old⟩ := entry
      by_cases same : p = path
      · rw [put, if_pos same, List.lookup_cons, List.lookup_cons, same]
        by_cases here : other = path
        · rw [if_pos here, beq_iff_eq.mpr here]
        · rw [if_neg here, beq_false_of_ne here]
      · rw [put, if_neg same, List.lookup_cons, List.lookup_cons, ih]
        by_cases here : other = p
        · rw [beq_iff_eq.mpr here]
          exact (if_neg (here ▸ same)).symm
        · rw [beq_false_of_ne here]

theorem any_put (p : Path → Bool) :
    (put path bytes entries).any (fun entry => p entry.1) =
      (p path || entries.any fun entry => p entry.1) := by
  induction entries with
  | nil => simp [put]
  | cons entry rest ih =>
      by_cases same : entry.1 = path
      · rw [put, if_pos same, List.any_cons, List.any_cons, ← same, ← Bool.or_assoc, Bool.or_self]
      · rw [put, if_neg same, List.any_cons, List.any_cons, ih, Bool.or_left_comm]

end Entries

def Reaches (files : Files) (path : Path) : Prop :=
  ∀ above, above <+: path → above ≠ path → files.isDirectory above = true

theorem reaches_working : files.Reaches files.working := by
  intro above before _
  have inside : above.isPrefixOf files.working = true := List.isPrefixOf_iff_prefix.mpr before
  rw [isDirectory, inside, Bool.true_or, Bool.true_or]

theorem reaches_root : files.Reaches [] := by
  intro above before below
  exact absurd (List.prefix_nil.mp before) below

/-- From a directory, and from nowhere else, a name stays there, goes back or goes on. -/
theorem enter?_cases {next : Path} {name : String} (entered : files.enter? path name = some next) :
    files.isDirectory path = true ∧
      (next = path ∨ next = path.dropLast ∨ next = path ++ [name]) := by
  unfold enter? at entered
  split at entered
  next => cases entered
  next passable =>
    have directory : files.isDirectory path = true := by
      simp only [Bool.or_eq_true, Bool.not_eq_true', not_or, Bool.not_eq_false] at passable
      exact passable.1
    refine ⟨directory, ?_⟩
    split at entered
    next => exact .inl (Option.some.inj entered).symm
    next =>
      split at entered
      next => exact .inr (.inl (Option.some.inj entered).symm)
      next => exact .inr (.inr (Option.some.inj entered).symm)

theorem Reaches.enter {next : Path} {name : String} (h : files.Reaches path)
    (entered : files.enter? path name = some next) : files.Reaches next := by
  obtain ⟨directory, rfl | rfl | rfl⟩ := enter?_cases entered
  · exact h
  · intro above before below
    refine h above (before.trans (List.dropLast_prefix path)) fun same => below ?_
    -- Only the root has itself in front of it once a name is taken away.
    have short := before.length_le
    rw [same, List.length_dropLast] at short
    have root : path = [] := List.length_eq_zero_iff.mp (by omega)
    rw [same, root, List.dropLast_nil]
  · intro above before below
    rcases List.prefix_concat_iff.mp before with same | inside
    · exact absurd same below
    · by_cases here : above = path
      · exact here ▸ directory
      · exact h above inside here

theorem reaches_of_resolve? (leads : files.resolve? text = some path) : files.Reaches path := by
  unfold resolve? at leads
  split at leads
  next => cases leads
  next =>
    have kept : ∀ (names : List String) (start : Path), files.Reaches start →
        names.foldlM files.enter? start = some path → files.Reaches path := by
      intro names
      induction names with
      | nil =>
          intro start there ended
          cases ended
          exact there
      | cons name names ih =>
          intro start there goes
          rw [List.foldlM_cons] at goes
          obtain ⟨next, entered, later⟩ := Option.bind_eq_some_iff.mp goes
          exact ih next (there.enter entered) later
    refine kept _ _ ?_ leads
    split
    next => exact reaches_root
    next => exact reaches_working

theorem target?_eq_some :
    files.target? text = some path ↔ files.resolve? text = some path ∧
      files.isDirectory path = false ∧ path ≠ Path.fullDevice := by
  simp [target?, Option.filter_eq_some_iff]

theorem write?_eq (files : Files) (text content : String) :
    files.write? text content = (files.target? text).map fun path =>
      if path = Path.nullDevice then files
      else { files with entries := put path content.toUTF8 files.entries } := by
  rw [write?, target?]
  cases files.resolve? text with
  | none => rfl
  | some path =>
      rw [Option.bind_eq_bind, Option.bind_some]
      by_cases refused : files.isDirectory path = true ∨ path = Path.fullDevice
      · rw [if_pos (by simpa using refused),
          Option.filter_some_neg (by simpa [imp_iff_not_or] using refused)]
        rfl
      · rw [if_neg (by simpa using refused), Option.filter_some_pos (by simpa using refused),
          Option.map_some]
        split <;> rfl

theorem isSome_write? (files : Files) (text content : String) :
    (files.write? text content).isSome = (files.target? text).isSome := by
  rw [write?_eq, Option.isSome_map]

theorem write?_eq_some (written : files.write? text content = some after) :
    ∃ path, files.target? text = some path ∧
      after.find? = Function.update files.find? path (some (path.kept content)) := by
  rw [write?_eq] at written
  obtain ⟨path, leads, rfl⟩ := Option.map_eq_some_iff.mp written
  refine ⟨path, leads, funext fun other => ?_⟩
  rw [Function.update_apply, Path.kept]
  split
  next null =>
    split
    next here => rw [find?, here, if_pos null]
    next => rfl
  next ordinary =>
    rw [find?, find?, lookup_put]
    split
    next device => rw [if_neg (device ▸ Ne.symm ordinary)]
    next => rfl

section Written

variable (written : files.write? text content = some after)

include written

theorem working_write : after.working = files.working := by
  rw [write?_eq] at written
  obtain ⟨path, -, rfl⟩ := Option.map_eq_some_iff.mp written
  split <;> rfl

/-- A file is written in a directory that is there already. -/
theorem isDirectory_write : after.isDirectory = files.isDirectory := by
  rw [write?_eq] at written
  obtain ⟨path, leads, rfl⟩ := Option.map_eq_some_iff.mp written
  have reached := reaches_of_resolve? (target?_eq_some.mp leads).1
  split
  next => rfl
  next =>
    funext other
    simp only [isDirectory, any_put fun p => other.isPrefixOf p && other != p]
    by_cases before : (other.isPrefixOf path && other != path) = true
    · have way : other <+: path ∧ other ≠ path := by
        simpa only [Bool.and_eq_true, bne_iff_ne, List.isPrefixOf_iff_prefix] using before
      rw [before, Bool.true_or, Bool.or_true]
      exact (reached other way.1 way.2).symm
    · rw [Bool.not_eq_true] at before
      rw [before, Bool.false_or]

theorem resolve?_write : after.resolve? = files.resolve? := by
  have enters : after.enter? = files.enter? := by
    funext path name
    rw [enter?, enter?, isDirectory_write written]
  funext other
  rw [resolve?, resolve?, enters, working_write written]

theorem target?_write : after.target? = files.target? := by
  funext other
  rw [target?, target?, resolve?_write written, isDirectory_write written]

end Written

end Files

end ClassDiagram.CommandLine

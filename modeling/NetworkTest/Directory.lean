import Mathlib.Logic.Function.Basic
import Mathlib.Data.List.Basic

/-!
Directories: file contents by name. Opening for append makes the file if it is
missing, and appending is all that is done to it then, so directories only
grow. Opening for writing empties the file.
-/

namespace NetworkTest.Directory

universe u v
variable {Name : Type u} {α : Type v}

abbrev Files (Name : Type u) (α : Type v) := Name → Option (List α)

/-- What is in a file; a missing file counts as empty. -/
def contents (files : Files Name α) (name : Name) : List α := (files name).getD []

/-- Every file is still there, with its old content in front. -/
def Grows (before after : Files Name α) : Prop :=
  ∀ name content, before name = some content → ∃ more, after name = some (content ++ more)

theorem grows_refl (files : Files Name α) : Grows files files :=
  fun _ content found => ⟨[], by rw [found, List.append_nil]⟩

theorem grows_trans {first second third : Files Name α} (early : Grows first second)
    (late : Grows second third) : Grows first third := by
  intro name content found
  obtain ⟨more, grown⟩ := early name content found
  obtain ⟨again, last⟩ := late name _ grown
  exact ⟨more ++ again, by rw [last, List.append_assoc]⟩

variable [DecidableEq Name]

/-- Opened for append, with `data` written to its end. -/
def append (files : Files Name α) (name : Name) (data : List α) : Files Name α :=
  Function.update files name (some (contents files name ++ data))

@[simp] theorem append_same (files : Files Name α) (name : Name) (data : List α) :
    append files name data name = some (contents files name ++ data) := Function.update_self ..

@[simp] theorem append_other {files : Files Name α} {name other : Name} (data : List α)
    (differs : other ≠ name) : append files name data other = files other :=
  Function.update_of_ne differs ..

@[simp] theorem contents_append (files : Files Name α) (name : Name) (data : List α) :
    contents (append files name data) name = contents files name ++ data := by
  simp [contents]

theorem append_nil {files : Files Name α} {name : Name} {content : List α}
    (found : files name = some content) : append files name [] = files := by
  funext other
  by_cases same : other = name
  · subst same
    simp [contents, found]
  · simp [same]

theorem append_append (files : Files Name α) (name : Name) (first second : List α) :
    append (append files name first) name second = append files name (first ++ second) := by
  funext other
  by_cases same : other = name
  · subst same
    simp
  · simp [same]

/-- Opened for writing: what was in the file is gone. -/
def truncate (files : Files Name α) (name : Name) : Files Name α :=
  Function.update files name (some [])

theorem truncate_absent {files : Files Name α} {name : Name} (absent : files name = none) :
    truncate files name = append files name [] := by
  rw [truncate, append, contents, absent, Option.getD_none, List.append_nil]

theorem grows_append (files : Files Name α) (name : Name) (data : List α) :
    Grows files (append files name data) := by
  intro other content found
  by_cases same : other = name
  · subst same
    exact ⟨data, by simp [contents, found]⟩
  · exact ⟨[], by simp [same, found]⟩

end NetworkTest.Directory

import Mathlib.Data.List.Basic
import Mathlib.Data.Set.Operations

/-!
# The paths of `QDir`

A path is absolute when it starts with a slash, or with a colon: `QDir` takes
the latter for the path of a resource of the program.  A name that is absolute
is left as it is, and every other one is put behind the directory.
-/

namespace GBerry.Common.Path

def isAbsolutePath (path : String) : Bool :=
  path.toList.head? = some '/' || path.toList.head? = some ':'

/-- `QDir::filePath`, and `QDir::absoluteFilePath` for the absolute path of a directory. -/
def filePath (dirPath fileName : String) : String :=
  if isAbsolutePath fileName then fileName
  else if fileName = "" then dirPath
  else if dirPath = "" ∨ dirPath.toList.getLast? = some '/' then dirPath ++ fileName
  else dirPath ++ "/" ++ fileName

/-- The names of entries of a directory, which are no paths that begin elsewhere. -/
def entryNames : Set String := {name | isAbsolutePath name = false ∧ name ≠ ""}

variable {dirPath fileName : String}

theorem filePath_absolute (h : isAbsolutePath fileName = true) :
    filePath dirPath fileName = fileName := if_pos h

theorem isAbsolutePath_append (h : isAbsolutePath dirPath = true) (s : String) :
    isAbsolutePath (dirPath ++ s) = true := by
  have hhead : dirPath.toList.head? ≠ none := by
    intro hnone
    simp [isAbsolutePath, hnone] at h
  obtain ⟨c, hc⟩ := Option.ne_none_iff_exists'.mp hhead
  simp only [isAbsolutePath, String.toList_append, List.head?_append, hc, Option.some_or] at h ⊢
  exact h

theorem isAbsolutePath_filePath (h : isAbsolutePath dirPath = true) (fileName : String) :
    isAbsolutePath (filePath dirPath fileName) = true := by
  unfold filePath
  split
  · assumption
  split
  · exact h
  split
  · exact isAbsolutePath_append h fileName
  · exact isAbsolutePath_append (isAbsolutePath_append h "/") fileName

/-- Two entries of a directory do not have the same path. -/
theorem filePath_injOn (dirPath : String) : Set.InjOn (filePath dirPath) entryNames := by
  rintro name ⟨hrelative, hne⟩ name' ⟨hrelative', hne'⟩ hpath
  simp only [filePath, hrelative, hrelative', hne, hne', if_false, Bool.false_eq_true] at hpath
  split at hpath
  · exact (String.append_right_inj _).mp hpath
  · exact (String.append_right_inj _).mp hpath

end GBerry.Common.Path

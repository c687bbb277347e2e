import NixPqcCache.Narinfo

/-!
# Paths

The part of `std::path` that the crate uses, on a Unix system.  A file name is
a string of bytes, which need not be UTF-8, and a path is the list of its
components.

A leading `.` names the directory that a relative path starts from anyway, so
it is not kept: the empty path and `.` are one value.
-/

namespace NixPqcCache.Paths

open NixPqcCache.Data
open NixPqcCache.Foundation

abbrev OsStr := Bytes

/-- A path without repeated separators and `.` components. -/
structure Path where
  absolute : Bool
  names : List OsStr
  deriving DecidableEq

/-- The byte of `.`. -/
abbrev dot : UInt8 := 46

/-- The component `..`. -/
def parentDir : OsStr := [dot, dot]

namespace Path

/-- `Path::new(".")`, which is also the empty path. -/
def currentDir : Path := ⟨false, []⟩

/-- `Path::file_name`: the last component, unless it is `..`. -/
def fileName (path : Path) : Option OsStr :=
  path.names.getLast?.filter fun name => name ≠ parentDir

/-- `Path::parent`. -/
def parent (path : Path) : Option Path :=
  if path.names = [] then none
  else some { path with names := path.names.dropLast }

/-- `Path::join` with a single component. -/
def join (path : Path) (name : OsStr) : Path :=
  { path with names := path.names ++ [name] }

/-- What stands behind the last dot of a name, unless that dot is first. -/
def extensionOf (name : OsStr) : Option OsStr :=
  match Text.rfind dot name with
  | none => none
  | some 0 => none
  | some idx => some (name.drop (idx + 1))

/-- `Path::extension`. -/
def extension (path : Path) : Option OsStr :=
  path.fileName.bind extensionOf

@[simp]
theorem parent_join (path : Path) (name : OsStr) :
    (path.join name).parent = some path := by
  simp [parent, join]

theorem fileName_join {name : OsStr} (plain : name ≠ parentDir)
    (path : Path) : (path.join name).fileName = some name := by
  simp [fileName, join, plain]

theorem join_eq_join_iff {left right : Path} {name other : OsStr} :
    left.join name = right.join other ↔ left = right ∧ name = other := by
  cases left
  cases right
  simp only [join, mk.injEq, List.append_singleton_inj, and_assoc]

/-- An extension is a suffix that a dot inside the name separates. -/
theorem eq_append_of_extensionOf {name suffix : OsStr}
    (found : extensionOf name = some suffix) :
    ∃ before, name = before ++ dot :: suffix := by
  rw [extensionOf] at found
  split at found
  next => cases found
  next => cases found
  next idx position =>
    rcases Text.rfind_eq_some_iff.mp position with
      ⟨before, after, rfl, rfl, -⟩
    rcases Option.some.inj found with rfl
    exact ⟨before, by simp [List.drop_append]⟩

end Path

end NixPqcCache.Paths

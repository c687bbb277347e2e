import NixPqcCache.Data

/-!
# Files

A file system is the contents of its files.  A path without contents is a file
that cannot be read.
-/

namespace NixPqcCache.Filesystem

open NixPqcCache.Data

abbrev FileSystem := Str → Option Bytes

/-- `fs::read_to_string`: the file must exist and be valid UTF-8. -/
def FileSystem.readToString (files : FileSystem) (path : Str) : Option Str :=
  (files path).bind fromUtf8

/-- A file that holds a text is read back as that text. -/
theorem FileSystem.readToString_eq_some {files : FileSystem} {path text : Str}
    (contents : files path = some (asBytes text)) :
    files.readToString path = some text := by
  simp [FileSystem.readToString, contents]

end NixPqcCache.Filesystem

/-
  PageAssembly/Site/PagePath.lean
  ===============================
  **File names for render paths.**

  The segments of a render path between slashes become the names of a relative file,
  with the low line for every character that is neither a word character nor a point
  or hyphen.  Empty segments do not count, a path without any is the index, and a path
  with a dot segment has no file.
-/
import PageAssembly.Text.Word

namespace PageAssembly.PagePath

/-- A character of a file name. -/
def safeChar (c : Char) : Char := if Text.isWord c || c == '.' || c == '-' then c else '_'

/-- The segments of a path that are not empty. -/
def segments (path : Text) : List Text := (Text.parts '/' path).filter fun p => p ≠ []

/-- The names with `.md` behind the last one. -/
def withSuffix : List Text → List Text
  | [] => []
  | [p] => [p ++ ".md".toList]
  | p :: q :: ps => p :: withSuffix (q :: ps)

/-- The names of the file for a render path. -/
def ofPath? (path : Text) : Option (List Text) :=
  let segs := segments path
  if segs.any fun p => p = ['.'] || p = ['.', '.'] then none
  else
    some (withSuffix ((if segs.isEmpty then ["index".toList] else segs).map fun p => p.map safeChar))

end PageAssembly.PagePath

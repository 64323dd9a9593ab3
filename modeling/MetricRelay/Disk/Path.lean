import MetricRelay.Text.Split
import MetricRelay.Text.Utf8

/-!
# Paths

A path is a text of names with slashes between them.  Empty names and single points in it do not
count, and two points lead back to the directory above.

Main definitions:

- `Path.parts` and `Path.isAbsolute`: the names in a path, and whether they start at the root.
- `Path.follow`: one name after another, whatever is on the disk.
- `Path.directoryOf`: the text of the directory that a path is in.
-/

namespace MetricRelay.Path

/-- The parts of a path between its slashes. -/
def parts (path : String) : List String := (Text.splitAt '/' path.toList).map String.ofList

/-- Whether a path starts at the root, and not in the current directory. -/
def isAbsolute (path : String) : Bool := path.toList.head? = some '/'

/-- Whether a part of a path only leads to the directory itself or to the one above it. -/
def isStep (part : String) : Bool := part = "" || part = "." || part = ".."

/-- Follow one part from a place. -/
def follow (place : List String) (part : String) : List String :=
  if part = ".." then place.dropLast
  else if isStep part then place
  else place ++ [part]

/-- How many bytes a text has. -/
def size (text : String) : Nat := (Utf8.encode text).length

/-- The most bytes that a name may have. -/
def greatestName : Nat := 255

/-- The most bytes that a path may have. -/
def greatestPath : Nat := 4095

/-- A path, last character first, without slashes and single points at its end. -/
def trimEnd : List Char → List Char
  | '/' :: r => if r.isEmpty then ['/'] else trimEnd r
  | '.' :: '/' :: r => trimEnd ('/' :: r)
  | r => r
termination_by r => r.length

/-- The text of the directory that a path is in: what stands before its last name, or a single
point for a name alone. -/
def directoryOf (path : String) : String :=
  let before := trimEnd ((trimEnd path.toList.reverse).dropWhile (· ≠ '/'))
  if before.isEmpty then "." else String.ofList before.reverse

end MetricRelay.Path

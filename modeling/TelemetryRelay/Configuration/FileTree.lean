/-!
# Trees of files

Files by the names on the way to each, and how a path leads to one: a path begins in the working
directory, or with a slash in the root of all files; `.` and empty names lead nowhere, and `..`
leads out of a directory that is there.
-/

namespace TelemetryRelay

/-- Files: the names on the way to each, and its text. The way from the root begins with a slash. -/
abbrev FileTree := List (List String × String)

namespace FileTree

/-- The text of a file. -/
def file? (tree : FileTree) (place : List String) : Option String :=
  (tree.find? (·.1 == place)).map (·.2)

/-- Whether a file lies below the place. -/
def isDirectory (tree : FileTree) (place : List String) : Bool :=
  tree.any fun (file, _) => place.isPrefixOf file && place != file

/-- The place above a directory; the root is above itself, and what is above the working directory
is not known. -/
def parent? (tree : FileTree) (place : List String) : Option (List String) :=
  if place == ["/"] then some place
  else if tree.isDirectory place && !place.isEmpty then some place.dropLast
  else none

/-- The place that names lead to from `place`. -/
def resolve? (tree : FileTree) : (place : List String) → List String → Option (List String)
  | place, [] => some place
  | place, name :: rest =>
    if name == ".." then (tree.parent? place).bind fun up => tree.resolve? up rest
    else tree.resolve? (place ++ [name]) rest

/-- The place where a path begins. -/
def origin (path : String) : List String := if path.startsWith "/" then ["/"] else []

/-- The names of a path that lead somewhere. -/
def pathNames (path : String) : List String :=
  (path.splitOn "/").filter fun name => name != "" && name != "."

/-- Whether a path can only name a directory. -/
def namesDirectory (path : String) : Bool :=
  match (path.splitOn "/").getLast? with
  | some last => last == "" || last == "." || last == ".."
  | none => true

/-- **The text of the file at a path.** -/
def read? (tree : FileTree) (path : String) : Option String :=
  if namesDirectory path then none
  else (tree.resolve? (origin path) (pathNames path)).bind tree.file?

end FileTree

end TelemetryRelay

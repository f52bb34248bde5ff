/-
  Kenbak1.Path

  Paths of files, divided at slashes. Empty parts do not count.
-/

namespace Kenbak1
namespace Path

/-- The steps of a path: the names between its slashes. -/
def steps (path : String) : List String :=
  (path.splitOn "/").filter (· ≠ "")

/-- The steps of a path that lead somewhere else; `.` does not. -/
def components (path : String) : List String :=
  (steps path).filter (· ≠ ".")

/-- The path begins at the root of all files. -/
def isAbsolute (path : String) : Bool :=
  path.toList.head? = some '/'

/-- A slash stands at the end of the path, which so insists on a directory. -/
def endsWithSlash (path : String) : Bool :=
  path.toList.getLast? = some '/'

/-- The name of the file a path leads to. -/
def fileName? (path : String) : Option String :=
  match (components path).getLast? with
  | some name => if name = ".." then none else some name
  | none => none

/-- What follows the last dot of the file name. A name whose only dot stands at its beginning
    has no extension. -/
def extension? (path : String) : Option String :=
  match fileName? path with
  | none => none
  | some name =>
    let reversed := name.toList.reverse
    let behind := reversed.takeWhile (· ≠ '.')
    match reversed.drop behind.length with
    | [] => none
    | _ :: before => if before = [] then none else some (String.ofList behind.reverse)

end Path
end Kenbak1

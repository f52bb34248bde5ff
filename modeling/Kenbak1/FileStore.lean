/-
  Kenbak1.FileStore

  A tree of files as a value: what programs and configurations are read from and written
  to. Paths are relative to the root of the tree. What surrounds the tree is known only as
  far as its directories above the root go.
-/
import Kenbak1.Files
import Kenbak1.Path

namespace Kenbak1

/-- What stands at a place of the tree. -/
inductive Node where
  | file (bytes : List UInt8)
  | directory

/-- A place in or around the tree: the names on the way from its root. A place above the root
    begins with `..` for each level, and one without relation to the tree with `/`. -/
abbrev Place := List String

namespace Place

/-- A directory above the tree, its root, or the root of all files. -/
def isAbove (place : Place) : Bool :=
  place = ["/"] || place.all (· = "..")

/-- One step further. The root of all files is above itself. -/
def step (place : Place) (name : String) : Place :=
  if name = "." then place
  else if name = ".." then
    if place = ["/"] then place
    else if place.isAbove then place ++ [".."]
    else place.dropLast
  else place ++ [name]

end Place

/-- The largest size of a name in bytes. -/
def maxNameSize : Nat := 255

/-- The largest size of a path in bytes. -/
def maxPathSize : Nat := 4095

/-! ## The tree -/

/-- A tree of files. Later nodes at a place stand for earlier ones. -/
structure FileStore where
  nodes : List (Place × Node) := []

namespace FileStore

/-- The node at a place. Every place on the way to a node is a directory. -/
def node? (store : FileStore) (place : Place) : Option Node :=
  match store.nodes.reverse.find? fun entry => entry.1 = place with
  | some entry => some entry.2
  | none =>
    if place.isAbove ∨ store.nodes.any (fun entry => place.isPrefixOf entry.1) then
      some .directory
    else none

/-- The tree with a node at a place. -/
def put (store : FileStore) (place : Place) (node : Node) : FileStore :=
  { nodes := store.nodes ++ [(place, node)] }

/-- One step from a place, which has to be a directory. -/
def follow (store : FileStore) (place : Place) (name : String) : Except FileFault Place :=
  match store.node? place with
  | none => .error .notFound
  | some (.file _) => .error .notADirectory
  | some .directory =>
    if maxNameSize < name.utf8ByteSize then .error .nameTooLong else .ok (place.step name)

/-- Where the steps of a path begin. -/
def start (path : String) : Except FileFault Place :=
  if '\x00' ∈ path.toList then .error .badName
  else if path = "" then .error .notFound
  else if maxPathSize < path.utf8ByteSize then .error .nameTooLong
  else .ok (if Path.isAbsolute path then ["/"] else [])

/-- The place a path leads to. Only the last step may lead to nothing. -/
def locate (store : FileStore) (path : String) : Except FileFault Place := do
  (Path.steps path).foldlM store.follow (← start path)

/-- The directory in which the last step of a path is made. -/
def parent (store : FileStore) (path : String) : Except FileFault Place := do
  ((Path.steps path).dropLast ++ ["."]).foldlM store.follow (← start path)

/-- The bytes of the file at a path. -/
def readBytes (store : FileStore) (path : String) : Except FileFault (List UInt8) := do
  match store.node? (← store.locate path) with
  | none => .error .notFound
  | some .directory => .error .isADirectory
  | some (.file bytes) =>
    if Path.endsWithSlash path then .error .notADirectory else .ok bytes

/-- The tree with a text written to the file at a path. A path that insists on a directory is
    none to write to, whatever its last step leads to. -/
def writeText (store : FileStore) (path text : String) : Except FileFault FileStore := do
  if Path.endsWithSlash path then
    let _ ← store.parent path
    .error .isADirectory
  else
    let place ← store.locate path
    match store.node? place with
    | some .directory => .error .isADirectory
    | _ => .ok (store.put place (.file text.toUTF8.toList))

end FileStore

end Kenbak1

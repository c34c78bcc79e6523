import PixelTables.FileTree.Basic

/-!
# Where paths lead

A path is resolved to a location by walking its names from the root or from the working directory.
A walk follows the links that it comes by, a limited number of them.

## Main Definitions

* `FileTree.Walk` — how far a walk along a path has come
* `FileTree.descend` — go down through directories that no link stands for
* `FileTree.resolve` — follow the link at a location, if there is one
* `FileTree.walk`, `FileTree.parent` — the directory that names or a path lead to

## Design Notes

What a link leads to lies in a directory, or the walk ends there: with the refusal that the system
meets first on its way down from the root.
-/

namespace PixelTables

namespace FileTree

/-- How far a walk along a path has come. -/
structure Walk where
  /-- The location that has been reached. -/
  location : Location
  /-- How many links have been followed. -/
  followed : Nat
  deriving DecidableEq, Repr

/-- How many links a walk can follow. -/
def maxLinks : Nat := 40

/-- Go down from a directory through those with some names. -/
def descend (tree : FileTree) (here : Location) : List String → Except OsError Unit
  | [] => .ok ()
  | name :: names =>
    match tree.lookup (here ++ [name]) with
    | some .directory => tree.descend (here ++ [name]) names
    | some _ => .error .notADirectory
    | none => .error .notFound

/-- Follow the link at the location that has been reached, if there is one. What it leads to must
lie in a directory, but there need not be anything. -/
def resolve (tree : FileTree) (walk : Walk) : Except OsError Walk :=
  match tree.links.lookup walk.location with
  | none => .ok walk
  | some link =>
    if maxLinks < walk.followed + link.length then .error .tooManyLinks
    else
      match tree.descend [] link.target.dropLast with
      | .error reason => .error reason
      | .ok _ => .ok ⟨link.target, walk.followed + link.length⟩

/-- The location of an entry of a directory, which there may be nothing at. A name that is too long
is refused, in a closed directory for a reason of its own. -/
def child (tree : FileTree) (directory : Location) (name : String) : Except OsError Location :=
  if Path.maxNameSize < name.utf8ByteSize then
    .error (match tree.closure? directory with
      | some closure => closure.longName
      | none => .invalidFilename)
  else .ok (directory ++ [name])

/-- Go on to what an entry of a directory stands for. -/
def entry (tree : FileTree) (directory : Walk) (name : String) : Except OsError Walk := do
  let location ← tree.child directory.location name
  tree.resolve { directory with location }

/-- Go on to the directory that an entry of a directory stands for. -/
def subdirectory (tree : FileTree) (directory : Walk) (name : String) : Except OsError Walk := do
  let walk ← tree.entry directory name
  match tree.lookup walk.location with
  | some .directory => return walk
  | some _ => throw .notADirectory
  | none => throw .notFound

/-- Follow one name from a directory to a directory. The parent of the root is the root. -/
def follow (tree : FileTree) (here : Walk) (name : String) : Except OsError Walk :=
  if name = "." then .ok here
  else if name = ".." then .ok { here with location := here.location.dropLast }
  else tree.subdirectory here name

/-- The directory that names lead to. -/
def walk (tree : FileTree) (start : Walk) (names : List String) : Except OsError Walk :=
  names.foldlM (follow tree) start

/-- Where the walk along a path begins. -/
def start (tree : FileTree) (path : Path) : Walk :=
  ⟨if path.isAbsolute then [] else tree.workingDirectory, 0⟩

/-- The directory of the last step of a path. -/
def parent (tree : FileTree) (path : Path) : Except OsError Walk :=
  tree.walk (tree.start path) path.leading

end FileTree

end PixelTables

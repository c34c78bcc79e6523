import PixelTables.FileTree.Resolution

/-!
# Operations on file trees

Files are opened, filled, read and removed, directories made and listed. An operation on a path does
the whole of what is asked or leaves the tree as it is and says why; only a file that cannot hold
all that is written to it takes the first part.

## Main Definitions

* `FileTree.openForWriting` — the location that a write to a path would reach
* `FileTree.device?` — the device that a write to a path would reach
* `FileTree.fill` — bytes as the content of a file
* `FileTree.read`, `FileTree.remove`, `FileTree.makeDirectory`
* `FileTree.listing` — everything below the working directory
-/

namespace PixelTables

namespace FileTree

/-! ## Writing -/

/-- A location that a path has led to, if what is there can be written to or a file can be made. In
a closed directory none is made, also not through a link that is elsewhere. -/
def checkWritable (tree : FileTree) (location : Location) : Except OsError Location :=
  match tree.lookup location with
  | some .directory => .error .isADirectory
  | some (.device (.locked reason)) => .error reason
  | some _ => .ok location
  | none =>
    match tree.closure? location.dropLast with
    | some closure => .error closure.creation
    | none => .ok location

/-- The location that is opened, created or emptied for writing to a path. A directory cannot be,
and a name with a slash after it asks for a directory. -/
def openForWriting (tree : FileTree) (path : String) : Except OsError Location := do
  let path ← Path.ofString path
  let directory ← tree.parent path
  match path.last with
  | .directory => throw .isADirectory
  | .entry _ true => throw .isADirectory
  | .entry name false =>
    let walk ← tree.entry directory name
    tree.checkWritable walk.location

/-- The device that a write to a path would reach, if it would reach one. -/
def device? (tree : FileTree) (path : String) : Option Device :=
  match tree.openForWriting path with
  | .error _ => none
  | .ok location =>
    match tree.lookup location with
    | some (.device device) => some device
    | _ => none

/-- As many of the bytes as a file at a location can hold. -/
def fitting (tree : FileTree) (location : Location) (bytes : ByteArray) : ByteArray :=
  match tree.limit? location with
  | some limit => bytes.extract 0 limit.size
  | none => bytes

/-- Why a file at a location cannot hold all of the bytes, unless it can. -/
def shortage? (tree : FileTree) (location : Location) (bytes : ByteArray) : Option OsError :=
  match tree.limit? location with
  | some limit => if limit.size < bytes.size then some limit.reason else none
  | none => none

/-- Make the bytes the whole content of the file at a location, which is made if it is missing. When
the file can hold no more, it keeps what it has got. -/
def fill (tree : FileTree) (location : Location) (bytes : ByteArray) :
    Except OsError Unit × FileTree :=
  let answer := match tree.shortage? location bytes with
    | some reason => .error reason
    | none => .ok ()
  (answer, tree.insert location (.file (tree.fitting location bytes)))

/-! ## Reading, removing, making directories -/

/-- The content of the file at a path. A device has none. -/
def read (tree : FileTree) (path : String) : Except OsError ByteArray := do
  let path ← Path.ofString path
  let directory ← tree.parent path
  match path.last with
  | .directory => throw .isADirectory
  | .entry name slash =>
    match tree.lookup (← tree.entry directory name).location with
    | none => throw .notFound
    | some .directory => throw .isADirectory
    | some (.file content) => if slash then throw .notADirectory else return content
    | some (.device _) => if slash then throw .notADirectory else return ByteArray.empty

/-- Remove the file at a path. The last name is not followed if it is a link, which cannot be
removed itself. A slash after the name asks for a directory. -/
def remove (tree : FileTree) (path : String) : Except OsError FileTree := do
  let path ← Path.ofString path
  let directory ← tree.parent path
  match path.last with
  | .directory => throw .isADirectory
  | .entry name slash =>
    let location ← tree.child directory.location name
    if tree.isLink location then throw (if slash then .notADirectory else .notPermitted)
    match tree.lookup location with
    | none => throw .notFound
    | some .directory => throw .isADirectory
    | some _ =>
      if slash then throw .notADirectory
      else
        match tree.closure? directory.location with
        | some closure => throw closure.removal
        | none => return tree.erase location

/-- Make a directory at a path at which there is nothing, not even a link. -/
def makeDirectory (tree : FileTree) (path : String) : Except OsError FileTree := do
  let path ← Path.ofString path
  let directory ← tree.parent path
  match path.last with
  | .directory => throw .alreadyExists
  | .entry name _ =>
    let location ← tree.child directory.location name
    if (tree.lookup location).isSome ∨ tree.isLink location then throw .alreadyExists
    else
      match tree.closure? directory.location with
      | some closure => throw closure.creation
      | none => return tree.insert location .directory

/-! ## Listing -/

/-- The rest of a location below another one. -/
def below? : Location → Location → Option Location
  | [], rest => if rest = [] then none else some rest
  | _ :: _, [] => none
  | name :: base, other :: location => if name = other then below? base location else none

/-- How a node is listed under its path: a file with its size, a directory with a slash. -/
def listed (path : String) : Node → String
  | .directory => path ++ "/"
  | .file content => path ++ " " ++ Nat.repr content.size
  | .device _ => path ++ " 0"

/-- Everything below the working directory, in order. -/
def listing (tree : FileTree) : List String :=
  (tree.nodes.filterMap fun (location, node) =>
    (below? tree.workingDirectory location).map fun rest =>
      listed (String.intercalate "/" rest) node).mergeSort

end FileTree

end PixelTables

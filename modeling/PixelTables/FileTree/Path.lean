import PixelTables.OsError
import PixelTables.Text.Split

/-!
# Paths

A path is text: names with slashes between them, from the root if it begins with a slash and from
the working directory otherwise. Slashes in a row count as one.

## Main Definitions

* `Path` — a path cut into its names
* `Path.ofString` — the path that a text spells, unless the text can be no path
* `Path.Last` — what the last name of a path says about what the path names
-/

namespace PixelTables

/-- The last step of a path. -/
inductive Path.Last where
  /-- The path ends at the root, at `.` or at `..`, which are directories. -/
  | directory
  /-- The path ends with the name of an entry of a directory, maybe with a slash after it. -/
  | entry (name : String) (slash : Bool)
  deriving DecidableEq, Repr

/-- A path cut into its names. -/
structure Path where
  /-- Whether it begins at the root. -/
  isAbsolute : Bool
  /-- The names that lead to the directory of the last step. -/
  leading : List String
  /-- The last step. -/
  last : Path.Last
  deriving DecidableEq, Repr

namespace Path

/-- The longest name that a directory can hold, in bytes. -/
def maxNameSize : Nat := 255

/-- The size in bytes from which on a text is too long for a path. -/
def sizeLimit : Nat := 4096

/-- The names in a text, which has slashes between them. -/
def names (text : String) : List String :=
  ((splitAtChar '/' text.toList).filter fun name => !name.isEmpty).map String.ofList

/-- The last step of a path whose last name is known. -/
def lastOf (name : String) (slash : Bool) : Last :=
  if name = "." ∨ name = ".." then .directory else .entry name slash

/-- The path with some names. -/
def ofNames (isAbsolute slash : Bool) (names : List String) : Path :=
  match names.getLast? with
  | none => ⟨isAbsolute, [], .directory⟩
  | some name => ⟨isAbsolute, names.dropLast, lastOf name slash⟩

/-- The path that a text spells. A text with a NUL character, an empty text and a text that is too
long are refused, in this order. -/
def ofString (text : String) : Except OsError Path :=
  if '\x00' ∈ text.toList then .error .invalidInput
  else if text = "" then .error .notFound
  else if sizeLimit ≤ text.utf8ByteSize then .error .invalidFilename
  else
    .ok (ofNames (text.toList.head? == some '/') (text.toList.getLast? == some '/') (names text))

end Path

end PixelTables

import PixelTables.FileTree.Resolution

/-!
# The standard file tree

A file tree as a process of a Unix system finds it, as far as tables are ever written to it: a
working directory in the directory for temporary files, and some devices, the standard streams of
the process among them.

## Main Definitions

* `FileTree.temporaryDirectory`, `FileTree.streamLocation` — places that no path names
* `FileTree.fresh` — the tree with an empty working directory

## Design Notes

A name with a slash in it is no name on any path, so only the working directory and links lead to
the places that have one.
-/

namespace PixelTables

namespace FileTree

/-- A directory for temporary files that no path names. -/
def temporaryDirectory : Location := ["tmp", "/"]

/-- Where the standard stream with a number is. No path names it. -/
def streamLocation (number : String) : Location := ["/", number]

/-- A tree with an empty working directory. -/
def fresh : FileTree where
  nodes :=
    [(["tmp"], .directory), (temporaryDirectory, .directory), (["dev"], .directory),
      (["dev", "null"], .device .null), (["dev", "full"], .device (.failing .storageFull)),
      (["/"], .directory), (streamLocation "0", .device .null),
      (streamLocation "1", .device .standardOutput), (streamLocation "2", .device .standardError)]
  workingDirectory := temporaryDirectory
  links :=
    [(["dev", "stdin"], ⟨streamLocation "0", 3⟩), (["dev", "stdout"], ⟨streamLocation "1", 3⟩),
      (["dev", "stderr"], ⟨streamLocation "2", 3⟩)]
  closed := []
  limits := []
  wellFormed := by decide

end FileTree

end PixelTables

import PixelTables.Source.Entry

/-!
# Emitting tables

A table is a name and its entries. Emission writes it to a sink in one of the formats, one entry
per line.

## Main Definitions

* `Entries` — the words or the rows of a table
* `Table` — a name and entries
* `Table.emit` — the table as source text
* `Table.emitSeries` — several tables in one text
-/

namespace PixelTables

section

variable {σ α : Type} [Sink σ] [Entry α]

/-- Write an array literal, a line for each entry. -/
def putArray (format : Format) (entries : List α) : Emission σ Unit := do
  put format.opening
  putSeparated ",\n" (Entry.putLiteral format) entries
  put format.closing

/-- Write entries as a table with a name. -/
def putTable (name : String) (entries : List α) : Format → Emission σ Unit
  | .array => do
    putArray .array entries
    put "\n"
  | .header => do
    put "#ifndef "
    put name
    put "_H\n"
    put "#define "
    put name
    put "_H\n"
    put "\n"
    put "#include <cstdint>\n"
    put "\n"
    put "static constexpr "
    put (Entry.cType α)
    put " "
    put name
    put "["
    put (Nat.repr entries.length)
    put "]"
    put (Entry.cDimensions α)
    put " = "
    putArray .header entries
    put ";\n"
    put "\n"
    put "#endif // "
    put name
    put "_H\n"
  | .rust => do
    put "pub static "
    put name
    put ": ["
    put (Entry.rustType α)
    put "; "
    put (Nat.repr entries.length)
    put "] = "
    putArray .rust entries
    put ";\n"

end

/-- The entries of a table: all words, or all rows. -/
inductive Entries where
  | words (values : List UInt16)
  | rows (values : List TileRow)
  deriving DecidableEq

namespace Entries

/-- The number of entries. -/
def length : Entries → Nat
  | words values => values.length
  | rows values => values.length

end Entries

/-- A name and the entries that it stands for. -/
structure Table where
  /-- The name of the emitted constant. Any text is allowed. -/
  name : String
  /-- The entries in order. -/
  entries : Entries
  deriving DecidableEq

namespace Table

variable {σ : Type} [Sink σ]

/-- Write a table to a sink. -/
def emit (table : Table) (format : Format) : Emission σ Unit :=
  match table.entries with
  | .words values => putTable table.name values format
  | .rows values => putTable table.name values format

/-- Write tables to a sink, each after an empty line. -/
def emitFollowing : List (Table × Format) → Emission σ Unit
  | [] => pure ()
  | (table, format) :: series => do
    put "\n"
    table.emit format
    emitFollowing series

/-- Write tables to a sink one after another with an empty line between each two. -/
def emitSeries : List (Table × Format) → Emission σ Unit
  | [] => pure ()
  | (table, format) :: series => do
    table.emit format
    emitFollowing series

end Table

end PixelTables

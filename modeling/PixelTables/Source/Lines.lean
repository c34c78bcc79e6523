import PixelTables.Source.Table
import PixelTables.Text.Split

/-!
# The lines of an emitted table

What an emitted table looks like, line by line and apart from how it is written: the lines of its
frame, and between them one line for each entry.

## Main Definitions

* `splitLines` — a text cut at its line ends
* `Entries.literals` — the literal of each entry
* `literalLines` — the lines of an array literal
* `Table.lines`, `Table.text` — the lines of a table, and the text they make up

## Design Notes

`Table.emit` says in which pieces a table is written; `Table.text` says which text that makes. The
two are defined apart, so that emission can be compared with it.
-/

namespace PixelTables

/-- The parts of a text between its line ends, also the part after the last one. -/
def splitLines (text : List Char) : List (List Char) := splitAtChar '\n' text

/-- The numbers of a row in decimal, with commas between them. -/
def rowNumbers (row : TileRow) : String :=
  String.intercalate "," (row.toList.map fun pixel => Nat.repr pixel.toNat)

namespace Entries

/-- The literal of each entry. -/
def literals (format : Format) : Entries → List String
  | words values => values.map fun word => Nat.repr word.toNat
  | rows values => values.map fun row => format.opening ++ rowNumbers row ++ format.closing

/-- The declaration of a constant, up to its array literal; there is none in a bare literal. -/
def declaration (entries : Entries) (name : String) : Format → String
  | .array => ""
  | .header =>
    match entries with
    | words values =>
      "static constexpr uint16_t " ++ name ++ "[" ++ Nat.repr values.length ++ "] = "
    | rows values =>
      "static constexpr uint8_t " ++ name ++ "[" ++ Nat.repr values.length ++ "][8] = "
  | .rust =>
    match entries with
    | words values =>
      "pub static " ++ name ++ ": [u16; " ++ Nat.repr values.length ++ "] = "
    | rows values =>
      "pub static " ++ name ++ ": [[u8; 8]; " ++ Nat.repr values.length ++ "] = "

end Entries

/-- The lines of an array literal after its opening: each literal but the last is followed by a
comma, the last by what finishes the array. -/
def followingLines (finish : String) : List String → List String
  | [] => []
  | [literal] => [literal ++ finish]
  | literal :: literals => (literal ++ ",") :: followingLines finish literals

/-- The lines of an array literal that begins with `start` and ends with `finish`. An array
without entries takes one line. -/
def literalLines (start finish : String) : List String → List String
  | [] => [start ++ finish]
  | literal :: literals => followingLines finish ((start ++ literal) :: literals)

/-- What follows the last entry of an array. -/
def Format.finish (format : Format) : String :=
  match format with
  | .array => format.closing
  | .header | .rust => format.closing ++ ";"

namespace Table

/-- The lines of the array with its declaration. -/
def arrayLines (table : Table) (format : Format) : List String :=
  literalLines (table.entries.declaration table.name format ++ format.opening) format.finish
    (table.entries.literals format)

/-- The lines before the array. -/
def linesBefore (table : Table) : Format → List String
  | .array | .rust => []
  | .header =>
    ["#ifndef " ++ table.name ++ "_H", "#define " ++ table.name ++ "_H", "",
      "#include <cstdint>", ""]

/-- The lines after the array. -/
def linesAfter (table : Table) : Format → List String
  | .array | .rust => []
  | .header => ["", "#endif // " ++ table.name ++ "_H"]

/-- The lines of an emitted table. -/
def lines (table : Table) (format : Format) : List String :=
  table.linesBefore format ++ table.arrayLines format ++ table.linesAfter format

/-- The text of an emitted table: each of its lines, with a line end. -/
def text (table : Table) (format : Format) : String :=
  String.join ((table.lines format).map fun line => line ++ "\n")

end Table

end PixelTables

import PixelTables.Catalogue.Error
import PixelTables.Color.Palette
import PixelTables.Source.Table
import PixelTables.Tile.Enumeration

/-!
# The catalogue of tables

Three tables are known: the tile rows, the tile rows flipped, and the palette. Each has a name
as a constant and a name as a command, and either names it in text. A format is named in text
without regard to the case of ASCII letters.

## Main Definitions

* `Kind` — the three tables
* `Kind.ofName`, `Format.ofName` — the table or the format with a name
* `Kind.table` — the entries of a table under its constant's name
-/

namespace PixelTables

/-- The tables that can be generated. -/
inductive Kind where
  | tileRows
  | tileRowsFlipped
  | cgbPalette
  deriving DecidableEq, Repr

namespace Kind

/-- The tables in the order in which they are listed. -/
def all : List Kind := [.tileRows, .tileRowsFlipped, .cgbPalette]

/-- The name of the emitted constant. -/
def constName : Kind → String
  | .tileRows => "TILE_ROW_DATA_TO_ROW_PIXELS"
  | .tileRowsFlipped => "TILE_ROW_DATA_TO_ROW_PIXELS_FLIPPED"
  | .cgbPalette => "CGB_PALETTE_RGB565"

/-- The name of the table as a command, and wherever it is mentioned. -/
def commandName : Kind → String
  | .tileRows => "tile-rows"
  | .tileRowsFlipped => "tile-rows-flipped"
  | .cgbPalette => "cgb-palette"

/-- The table with a name, which is that of its command or of its constant. -/
def ofName (name : String) : Except Error Kind :=
  match all.find? fun kind => kind.commandName == name || kind.constName == name with
  | some kind => .ok kind
  | none => .error (.unknownTable name)

/-- Generate the entries of a table. -/
def entries : Kind → Except InvariantError Entries
  | .tileRows => TileRow.generate.map fun rows => .rows rows.toList
  | .tileRowsFlipped => TileRow.generateFlipped.map fun rows => .rows rows.toList
  | .cgbPalette => Palette.generate.map fun words => .words words.toList

/-- A table under the name of its constant. -/
def table (kind : Kind) : Except InvariantError Table :=
  kind.entries.map fun entries => ⟨kind.constName, entries⟩

end Kind

/-- The characters are equal but for the case of ASCII letters. -/
def equalIgnoringCase (a b : String) : Bool :=
  a.toList.map Char.toLower == b.toList.map Char.toLower

/-- The format with a name, in any case of ASCII letters. -/
def Format.ofName (name : String) : Except Error Format :=
  match Format.all.find? fun format => equalIgnoringCase format.name name with
  | some format => .ok format
  | none => .error (.unknownFormat name)

end PixelTables

import PixelTables.Color.Palette
import PixelTables.Source.Reader
import PixelTables.Text.Utf8
import PixelTables.Tile.Enumeration

/-!
# Embedded tables

The three tables are emitted once into one source file, as Rust items with an empty line between
each two. The tables that a renderer looks things up in are those read back from that file.

## Main Definitions

* `Embedded.source` — the bytes of the file
* `Embedded` — the tables of such a file
* `Embedded.ofSource?` — the tables that a file declares
* `Embedded.decode`, `Embedded.decodeFlipped`, `Embedded.convert` — look-ups
-/

namespace PixelTables

/-- Tables that are ready for look-ups. -/
structure Embedded where
  /-- The row of each plane pair. -/
  rows : Array TileRow
  /-- The flipped row of each plane pair. -/
  flipped : Array TileRow
  /-- The RGB565 word of each color. -/
  palette : Array UInt16

namespace Embedded

/-- The three tables in the order in which they are emitted. -/
def series (rows flipped : Array TileRow) (palette : Array UInt16) : List (Table × Format) :=
  [(⟨"TILE_ROW_DATA_TO_ROW_PIXELS", .rows rows.toList⟩, .rust),
    (⟨"TILE_ROW_DATA_TO_ROW_PIXELS_FLIPPED", .rows flipped.toList⟩, .rust),
    (⟨"CGB_PALETTE_RGB565", .words palette.toList⟩, .rust)]

/-- Generate the three tables and emit them into one file. -/
def source : Except InvariantError ByteArray := do
  let rows ← TileRow.generate
  let flipped ← TileRow.generateFlipped
  let palette ← Palette.generate
  return (Table.emitSeries (series rows flipped palette)).bytes

/-- The entries declared under a name. -/
def entries? (readings : List Reading) (name : String) : Option Entries :=
  (readings.find? fun reading => reading.name? == some name).bind Reading.entries?

/-- Entries that are rows. -/
def rows? : Entries → Option (Array TileRow)
  | .rows values => some values.toArray
  | .words _ => none

/-- Entries that are words. -/
def words? : Entries → Option (Array UInt16)
  | .words values => some values.toArray
  | .rows _ => none

/-- The tables that a file declares. -/
def ofSource? (bytes : ByteArray) : Option Embedded := do
  let readings ← Reader.readSeries (splitLines (Utf8.decodeLossy bytes).toList)
  let rows ← (entries? readings "TILE_ROW_DATA_TO_ROW_PIXELS").bind rows?
  let flipped ← (entries? readings "TILE_ROW_DATA_TO_ROW_PIXELS_FLIPPED").bind rows?
  let palette ← (entries? readings "CGB_PALETTE_RGB565").bind words?
  return ⟨rows, flipped, palette⟩

/-- The tables of the file that is generated. -/
def standard? : Option Embedded :=
  match source with
  | .ok bytes => ofSource? bytes
  | .error _ => none

/-- The entry at an index, which must lie inside the table. -/
def lookUp {α : Type} (table : Array α) (index : Nat) : Except InvariantError α :=
  match table[index]? with
  | some entry => .ok entry
  | none => .error (.indexOutOfBounds index table.size)

/-- The row of a plane pair. -/
def decode (tables : Embedded) (high : HighPlane) (low : LowPlane) :
    Except InvariantError TileRow :=
  lookUp tables.rows (TileRow.index high low)

/-- The flipped row of a plane pair. -/
def decodeFlipped (tables : Embedded) (high : HighPlane) (low : LowPlane) :
    Except InvariantError TileRow :=
  lookUp tables.flipped (TileRow.index high low)

/-- The RGB565 word of a palette word. Bit 15 is ignored. -/
def convert (tables : Embedded) (pixel : UInt16) : Except InvariantError UInt16 :=
  lookUp tables.palette (pixel &&& 0x7FFF).toNat

end Embedded

end PixelTables

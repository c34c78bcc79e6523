import PixelTables.Invariant
import PixelTables.Tile.Row

/-!
# Tables of all tile rows

A table of rows is filled by running a decoder over all plane pairs, high plane by high plane.
Before each row is added its place is checked against `TileRow.index`, and the finished table has
one row per pair.

## Main Definitions

* `TileRow.enumerate` — the rows that a decoder gives for all plane pairs
* `TileRow.generate`, `TileRow.generateFlipped` — the tables of the two decoders
-/

namespace PixelTables

namespace TileRow

/-- A way to read a plane pair as a row. -/
abbrev Decoder := HighPlane → LowPlane → TileRow

/-- Add the row of one plane pair, which must land at the pair's index. -/
def appendPair (decoder : Decoder) (high : HighPlane) (rows : Array TileRow) (low : LowPlane) :
    Except InvariantError (Array TileRow) :=
  if rows.size = index high low then .ok (rows.push (decoder high low))
  else .error (.sizeMismatch rows.size (index high low))

/-- Every byte in increasing order. -/
def allBytes : List UInt8 := (List.range 256).map UInt8.ofNat

/-- Add the rows of all pairs with one high plane. -/
def appendHigh (decoder : Decoder) (rows : Array TileRow) (high : HighPlane) :
    Except InvariantError (Array TileRow) :=
  allBytes.foldlM (fun rows low => appendPair decoder high rows ⟨low⟩) rows

/-- The rows that a decoder gives for all plane pairs, each at its pair's index. -/
def enumerate (decoder : Decoder) : Except InvariantError (Array TileRow) := do
  let rows ← allBytes.foldlM (fun rows high => appendHigh decoder rows ⟨high⟩) #[]
  if rows.size = pairCount then return rows else throw (.sizeMismatch rows.size pairCount)

/-- The table of all rows. -/
def generate : Except InvariantError (Array TileRow) := enumerate decode

/-- The table of all rows flipped. -/
def generateFlipped : Except InvariantError (Array TileRow) := enumerate decodeFlipped

end TileRow

end PixelTables

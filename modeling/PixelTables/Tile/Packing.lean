import PixelTables.Tile.Row

/-!
# Packing tile rows

The way back from a row of color ids to its two planes, and the planes and the table index of a
flipped row.

## Main Definitions

* `TileRow.IsColorRow` — every pixel is a color id
* `TileRow.packHigh`, `TileRow.packLow` — the planes of a row
* `reverseBits` — a byte read from its other end
* `TileRow.flipIndex` — the place of the plane pair of the flipped row
-/

namespace PixelTables

/-- The byte with the eight bits of `byte` in the opposite order. -/
def reverseBits (byte : UInt8) : UInt8 :=
  (List.range 8).foldl (fun acc bit => (acc <<< 1) ||| ((byte >>> UInt8.ofNat bit) &&& 1)) 0

namespace TileRow

/-- Every pixel of the row is a color id, a number up to 3. -/
def IsColorRow (row : TileRow) : Prop :=
  ∀ pixel ∈ row, pixel ≤ 3

instance (row : TileRow) : Decidable row.IsColorRow :=
  inferInstanceAs (Decidable (∀ pixel ∈ row, pixel ≤ 3))

/-- The byte whose bits, most significant first, are bit `bit` of each pixel. -/
def packBit (bit : UInt8) (row : TileRow) : UInt8 :=
  row.foldl (fun acc pixel => (acc <<< 1) ||| ((pixel >>> bit) &&& 1)) 0

/-- The high plane of a row. -/
def packHigh (row : TileRow) : HighPlane := ⟨packBit 1 row⟩

/-- The low plane of a row. -/
def packLow (row : TileRow) : LowPlane := ⟨packBit 0 row⟩

/-- The place of the plane pair whose two bytes are those at place `i`, each read from its other
end. -/
def flipIndex (i : Nat) : Nat :=
  index ⟨reverseBits (UInt8.ofNat (i / 256))⟩ ⟨reverseBits (UInt8.ofNat (i % 256))⟩

end TileRow

end PixelTables

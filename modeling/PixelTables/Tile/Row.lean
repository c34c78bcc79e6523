/-!
# Tile rows

A tile row is stored as two bytes, its bitplanes: the low plane holds bit 0 of every pixel's color
id, the high plane bit 1, the leftmost pixel in the most significant bit.

## Main Definitions

* `HighPlane`, `LowPlane` — the two bytes of a row
* `TileRow` — eight color ids, leftmost first
* `TileRow.decode`, `TileRow.decodeFlipped` — the row of a plane pair, and the same row flipped
* `TileRow.index` — the place of a plane pair in a table of all pairs
-/

namespace PixelTables

/-- The byte with bit 1 of every pixel. -/
structure HighPlane where
  /-- The byte. -/
  bits : UInt8
  deriving DecidableEq, Repr

/-- The byte with bit 0 of every pixel. -/
structure LowPlane where
  /-- The byte. -/
  bits : UInt8
  deriving DecidableEq, Repr

/-- High planes are ordered by their bytes. -/
instance : Ord HighPlane := ⟨fun a b => compare a.bits b.bits⟩

instance : LT HighPlane := ⟨fun a b => a.bits < b.bits⟩

instance (a b : HighPlane) : Decidable (a < b) :=
  inferInstanceAs (Decidable (a.bits < b.bits))

/-- Low planes are ordered by their bytes. -/
instance : Ord LowPlane := ⟨fun a b => compare a.bits b.bits⟩

instance : LT LowPlane := ⟨fun a b => a.bits < b.bits⟩

instance (a b : LowPlane) : Decidable (a < b) :=
  inferInstanceAs (Decidable (a.bits < b.bits))

/-- The number of pixels in a row. -/
abbrev TileRow.width : Nat := 8

/-- Eight color ids, the leftmost pixel first. -/
abbrev TileRow := Vector UInt8 TileRow.width

namespace TileRow

/-- The number of plane pairs. -/
def pairCount : Nat := 256 * 256

/-- The color id that the planes hold at bit `bit`, counted from the least significant. -/
def colorId (high : HighPlane) (low : LowPlane) (bit : Nat) : UInt8 :=
  (((high.bits >>> UInt8.ofNat bit) &&& 1) <<< 1) ||| ((low.bits >>> UInt8.ofNat bit) &&& 1)

/-- The row of a plane pair. The leftmost pixel is in bit 7. -/
def decode (high : HighPlane) (low : LowPlane) : TileRow :=
  Vector.ofFn fun position : Fin width => colorId high low (width - 1 - position)

/-- The row of a plane pair, rightmost pixel first. -/
def decodeFlipped (high : HighPlane) (low : LowPlane) : TileRow :=
  (decode high low).reverse

/-- The place of a plane pair among all pairs, the high plane counting 256 times the low one. -/
def index (high : HighPlane) (low : LowPlane) : Nat :=
  high.bits.toNat * 256 + low.bits.toNat

end TileRow

end PixelTables

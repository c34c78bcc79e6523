import PixelTables.Invariant
import PixelTables.Color.Cgb

/-!
# RGB565 colors

An RGB565 color is a 16-bit word with red on top: red in bits 11 to 15, green in bits 5 to 10,
blue in bits 0 to 4. Green has one bit more than in a console color and is rescaled to the
nearest value.

## Main Definitions

* `Rgb565` — a word read as red, green and blue
* `Rgb565.rescaleGreen` — five bits of green as six
* `Rgb565.ofChannels` — five-bit channels packed into a word
* `Rgb565.ofCgb` — the conversion of a console color

## Design Notes

The channels of a console color are below 32 by construction. The conversion checks them all the
same, red first, then green, then blue, and its result says which check failed.
-/

namespace PixelTables

/-- A word read as an RGB565 color. -/
structure Rgb565 where
  /-- The word. -/
  raw : UInt16
  deriving DecidableEq, Repr

namespace Rgb565

/-- The red channel, five bits. -/
def red (color : Rgb565) : UInt8 := (color.raw >>> 11).toUInt8

/-- The green channel, six bits. -/
def green (color : Rgb565) : UInt8 := ((color.raw >>> 5) &&& 0x3F).toUInt8

/-- The blue channel, five bits. -/
def blue (color : Rgb565) : UInt8 := (color.raw &&& 0x1F).toUInt8

/-- A channel of five bits is below 32. -/
def checkChannel (channel : Channel) (value : UInt8) : Except InvariantError Unit :=
  if value < 32 then .ok () else .error (.channelOutOfRange channel value)

/-- Six bits of green for five: `g * 63 / 31` to the nearest integer. The quotient is never half
way between two integers, so adding half of 62 before the division decides every case. -/
def rescaleGreen (green : UInt8) : Except InvariantError UInt8 := do
  checkChannel .green green
  return ((green.toUInt16 * 126 + 31) / 62).toUInt8

/-- The RGB565 color with the given five-bit channels. -/
def ofChannels (red green blue : UInt8) : Except InvariantError Rgb565 := do
  checkChannel .red red
  checkChannel .green green
  checkChannel .blue blue
  let green6 ← rescaleGreen green
  return ⟨(red.toUInt16 <<< 11) ||| (green6.toUInt16 <<< 5) ||| blue.toUInt16⟩

/-- The RGB565 color of a console color. -/
def ofCgb (color : CgbColor) : Except InvariantError Rgb565 :=
  ofChannels color.red color.green color.blue

/-- RGB565 colors are ordered by their words. -/
instance : Ord Rgb565 := ⟨fun a b => compare a.raw b.raw⟩

instance : LT Rgb565 := ⟨fun a b => a.raw < b.raw⟩

instance (a b : Rgb565) : Decidable (a < b) :=
  inferInstanceAs (Decidable (a.raw < b.raw))

end Rgb565

end PixelTables

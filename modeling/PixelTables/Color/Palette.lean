import PixelTables.Color.Rgb565

/-!
# The palette

Every console color has an RGB565 word. The palette lists them all, so that a conversion is a
look-up at the color's own word.

## Main Definitions

* `Palette.convert` — the RGB565 word of a palette word, bit 15 ignored
* `Palette.generate` — the words of all console colors in order
-/

namespace PixelTables

namespace Palette

/-- The number of console colors. -/
def size : Nat := 32768

/-- The RGB565 word of a palette word. Bit 15 is ignored. -/
def convert (pixel : UInt16) : Except InvariantError UInt16 :=
  (Rgb565.ofCgb (CgbColor.ofPixel pixel)).map Rgb565.raw

/-- The RGB565 words of all console colors, at index `n` that of the color with word `n`. -/
def generate : Except InvariantError (Array UInt16) := do
  let words ← (Array.range (CgbColor.maxRaw.toNat + 1)).mapM fun n => convert (UInt16.ofNat n)
  if words.size = size then return words else throw (.sizeMismatch words.size size)

end Palette

end PixelTables

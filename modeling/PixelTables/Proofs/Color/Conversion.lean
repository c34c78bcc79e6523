import PixelTables.Color.Palette

/-!
# The conversion of colors never fails

The channels of a console color are below 32, so no check of the conversion to RGB565 fails, and the
palette is generated with a word for each color.

## Main Definitions

* `Rgb565.pack` — the word that three five-bit channels are packed into
* `Palette.words` — the words of the palette

## Main Statements

* `Rgb565.ofCgb_eq_ok` — every console color is converted
* `Palette.generate_eq_ok` — the palette is generated
-/

namespace PixelTables

namespace CgbColor

/-- The lowest five bits of a word are its remainder by 32. -/
theorem toNat_toUInt8_and (word : UInt16) : (word &&& 0x1F).toUInt8.toNat = word.toNat % 32 := by
  have hand : word.toNat &&& (0x1F : UInt16).toNat = word.toNat % 32 :=
    Nat.and_two_pow_sub_one_eq_mod word.toNat 5
  rw [UInt16.toNat_toUInt8, UInt16.toNat_and, hand]
  omega

/-- Five bits of a word are below 32. -/
theorem toUInt8_and_lt (word : UInt16) : (word &&& 0x1F).toUInt8 < 32 := by
  rw [UInt8.lt_iff_toNat_lt, toNat_toUInt8_and]
  exact Nat.mod_lt _ (by decide)

theorem red_lt (color : CgbColor) : color.red < 32 := toUInt8_and_lt color.raw

theorem green_lt (color : CgbColor) : color.green < 32 := toUInt8_and_lt (color.raw >>> 5)

theorem blue_lt (color : CgbColor) : color.blue < 32 := toUInt8_and_lt (color.raw >>> 10)

end CgbColor

namespace Rgb565

theorem checkChannel_eq_ok {channel : Channel} {value : UInt8} (h : value < 32) :
    checkChannel channel value = .ok () := if_pos h

/-- The word that three five-bit channels are packed into, green with six bits. -/
def pack (red green blue : UInt8) : Rgb565 :=
  ⟨(red.toUInt16 <<< 11) ||| (((green.toUInt16 * 126 + 31) / 62).toUInt8.toUInt16 <<< 5)
    ||| blue.toUInt16⟩

/-- Channels below 32 pass all checks. -/
theorem ofChannels_eq_ok {red green blue : UInt8} (hred : red < 32) (hgreen : green < 32)
    (hblue : blue < 32) : ofChannels red green blue = .ok (pack red green blue) := by
  rw [ofChannels, rescaleGreen, checkChannel_eq_ok hred, checkChannel_eq_ok hgreen,
    checkChannel_eq_ok hblue]
  rfl

/-- Every console color is converted. -/
theorem ofCgb_eq_ok (color : CgbColor) :
    ofCgb color = .ok (pack color.red color.green color.blue) :=
  ofChannels_eq_ok color.red_lt color.green_lt color.blue_lt

end Rgb565

namespace Palette

/-- The RGB565 word of a palette word, of which bit 15 is ignored. -/
def converted (pixel : UInt16) : UInt16 :=
  let color := CgbColor.ofPixel pixel
  (Rgb565.pack color.red color.green color.blue).raw

theorem convert_eq_ok (pixel : UInt16) : convert pixel = .ok (converted pixel) := by
  rw [convert, Rgb565.ofCgb_eq_ok]
  rfl

/-- The words of the palette. -/
def words : List UInt16 := (List.range size).map fun n => converted (UInt16.ofNat n)

theorem length_words : words.length = size := by
  rw [words, List.length_map, List.length_range]

/-- Words that are as many as the colors pass the last check. -/
theorem generate_of_size_eq {converted : Array UInt16}
    (h : (Array.range (CgbColor.maxRaw.toNat + 1)).mapM (fun n => convert (UInt16.ofNat n))
      = .ok converted) (hsize : converted.size = size) : generate = .ok converted := by
  rw [generate, h]
  simp only [bind, Except.bind]
  rw [if_pos hsize]
  rfl

theorem mapM_convert (colors : Array Nat) :
    colors.mapM (fun n => convert (UInt16.ofNat n))
      = .ok (colors.map fun n => converted (UInt16.ofNat n)) := by
  have hpure : (fun n : Nat => convert (UInt16.ofNat n))
      = fun n => (pure (converted (UInt16.ofNat n)) : Except InvariantError UInt16) := by
    funext n
    exact convert_eq_ok _
  rw [hpure, Array.mapM_pure]
  rfl

/-- The palette is generated. -/
theorem generate_eq_ok : generate = .ok words.toArray := by
  have hcount : CgbColor.maxRaw.toNat + 1 = size := rfl
  apply generate_of_size_eq
  · rw [hcount, mapM_convert, words, ← List.map_toArray, List.toArray_range]
  · rw [List.size_toArray, length_words]

end Palette

end PixelTables

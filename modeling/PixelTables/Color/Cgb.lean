/-!
# Console colors

A console color is a 15-bit word: red in bits 0 to 4, green in bits 5 to 9, blue in bits 10
to 14. Bit 15 is no part of a color, and a word that has it set is refused.

## Main Definitions

* `CgbColor` — a word with bit 15 clear
* `CgbColor.ofRaw` — the color of a word, or the reason there is none
* `CgbColor.ofPixel` — the color of a palette word whose bit 15 is ignored
-/

namespace PixelTables

/-- The largest word that is a color. -/
def CgbColor.maxRaw : UInt16 := 0x7FFF

/-- A color of the console: a word with bit 15 clear. -/
structure CgbColor where
  /-- The word. -/
  raw : UInt16
  /-- Bit 15 is clear. -/
  raw_le : raw ≤ CgbColor.maxRaw
  deriving DecidableEq

/-- Why a word is not a color. -/
inductive ColorError where
  /-- Bit 15 of the word is set. -/
  | bit15Set (raw : UInt16)
  deriving DecidableEq, Repr

/-- Four lower-case hexadecimal digits, or more if the number needs them. -/
def ColorError.hexWord (n : Nat) : String :=
  let digits := Nat.toDigits 16 n
  String.ofList (List.replicate (4 - digits.length) '0' ++ digits)

/-- The wording of a refused word. -/
def ColorError.message : ColorError → String
  | .bit15Set raw => "cgb color 0x" ++ ColorError.hexWord raw.toNat ++ " has bit 15 set"

namespace CgbColor

/-- The color with the given word; a word above `maxRaw` is refused. -/
def ofRaw (raw : UInt16) : Except ColorError CgbColor :=
  if h : raw ≤ maxRaw then .ok ⟨raw, h⟩ else .error (.bit15Set raw)

/-- Clearing bit 15 leaves a word that is a color. -/
theorem and_maxRaw_le (pixel : UInt16) : pixel &&& maxRaw ≤ maxRaw := by
  rw [UInt16.le_iff_toNat_le, UInt16.toNat_and]
  exact Nat.and_le_right

/-- The color of a palette word, bit 15 ignored. -/
def ofPixel (pixel : UInt16) : CgbColor :=
  ⟨pixel &&& maxRaw, and_maxRaw_le pixel⟩

/-- The red channel, bits 0 to 4. -/
def red (color : CgbColor) : UInt8 := (color.raw &&& 0x1F).toUInt8

/-- The green channel, bits 5 to 9. -/
def green (color : CgbColor) : UInt8 := ((color.raw >>> 5) &&& 0x1F).toUInt8

/-- The blue channel, bits 10 to 14. -/
def blue (color : CgbColor) : UInt8 := ((color.raw >>> 10) &&& 0x1F).toUInt8

/-- Colors are ordered by their words. -/
instance : Ord CgbColor := ⟨fun a b => compare a.raw b.raw⟩

instance : LT CgbColor := ⟨fun a b => a.raw < b.raw⟩

instance (a b : CgbColor) : Decidable (a < b) :=
  inferInstanceAs (Decidable (a.raw < b.raw))

end CgbColor

end PixelTables

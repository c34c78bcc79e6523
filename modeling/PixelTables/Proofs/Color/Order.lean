import Mathlib.Algebra.Order.Field.Rat
import Mathlib.Data.List.Nodup
import Mathlib.Data.Rat.Cast.Order
import Mathlib.Tactic.Linarith
import Mathlib.Tactic.NormNum
import PixelTables.Proofs.Color.Conversion

/-!
# The order of colors

A console color is a number with blue as its highest digit, then green, then red. Its RGB565 color
is a number with red as the highest digit, then the rescaled green, then blue. The rescaling of
green keeps the order, so either order is that of the console color's own channels, and no two
colors are converted to the same word.

## Main Definitions

* `ChannelsLt` — three channels in the order of the first one that differs
* `Rgb565.scaledGreen` — six bits of green for five, as a number
* `Rgb565.ofColor` — the RGB565 color of a console color, without the checks

## Main Statements

* `CgbColor.toNat_raw`, `Rgb565.toNat_raw_pack` — the two words as numbers
* `CgbColor.lt_iff`, `Rgb565.ofColor_lt_iff` — the two orders
* `Rgb565.abs_scaledGreen_lt` — rescaled green is the nearest integer
* `Rgb565.conversion_keepsColors` — what the conversion keeps, in full
-/

namespace PixelTables

/-- Three channels come before three others where the first channel that differs is smaller. -/
def ChannelsLt : UInt8 × UInt8 × UInt8 → UInt8 × UInt8 × UInt8 → Prop :=
  Prod.Lex (· < ·) (Prod.Lex (· < ·) (· < ·))

instance (a b : UInt8 × UInt8 × UInt8) : Decidable (ChannelsLt a b) :=
  inferInstanceAs (Decidable (Prod.Lex (· < ·) (Prod.Lex (· < ·) (· < ·)) a b))

theorem channelsLt_iff {a b c a' b' c' : UInt8} :
    ChannelsLt (a, b, c) (a', b', c')
      ↔ a.toNat < a'.toNat ∨ a.toNat = a'.toNat
        ∧ (b.toNat < b'.toNat ∨ b.toNat = b'.toNat ∧ c.toNat < c'.toNat) := by
  simp only [ChannelsLt, Prod.lex_def, UInt8.lt_iff_toNat_lt, UInt8.toNat_inj]

/-! ## Shifted words -/

theorem toNat_shiftRight_of_lt (word shift : UInt16) (h : shift < 16) :
    (word >>> shift).toNat = word.toNat / 2 ^ shift.toNat := by
  have hshift : shift.toNat % 16 = shift.toNat := Nat.mod_eq_of_lt (UInt16.lt_iff_toNat_lt.1 h)
  rw [UInt16.toNat_shiftRight, hshift, Nat.shiftRight_eq_div_pow]

theorem toNat_shiftLeft_of_lt (byte : UInt8) (shift : UInt16) (h : shift < 16)
    (hfits : byte.toNat * 2 ^ shift.toNat < 65536) :
    (byte.toUInt16 <<< shift).toNat = byte.toNat <<< shift.toNat := by
  have hshift : shift.toNat % 16 = shift.toNat := Nat.mod_eq_of_lt (UInt16.lt_iff_toNat_lt.1 h)
  rw [UInt16.toNat_shiftLeft, UInt8.toNat_toUInt16, hshift, Nat.shiftLeft_eq]
  exact Nat.mod_eq_of_lt hfits

namespace CgbColor

/-! ## Console colors as numbers -/

theorem toNat_raw_lt (color : CgbColor) : color.raw.toNat < 32768 :=
  Nat.lt_succ_of_le (UInt16.le_iff_toNat_le.1 color.raw_le)

theorem toNat_red (color : CgbColor) : color.red.toNat = color.raw.toNat % 32 :=
  toNat_toUInt8_and color.raw

theorem toNat_green (color : CgbColor) : color.green.toNat = color.raw.toNat / 32 % 32 := by
  have hshift : (color.raw >>> 5).toNat = color.raw.toNat / 32 :=
    toNat_shiftRight_of_lt color.raw 5 (by decide)
  rw [green, toNat_toUInt8_and, hshift]

theorem toNat_blue (color : CgbColor) : color.blue.toNat = color.raw.toNat / 1024 := by
  have hraw := color.toNat_raw_lt
  have hshift : (color.raw >>> 10).toNat = color.raw.toNat / 1024 :=
    toNat_shiftRight_of_lt color.raw 10 (by decide)
  rw [blue, toNat_toUInt8_and, hshift]
  omega

theorem toNat_blue_lt (color : CgbColor) : color.blue.toNat < 32 :=
  UInt8.lt_iff_toNat_lt.1 color.blue_lt

/-- A console color is a number with three digits to the base 32. -/
theorem toNat_raw (color : CgbColor) :
    color.raw.toNat = (color.blue.toNat * 32 + color.green.toNat) * 32 + color.red.toNat := by
  rw [toNat_red, toNat_green, toNat_blue]
  omega

/-- The order of console colors is that of blue, then green, then red. -/
theorem lt_iff (a b : CgbColor) :
    a < b ↔ ChannelsLt (a.blue, a.green, a.red) (b.blue, b.green, b.red) := by
  have hlt : a < b ↔ a.raw.toNat < b.raw.toNat := UInt16.lt_iff_toNat_lt
  rw [hlt, channelsLt_iff, toNat_red, toNat_red, toNat_green, toNat_green, toNat_blue, toNat_blue]
  omega

/-- A word is accepted as a color if and only if it is at most the largest one. -/
theorem ofRaw_eq_ok_iff {raw : UInt16} {color : CgbColor} :
    ofRaw raw = .ok color ↔ color.raw = raw := by
  rw [ofRaw]
  split
  · next hraw =>
    rw [Except.ok.injEq]
    constructor
    · rintro rfl
      rfl
    · rintro rfl
      rfl
  · next hraw =>
    constructor
    · nofun
    · rintro rfl
      exact absurd color.raw_le hraw

theorem exists_ofRaw_eq_ok_iff {raw : UInt16} :
    (∃ color, ofRaw raw = .ok color) ↔ raw ≤ 0x7FFF := by
  constructor
  · rintro ⟨color, hcolor⟩
    rw [← ofRaw_eq_ok_iff.1 hcolor]
    exact color.raw_le
  · intro hraw
    exact ⟨⟨raw, hraw⟩, ofRaw_eq_ok_iff.2 rfl⟩

end CgbColor

namespace Rgb565

/-! ## Green -/

/-- Six bits of green for five, as a number. -/
def scaledGreen (green : UInt8) : Nat := (green.toNat * 126 + 31) / 62

theorem toNat_rescaled {green : UInt8} (h : green < 32) :
    ((green.toUInt16 * 126 + 31) / 62).toUInt8.toNat = scaledGreen green := by
  have hgreen : green.toNat < 32 := UInt8.lt_iff_toNat_lt.1 h
  have hmul : (green.toUInt16 * 126 + 31).toNat = green.toNat * 126 + 31 := by
    have h126 : (126 : UInt16).toNat = 126 := rfl
    have h31 : (31 : UInt16).toNat = 31 := rfl
    rw [UInt16.toNat_add, UInt16.toNat_mul, UInt8.toNat_toUInt16, h126, h31]
    omega
  have h62 : (62 : UInt16).toNat = 62 := rfl
  rw [UInt16.toNat_toUInt8, UInt16.toNat_div, hmul, h62, scaledGreen]
  omega

theorem scaledGreen_lt {green : UInt8} (h : green < 32) : scaledGreen green < 64 := by
  have hgreen : green.toNat < 32 := UInt8.lt_iff_toNat_lt.1 h
  rw [scaledGreen]
  omega

/-- More green stays more green. -/
theorem scaledGreen_lt_iff {green other : UInt8} :
    scaledGreen green < scaledGreen other ↔ green.toNat < other.toNat := by
  rw [scaledGreen, scaledGreen]
  omega

/-- Rescaled green is less than half a step off. -/
theorem abs_scaledGreen_lt (green : UInt8) :
    |(green.toNat : ℚ) * 63 / 31 - scaledGreen green| < 1 / 2 := by
  have hlow : 62 * scaledGreen green < green.toNat * 126 + 31 := by
    rw [scaledGreen]
    omega
  have hhigh : green.toNat * 126 < 62 * scaledGreen green + 31 := by
    rw [scaledGreen]
    omega
  have hlow' : (62 : ℚ) * scaledGreen green < green.toNat * 126 + 31 := by exact_mod_cast hlow
  have hhigh' : (green.toNat : ℚ) * 126 < 62 * scaledGreen green + 31 := by exact_mod_cast hhigh
  rw [abs_lt]
  constructor <;> linarith

/-- What is less than half a step off is nearer than any other integer. -/
theorem abs_sub_lt_of_abs_sub_lt_half {x : ℚ} {n m : ℤ} (h : |x - n| < 1 / 2) (hne : m ≠ n) :
    |x - n| < |x - m| := by
  have hstep : (1 : ℚ) ≤ |(n : ℚ) - m| := by
    have hint : (1 : ℤ) ≤ |n - m| := Int.one_le_abs (sub_ne_zero.2 hne.symm)
    exact_mod_cast hint
  have htriangle : |(n : ℚ) - m| ≤ |(n : ℚ) - x| + |x - m| := abs_sub_le _ _ _
  rw [abs_sub_comm (n : ℚ) x] at htriangle
  linarith

/-! ## RGB565 colors as numbers -/

/-- The three channels are put side by side and do not reach into each other. -/
theorem toNat_raw_pack {red green blue : UInt8} (hred : red < 32) (hgreen : green < 32)
    (hblue : blue < 32) :
    (pack red green blue).raw.toNat
      = red.toNat * 2048 + scaledGreen green * 32 + blue.toNat := by
  have hred' : red.toNat < 32 := UInt8.lt_iff_toNat_lt.1 hred
  have hblue' : blue.toNat < 2 ^ 5 := UInt8.lt_iff_toNat_lt.1 hblue
  have hscaled := scaledGreen_lt hgreen
  have hfits : red.toNat * 2 ^ 11 < 65536 := by omega
  have hhigh : (red.toUInt16 <<< 11).toNat = red.toNat <<< 11 :=
    toNat_shiftLeft_of_lt red 11 (by decide) hfits
  have hfits' : ((green.toUInt16 * 126 + 31) / 62).toUInt8.toNat * 2 ^ 5 < 65536 := by
    rw [toNat_rescaled hgreen]
    omega
  have hmiddle : (((green.toUInt16 * 126 + 31) / 62).toUInt8.toUInt16 <<< 5).toNat
      = ((green.toUInt16 * 126 + 31) / 62).toUInt8.toNat <<< 5 :=
    toNat_shiftLeft_of_lt _ 5 (by decide) hfits'
  have hlow : scaledGreen green <<< 5 + blue.toNat < 2 ^ 11 := by
    rw [Nat.shiftLeft_eq]
    omega
  rw [pack, UInt16.toNat_or, UInt16.toNat_or, hhigh, hmiddle, toNat_rescaled hgreen,
    UInt8.toNat_toUInt16, Nat.or_assoc, ← Nat.shiftLeft_add_eq_or_of_lt hblue' (scaledGreen green),
    ← Nat.shiftLeft_add_eq_or_of_lt hlow red.toNat, Nat.shiftLeft_eq, Nat.shiftLeft_eq]
  omega

theorem toNat_red (color : Rgb565) : color.red.toNat = color.raw.toNat / 2048 := by
  have hraw := color.raw.toNat_lt
  have hshift : (color.raw >>> 11).toNat = color.raw.toNat / 2048 :=
    toNat_shiftRight_of_lt color.raw 11 (by decide)
  rw [red, UInt16.toNat_toUInt8, hshift]
  omega

theorem toNat_green (color : Rgb565) : color.green.toNat = color.raw.toNat / 32 % 64 := by
  have hshift : (color.raw >>> 5).toNat = color.raw.toNat / 32 :=
    toNat_shiftRight_of_lt color.raw 5 (by decide)
  have hand : color.raw.toNat / 32 &&& (0x3F : UInt16).toNat = color.raw.toNat / 32 % 64 :=
    Nat.and_two_pow_sub_one_eq_mod _ 6
  rw [green, UInt16.toNat_toUInt8, UInt16.toNat_and, hshift, hand]
  omega

theorem toNat_blue (color : Rgb565) : color.blue.toNat = color.raw.toNat % 32 :=
  CgbColor.toNat_toUInt8_and color.raw

/-- The RGB565 color of a console color, whose channels need no check. -/
def ofColor (color : CgbColor) : Rgb565 := pack color.red color.green color.blue

theorem toNat_raw_ofColor (color : CgbColor) :
    (ofColor color).raw.toNat
      = color.red.toNat * 2048 + scaledGreen color.green * 32 + color.blue.toNat :=
  toNat_raw_pack color.red_lt color.green_lt color.blue_lt

theorem red_ofColor (color : CgbColor) : (ofColor color).red = color.red := by
  apply UInt8.toNat_inj.1
  have hblue := color.toNat_blue_lt
  have hscaled := scaledGreen_lt color.green_lt
  rw [toNat_red, toNat_raw_ofColor]
  omega

theorem toNat_green_ofColor (color : CgbColor) :
    (ofColor color).green.toNat = scaledGreen color.green := by
  have hblue := color.toNat_blue_lt
  have hscaled := scaledGreen_lt color.green_lt
  rw [toNat_green, toNat_raw_ofColor]
  omega

/-- More green is converted to more green. -/
theorem green_ofColor_lt_iff (a b : CgbColor) :
    (ofColor a).green < (ofColor b).green ↔ a.green < b.green := by
  rw [UInt8.lt_iff_toNat_lt, UInt8.lt_iff_toNat_lt, toNat_green_ofColor, toNat_green_ofColor,
    scaledGreen_lt_iff]

theorem blue_ofColor (color : CgbColor) : (ofColor color).blue = color.blue := by
  apply UInt8.toNat_inj.1
  have hblue := color.toNat_blue_lt
  rw [toNat_blue, toNat_raw_ofColor]
  omega

/-- The order of converted colors is that of red, then green, then blue. -/
theorem ofColor_lt_iff (a b : CgbColor) :
    ofColor a < ofColor b ↔ ChannelsLt (a.red, a.green, a.blue) (b.red, b.green, b.blue) := by
  have hlt : ofColor a < ofColor b ↔ (ofColor a).raw.toNat < (ofColor b).raw.toNat :=
    UInt16.lt_iff_toNat_lt
  have hblue := a.toNat_blue_lt
  have hblue' := b.toNat_blue_lt
  have hscaled := scaledGreen_lt a.green_lt
  have hscaled' := scaledGreen_lt b.green_lt
  have hgreen : scaledGreen a.green < scaledGreen b.green ↔ a.green.toNat < b.green.toNat :=
    scaledGreen_lt_iff
  have hgreen' : scaledGreen b.green < scaledGreen a.green ↔ b.green.toNat < a.green.toNat :=
    scaledGreen_lt_iff
  rw [hlt, channelsLt_iff, toNat_raw_ofColor, toNat_raw_ofColor]
  omega

/-- Different colors are converted to different words. -/
theorem ofColor_injective : Function.Injective ofColor := by
  intro a b h
  have hchannels : a.red = b.red ∧ a.blue = b.blue := by
    rw [← red_ofColor a, ← red_ofColor b, ← blue_ofColor a, ← blue_ofColor b, h]
    exact ⟨rfl, rfl⟩
  have hgreen : scaledGreen a.green = scaledGreen b.green := by
    rw [← toNat_green_ofColor, ← toNat_green_ofColor, h]
  have hgreen' : a.green.toNat = b.green.toNat := by
    rw [scaledGreen, scaledGreen] at hgreen
    omega
  have hraw : a.raw = b.raw := by
    apply UInt16.toNat_inj.1
    rw [CgbColor.toNat_raw, CgbColor.toNat_raw, hchannels.1, hchannels.2, hgreen']
  obtain ⟨raw, hle⟩ := a
  obtain ⟨raw', hle'⟩ := b
  simp only [CgbColor.mk.injEq]
  exact hraw

end Rgb565

namespace Palette

/-! ## The palette -/

theorem toNat_raw_ofPixel (pixel : UInt16) :
    (CgbColor.ofPixel pixel).raw.toNat = pixel.toNat % 32768 := by
  rw [CgbColor.ofPixel, UInt16.toNat_and]
  exact Nat.and_two_pow_sub_one_eq_mod pixel.toNat 15

/-- No word is in the palette twice. -/
theorem nodup_words : words.Nodup := by
  refine List.Nodup.map_on ?_ List.nodup_range
  intro n hn m hm h
  rw [List.mem_range, size] at hn hm
  have hcolor : CgbColor.ofPixel (UInt16.ofNat n) = CgbColor.ofPixel (UInt16.ofNat m) :=
    Rgb565.ofColor_injective (congrArg Rgb565.mk h)
  have hraw := congrArg (fun color => color.raw.toNat) hcolor
  rw [toNat_raw_ofPixel, toNat_raw_ofPixel, UInt16.toNat_ofNat', UInt16.toNat_ofNat'] at hraw
  omega

end Palette

namespace Rgb565

/-- The conversion loses nothing of a color and only changes which channel counts most. The words
that are colors are those up to `0x7FFF`. They are ordered by blue, then green, then red, and what
they are converted to by red, then green, then blue; so different colors have different words, also
in the palette. Red and blue are kept. Green becomes the integer nearest to its 63/31, never one of
two that are as near, and more green stays more green. Each channel has its own bits. -/
theorem conversion_keepsColors :
    (∀ raw : UInt16, (∃ color, CgbColor.ofRaw raw = .ok color) ↔ raw ≤ 0x7FFF)
    ∧ (∀ (rawA rawB : UInt16) (a b : CgbColor), CgbColor.ofRaw rawA = .ok a →
      CgbColor.ofRaw rawB = .ok b → ∃ x y, ofCgb a = .ok x ∧ ofCgb b = .ok y
        ∧ (a < b ↔ ChannelsLt (a.blue, a.green, a.red) (b.blue, b.green, b.red))
        ∧ (x < y ↔ ChannelsLt (a.red, a.green, a.blue) (b.red, b.green, b.blue))
        ∧ (x = y → rawA = rawB)
        ∧ (a.green < b.green ↔ x.green < y.green))
    ∧ (∃ words, Palette.generate = .ok words ∧ words.size = 32768 ∧ words.toList.Nodup)
    ∧ ∀ (raw : UInt16) (a : CgbColor), CgbColor.ofRaw raw = .ok a → ∃ x, ofCgb a = .ok x
        ∧ x.red = a.red ∧ x.blue = a.blue
        ∧ (∀ m : ℤ, m ≠ x.green.toNat →
          |(a.green.toNat : ℚ) * 63 / 31 - x.green.toNat| < |(a.green.toNat : ℚ) * 63 / 31 - m|)
        ∧ raw.toNat = a.blue.toNat * 2 ^ 10 + a.green.toNat * 2 ^ 5 + a.red.toNat
        ∧ x.raw.toNat = x.red.toNat * 2 ^ 11 + x.green.toNat * 2 ^ 5 + x.blue.toNat
        ∧ x.red < 32 ∧ x.green < 64 ∧ x.blue < 32 := by
  refine ⟨?_, ?_, ⟨_, Palette.generate_eq_ok, ?_, ?_⟩, ?_⟩
  · intro raw
    exact CgbColor.exists_ofRaw_eq_ok_iff
  · intro rawA rawB a b ha hb
    refine ⟨ofColor a, ofColor b, ofCgb_eq_ok a, ofCgb_eq_ok b, a.lt_iff b, ofColor_lt_iff a b, ?_,
      (green_ofColor_lt_iff a b).symm⟩
    intro h
    rw [← CgbColor.ofRaw_eq_ok_iff.1 ha, ← CgbColor.ofRaw_eq_ok_iff.1 hb, ofColor_injective h]
  · rw [List.size_toArray, Palette.length_words]
    rfl
  · rw [List.toList_toArray]
    exact Palette.nodup_words
  · intro raw a ha
    refine ⟨ofColor a, ofCgb_eq_ok a, red_ofColor a, blue_ofColor a, ?_, ?_, ?_, ?_, ?_, ?_⟩
    · rw [toNat_green_ofColor]
      intro m hm
      exact_mod_cast abs_sub_lt_of_abs_sub_lt_half (abs_scaledGreen_lt a.green) hm
    · rw [← CgbColor.ofRaw_eq_ok_iff.1 ha, CgbColor.toNat_raw]
      omega
    · rw [toNat_raw_ofColor, red_ofColor, toNat_green_ofColor, blue_ofColor]
      rfl
    · rw [red_ofColor]
      exact a.red_lt
    · rw [UInt8.lt_iff_toNat_lt, toNat_green_ofColor]
      exact scaledGreen_lt a.green_lt
    · rw [blue_ofColor]
      exact a.blue_lt

/-- The brightest red comes before the brightest blue, and after it when both are converted. -/
theorem conversion_keepsColors_redAndBlue :
    ∃ a b x y, CgbColor.ofRaw 0x001F = .ok a ∧ CgbColor.ofRaw 0x7C00 = .ok b
      ∧ ofCgb a = .ok x ∧ ofCgb b = .ok y ∧ a < b ∧ y < x := by
  have hred : CgbColor.ofRaw 0x001F = .ok ⟨0x001F, by decide⟩ := rfl
  have hblue : CgbColor.ofRaw 0x7C00 = .ok ⟨0x7C00, by decide⟩ := rfl
  obtain ⟨x, y, hx, hy, hlt, -⟩ := conversion_keepsColors.2.1 _ _ _ _ hred hblue
  obtain ⟨y', x', hy', hx', -, hlt', -⟩ := conversion_keepsColors.2.1 _ _ _ _ hblue hred
  rw [hx] at hx'
  rw [hy] at hy'
  cases hx'
  cases hy'
  exact ⟨_, _, x, y, hred, hblue, hx, hy, hlt.2 (by decide), hlt'.2 (by decide)⟩

end Rgb565

end PixelTables

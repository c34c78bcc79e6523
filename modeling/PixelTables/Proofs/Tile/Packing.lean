import PixelTables.Proofs.Tile.Enumeration
import PixelTables.Tile.Packing

/-!
# Rows and their planes

A pixel of a decoded row has its two bits from its planes, and the planes that a row is packed into
have theirs from the pixels. So decoding and packing undo each other, and the table of all rows
holds each row of color ids once and no other row.

## Main Statements

* `testBit_foldl_shiftIn` — the bits of a byte that bits are shifted into
* `TileRow.testBit_colorId`, `TileRow.testBit_packBit` — the bits of a pixel and of a plane
* `TileRow.packHigh_decode`, `TileRow.packLow_decode`, `TileRow.decode_pack` — decoding and packing
* `TileRow.generate_perfectCode` — the table of all rows
-/

namespace PixelTables

/-! ## The bits of a byte -/

/-- Bytes that agree in their eight bits are equal. -/
theorem eq_of_testBit_eq {a b : UInt8} (h : ∀ i < 8, a.toNat.testBit i = b.toNat.testBit i) :
    a = b := by
  apply UInt8.toNat_inj.1
  apply Nat.eq_of_testBit_eq
  intro i
  by_cases hi : i < 8
  · exact h i hi
  · -- A byte has no bit from the ninth on.
    have hzero : ∀ byte : UInt8, byte.toNat.testBit i = false := by
      intro byte
      have hpow : 2 ^ 8 ≤ 2 ^ i := Nat.pow_le_pow_right (by decide) (Nat.le_of_not_lt hi)
      exact Nat.testBit_lt_two_pow (Nat.lt_of_lt_of_le byte.toNat_lt hpow)
    rw [hzero a, hzero b]

/-- The bit that is shifted into a byte becomes the lowest one, and the others move up. -/
theorem testBit_shiftIn (acc source : UInt8) (i : Nat) :
    ((acc <<< 1) ||| (source &&& 1)).toNat.testBit i
      = match i with
        | 0 => source.toNat.testBit 0
        | i + 1 => decide (i + 1 < 8) && acc.toNat.testBit i := by
  rw [UInt8.toNat_or, UInt8.toNat_and, UInt8.toNat_shiftLeft, Nat.testBit_or, Nat.testBit_and,
    Nat.testBit_mod_two_pow, Nat.testBit_shiftLeft]
  cases i with
  | zero => simp
  | succ i =>
    have hone : (1 : UInt8).toNat.testBit (i + 1) = false := by
      rw [UInt8.toNat_one, Nat.testBit_add_one]
      simp
    rw [hone, Bool.and_false, Bool.or_false]
    simp

/-- Of bits that are shifted into a byte the last ones stay, the very last one lowest. -/
theorem testBit_foldl_shiftIn {α : Type} (source : α → UInt8) (xs : List α) {i : Nat}
    (hi : i < 8) :
    (xs.foldl (fun (acc : UInt8) x => (acc <<< 1) ||| (source x &&& 1)) 0).toNat.testBit i
      = xs.reverse[i]?.any fun x => (source x).toNat.testBit 0 := by
  rw [List.foldl_eq_foldr_reverse]
  -- The induction is on the bits from the last one on.
  induction xs.reverse generalizing i with
  | nil => simp
  | cons x ys ih =>
    rw [List.foldr_cons, testBit_shiftIn]
    cases i with
    | zero => rfl
    | succ i =>
      dsimp only
      rw [ih (Nat.lt_of_succ_lt hi), decide_eq_true hi, Bool.true_and]
      rfl

theorem testBit_shiftRight_zero (byte : UInt8) {bit : Nat} (h : bit < 8) :
    (byte >>> UInt8.ofNat bit).toNat.testBit 0 = byte.toNat.testBit bit := by
  have hbit : (UInt8.ofNat bit).toNat % 8 = bit := by
    rw [UInt8.toNat_ofNat_of_lt' (Nat.lt_trans h (by decide)), Nat.mod_eq_of_lt h]
  rw [UInt8.toNat_shiftRight, Nat.testBit_shiftRight, hbit, Nat.add_zero]

namespace TileRow

/-! ## The bits of a pixel and of a plane -/

/-- Bit 0 of a pixel is from the low plane and bit 1 from the high one. -/
theorem testBit_colorId (high : HighPlane) (low : LowPlane) {bit : Nat} (hbit : bit < 8)
    (i : Nat) :
    (colorId high low bit).toNat.testBit i
      = match i with
        | 0 => low.bits.toNat.testBit bit
        | 1 => high.bits.toNat.testBit bit
        | _ + 2 => false := by
  have hone : ∀ (byte : UInt8) (i : Nat), (byte &&& 1).toNat.testBit i
      = (decide (i = 0) && byte.toNat.testBit 0) := by
    intro byte i
    rw [UInt8.toNat_and, Nat.testBit_and]
    cases i with
    | zero => simp
    | succ i => simp [Nat.testBit_add_one]
  rw [colorId, testBit_shiftIn]
  match i with
  | 0 => exact testBit_shiftRight_zero low.bits hbit
  | 1 =>
    dsimp only
    rw [hone, testBit_shiftRight_zero high.bits hbit]
    rfl
  | i + 2 =>
    dsimp only
    rw [hone]
    simp

/-- A pixel of a decoded row has its bits from the planes, the leftmost from their highest bits. -/
theorem testBit_decode (high : HighPlane) (low : LowPlane) (position : Fin width) (i : Nat) :
    (decode high low)[position].toNat.testBit i
      = match i with
        | 0 => low.bits.toNat.testBit (7 - position)
        | 1 => high.bits.toNat.testBit (7 - position)
        | _ + 2 => false := by
  have hpixel : (decode high low)[position] = colorId high low (7 - position) := by
    rw [decode, Fin.getElem_fin, Vector.getElem_ofFn]
    rfl
  rw [hpixel, testBit_colorId high low (by omega)]

/-- A bit of a plane is that of the pixel in its place. -/
theorem testBit_packBit {bit : Nat} (hbit : bit < 8) (row : TileRow) (position : Fin width) :
    (packBit (UInt8.ofNat bit) row).toNat.testBit (7 - position)
      = row[position].toNat.testBit bit := by
  have hposition : position.val < 8 := position.isLt
  have hpixel : row.toList.reverse[7 - position.val]? = some row[position] := by
    have hlength : row.toList.length = 8 := Vector.length_toList
    rw [List.getElem?_reverse (by omega), hlength]
    have hback : 8 - 1 - (7 - position.val) = position.val := by omega
    rw [hback, Vector.getElem?_toList]
    exact Vector.getElem?_eq_getElem hposition
  rw [packBit, ← Vector.foldl_toList, testBit_foldl_shiftIn _ _ (by omega), hpixel]
  exact testBit_shiftRight_zero _ hbit

theorem testBit_packHigh (row : TileRow) (position : Fin width) :
    (packHigh row).bits.toNat.testBit (7 - position) = row[position].toNat.testBit 1 :=
  testBit_packBit (by decide) row position

theorem testBit_packLow (row : TileRow) (position : Fin width) :
    (packLow row).bits.toNat.testBit (7 - position) = row[position].toNat.testBit 0 :=
  testBit_packBit (by decide) row position

/-! ## Decoding and packing -/

/-- Every bit of a byte is in the place of one pixel. -/
theorem eq_of_testBit_position_eq {a b : UInt8}
    (h : ∀ position : Fin width, a.toNat.testBit (7 - position) = b.toNat.testBit (7 - position)) :
    a = b := by
  apply eq_of_testBit_eq
  intro i hi
  have hposition := h ⟨7 - i, Nat.lt_succ_of_le (Nat.sub_le 7 i)⟩
  have hback : 7 - (7 - i) = i := by omega
  rw [hback] at hposition
  exact hposition

/-- A decoded row is packed into the high plane it was decoded from. -/
theorem packHigh_decode (high : HighPlane) (low : LowPlane) :
    packHigh (decode high low) = high := by
  have hbits : (packHigh (decode high low)).bits = high.bits := by
    apply eq_of_testBit_position_eq
    intro position
    rw [testBit_packHigh, testBit_decode]
  cases high
  exact congrArg HighPlane.mk hbits

/-- A decoded row is packed into the low plane it was decoded from. -/
theorem packLow_decode (high : HighPlane) (low : LowPlane) :
    packLow (decode high low) = low := by
  have hbits : (packLow (decode high low)).bits = low.bits := by
    apply eq_of_testBit_position_eq
    intro position
    rw [testBit_packLow, testBit_decode]
  cases low
  exact congrArg LowPlane.mk hbits

/-- A pixel is a color id if it has no other bits than the lowest two. -/
theorem le_three_iff (pixel : UInt8) : pixel ≤ 3 ↔ ∀ i, pixel.toNat.testBit (i + 2) = false := by
  have hle : pixel ≤ 3 ↔ pixel.toNat < 2 ^ 2 := by
    rw [UInt8.le_iff_toNat_le]
    exact Nat.lt_succ_iff.symm
  rw [hle]
  constructor
  · intro h i
    have hpow : 2 ^ 2 ≤ 2 ^ (i + 2) := Nat.pow_le_pow_right (by decide) (by omega)
    exact Nat.testBit_lt_two_pow (Nat.lt_of_lt_of_le h hpow)
  · intro h
    apply Nat.lt_pow_two_of_testBit
    intro i hi
    obtain ⟨k, rfl⟩ := Nat.exists_eq_add_of_le' hi
    exact h k

/-- Every decoded pixel is a color id. -/
theorem isColorRow_decode (high : HighPlane) (low : LowPlane) :
    (decode high low).IsColorRow := by
  intro pixel hpixel
  obtain ⟨position, hposition, rfl⟩ := Vector.mem_iff_getElem.1 hpixel
  rw [le_three_iff]
  intro i
  exact testBit_decode high low ⟨position, hposition⟩ (i + 2)

/-- A row of color ids is decoded from the planes that it is packed into. -/
theorem decode_pack {row : TileRow} (h : row.IsColorRow) :
    decode (packHigh row) (packLow row) = row := by
  apply Vector.ext
  intro position hposition
  apply UInt8.toNat_inj.1
  apply Nat.eq_of_testBit_eq
  intro i
  have hpixel := testBit_decode (packHigh row) (packLow row) ⟨position, hposition⟩ i
  rw [Fin.getElem_fin] at hpixel
  rw [hpixel]
  match i with
  | 0 => exact testBit_packLow row ⟨position, hposition⟩
  | 1 => exact testBit_packHigh row ⟨position, hposition⟩
  | i + 2 =>
    have hcolor : row[position] ≤ 3 := h _ (Vector.getElem_mem hposition)
    exact ((le_three_iff _).1 hcolor i).symm

/-! ## The table of all rows -/

/-- The table is generated, and a row is found at a place if and only if the place belongs to a
plane pair that the row is decoded from. -/
theorem getElem?_generated {row : TileRow} {i : Nat} :
    (rowsOf decode 256)[i]? = some row ↔ ∃ high low, i = index high low ∧ decode high low = row := by
  constructor
  · intro h
    have hi : i < pairCount := by
      have hlength := (List.getElem?_eq_some_iff.1 h).1
      rwa [length_rowsOf] at hlength
    obtain ⟨high, low, rfl⟩ := exists_index_eq hi
    rw [getElem?_rowsOf decode high.bits.toNat_lt, Option.some_inj] at h
    exact ⟨high, low, rfl, h⟩
  · rintro ⟨high, low, rfl, rfl⟩
    exact getElem?_rowsOf decode high.bits.toNat_lt low

/-- A row is found at the place of the planes that it is packed into, if it is there at all. -/
theorem getElem?_generated_iff {row : TileRow} {i : Nat} :
    (rowsOf decode 256)[i]? = some row
      ↔ row.IsColorRow ∧ i = index (packHigh row) (packLow row) := by
  rw [getElem?_generated]
  constructor
  · rintro ⟨high, low, rfl, rfl⟩
    rw [packHigh_decode, packLow_decode]
    exact ⟨isColorRow_decode high low, rfl⟩
  · rintro ⟨hcolor, rfl⟩
    exact ⟨packHigh row, packLow row, rfl, decode_pack hcolor⟩

/-- The table of all rows is a perfect code for rows of color ids. It has 65536 entries; a row is
in it if and only if each pixel is a color id, and then at one place only, that of the planes that
the row is packed into. A plane has, from its highest bit on, one bit of each pixel, and decoding
and packing undo each other. -/
theorem generate_perfectCode :
    ∃ rows, generate = .ok rows ∧ rows.size = 65536
      ∧ (∀ row : TileRow, row ∈ rows ↔ ∀ pixel ∈ row, pixel ≤ 3)
      ∧ (∀ row : TileRow, (∀ pixel ∈ row, pixel ≤ 3) → ∀ i,
        rows[i]? = some row ↔ i = index (packHigh row) (packLow row))
      ∧ (∀ (row : TileRow) (position : Fin width),
        (packHigh row).bits.toNat.testBit (7 - position) = row[position].toNat.testBit 1
          ∧ (packLow row).bits.toNat.testBit (7 - position) = row[position].toNat.testBit 0)
      ∧ (∀ high low, packHigh (decode high low) = high ∧ packLow (decode high low) = low)
      ∧ ∀ row : TileRow, (∀ pixel ∈ row, pixel ≤ 3) →
        decode (packHigh row) (packLow row) = row := by
  refine ⟨(rowsOf decode 256).toArray, enumerate_eq_ok decode, ?_, ?_, ?_, ?_, ?_, ?_⟩
  · rw [List.size_toArray, length_rowsOf]
  · intro row
    rw [List.mem_toArray, List.mem_iff_getElem?]
    constructor
    · rintro ⟨i, hi⟩
      exact (getElem?_generated_iff.1 hi).1
    · intro hcolor
      exact ⟨_, getElem?_generated_iff.2 ⟨hcolor, rfl⟩⟩
  · intro row hcolor i
    rw [List.getElem?_toArray, getElem?_generated_iff]
    exact and_iff_right hcolor
  · intro row position
    exact ⟨testBit_packHigh row position, testBit_packLow row position⟩
  · intro high low
    exact ⟨packHigh_decode high low, packLow_decode high low⟩
  · intro row hcolor
    exact decode_pack hcolor

/-- A row with all four color ids is at one place of the table. -/
theorem generate_perfectCode_fourColors :
    ∃ rows, generate = .ok rows
      ∧ (∀ i, rows[i]? = some #v[0, 1, 2, 3, 3, 2, 1, 0] ↔ i = index ⟨0b00111100⟩ ⟨0b01011010⟩)
      ∧ decode ⟨0b00111100⟩ ⟨0b01011010⟩ = #v[0, 1, 2, 3, 3, 2, 1, 0] := by
  have hcolor : ∀ pixel ∈ (#v[0, 1, 2, 3, 3, 2, 1, 0] : TileRow), pixel ≤ 3 := by
    intro pixel hpixel
    rw [Vector.mem_iff_getElem] at hpixel
    obtain ⟨i, hi, rfl⟩ := hpixel
    decide +revert
  have hhigh : packHigh #v[0, 1, 2, 3, 3, 2, 1, 0] = ⟨0b00111100⟩ := by decide
  have hlow : packLow #v[0, 1, 2, 3, 3, 2, 1, 0] = ⟨0b01011010⟩ := by decide
  obtain ⟨rows, hrows, -, -, hplace, -, -, hdecode⟩ := generate_perfectCode
  rw [← hhigh, ← hlow]
  exact ⟨rows, hrows, hplace _ hcolor, hdecode _ hcolor⟩

end TileRow

end PixelTables

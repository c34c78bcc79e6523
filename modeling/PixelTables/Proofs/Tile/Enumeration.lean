import PixelTables.Tile.Enumeration

/-!
# The enumeration of plane pairs never fails

Whatever the decoder is, each row of a table of rows lands at the index of its plane pair, and in
the end there is one row for each pair.

## Main Definitions

* `TileRow.rowsOfHigh`, `TileRow.rowsOf` — the rows of the pairs with one high plane, and of all
* `TileRow.rowAt` — the row of the plane pair of a place

## Main Statements

* `TileRow.index_inj`, `TileRow.exists_index_eq` — each place belongs to one plane pair
* `TileRow.getElem?_rowsOf` — the row of a plane pair is at the pair's place
* `TileRow.rowsOf_eq_map` — the rows of all pairs are in the order of their places
* `TileRow.appendHigh_eq_ok` — the rows of one high plane are added in order
* `TileRow.enumerate_eq_ok` — the table is the rows of all pairs in order
-/

namespace PixelTables

namespace TileRow

variable (decoder : Decoder)

/-- The rows of the first plane pairs with one high plane. -/
def rowsOfHigh (count : Nat) (high : HighPlane) : List TileRow :=
  (List.range count).map fun low => decoder high ⟨UInt8.ofNat low⟩

/-- The rows of the plane pairs with the first high planes. -/
def rowsOf (count : Nat) : List TileRow :=
  (List.range count).flatMap fun high => rowsOfHigh decoder 256 ⟨UInt8.ofNat high⟩

@[simp] theorem length_rowsOfHigh (count : Nat) (high : HighPlane) :
    (rowsOfHigh decoder count high).length = count := by
  rw [rowsOfHigh, List.length_map, List.length_range]

theorem rowsOfHigh_succ (count : Nat) (high : HighPlane) :
    rowsOfHigh decoder (count + 1) high
      = rowsOfHigh decoder count high ++ [decoder high ⟨UInt8.ofNat count⟩] := by
  rw [rowsOfHigh, rowsOfHigh, List.range_succ, List.map_append]
  rfl

theorem rowsOf_succ (count : Nat) :
    rowsOf decoder (count + 1)
      = rowsOf decoder count ++ rowsOfHigh decoder 256 ⟨UInt8.ofNat count⟩ := by
  rw [rowsOf, rowsOf, List.range_succ, List.flatMap_append, List.flatMap_singleton]

@[simp] theorem length_rowsOf (count : Nat) : (rowsOf decoder count).length = count * 256 := by
  induction count with
  | zero => rfl
  | succ count ih =>
    rw [rowsOf_succ, List.length_append, ih, length_rowsOfHigh]
    omega

/-! ## The place of a plane pair -/

theorem index_lt (high : HighPlane) (low : LowPlane) : index high low < pairCount := by
  have hhigh := high.bits.toNat_lt
  have hlow := low.bits.toNat_lt
  rw [index, pairCount]
  omega

theorem index_div (high : HighPlane) (low : LowPlane) :
    index high low / 256 = high.bits.toNat := by
  have hlow := low.bits.toNat_lt
  rw [index]
  omega

theorem index_mod (high : HighPlane) (low : LowPlane) :
    index high low % 256 = low.bits.toNat := by
  have hlow := low.bits.toNat_lt
  rw [index]
  omega

/-- A place belongs to one plane pair at most. -/
theorem index_inj {high high' : HighPlane} {low low' : LowPlane} :
    index high low = index high' low' ↔ high = high' ∧ low = low' := by
  constructor
  · intro h
    have hlow := low.bits.toNat_lt
    have hlow' := low'.bits.toNat_lt
    rw [index, index] at h
    obtain ⟨high⟩ := high
    obtain ⟨high'⟩ := high'
    obtain ⟨low⟩ := low
    obtain ⟨low'⟩ := low'
    dsimp only at h hlow hlow'
    have hbits : high.toNat = high'.toNat ∧ low.toNat = low'.toNat := by omega
    rw [UInt8.toNat_inj.1 hbits.1, UInt8.toNat_inj.1 hbits.2]
    exact ⟨rfl, rfl⟩
  · rintro ⟨rfl, rfl⟩
    rfl

/-- A place below the number of plane pairs belongs to one of them. -/
theorem exists_index_eq {i : Nat} (h : i < pairCount) : ∃ high low, index high low = i := by
  refine ⟨⟨UInt8.ofNat (i / 256)⟩, ⟨UInt8.ofNat (i % 256)⟩, ?_⟩
  have hhigh : i / 256 < 256 := Nat.div_lt_of_lt_mul h
  have hlow : i % 256 < 256 := Nat.mod_lt i (by decide)
  rw [index, UInt8.toNat_ofNat_of_lt' hhigh, UInt8.toNat_ofNat_of_lt' hlow]
  omega

/-- The row of a plane pair is at the pair's place. -/
theorem getElem?_rowsOf {count : Nat} {high : HighPlane} (hhigh : high.bits.toNat < count)
    (low : LowPlane) : (rowsOf decoder count)[index high low]? = some (decoder high low) := by
  have hlow := low.bits.toNat_lt
  induction count with
  | zero => exact absurd hhigh (Nat.not_lt_zero _)
  | succ count ih =>
    rw [rowsOf_succ]
    by_cases hbefore : high.bits.toNat < count
    · have hplace : index high low < (rowsOf decoder count).length := by
        rw [length_rowsOf, index]
        omega
      rw [List.getElem?_append_left hplace, ih hbefore]
    · -- These are the rows with this high plane.
      have hcount : count = high.bits.toNat := by omega
      have hplace : (rowsOf decoder count).length ≤ index high low := by
        rw [length_rowsOf, index]
        omega
      have hrest : index high low - (rowsOf decoder count).length = low.bits.toNat := by
        rw [length_rowsOf, index, hcount]
        omega
      rw [List.getElem?_append_right hplace, hrest, rowsOfHigh, List.getElem?_map,
        List.getElem?_range hlow, Option.map_some, hcount, UInt8.ofNat_toNat, UInt8.ofNat_toNat]

/-- The row that the decoder gives for the plane pair of a place. -/
def rowAt (i : Nat) : TileRow :=
  decoder ⟨UInt8.ofNat (i / 256)⟩ ⟨UInt8.ofNat (i % 256)⟩

theorem rowAt_index (high : HighPlane) (low : LowPlane) :
    rowAt decoder (index high low) = decoder high low := by
  rw [rowAt, index_div, index_mod, UInt8.ofNat_toNat, UInt8.ofNat_toNat]

/-- The rows of all plane pairs are the rows of all places in order. -/
theorem rowsOf_eq_map : rowsOf decoder 256 = (List.range pairCount).map (rowAt decoder) := by
  apply List.ext_getElem?
  intro i
  by_cases hi : i < pairCount
  · rw [List.getElem?_map, List.getElem?_range hi, Option.map_some]
    obtain ⟨high, low, rfl⟩ := exists_index_eq hi
    rw [getElem?_rowsOf decoder high.bits.toNat_lt, rowAt_index]
  · have hend := Nat.le_of_not_lt hi
    rw [List.getElem?_eq_none, List.getElem?_eq_none]
    · rwa [List.length_map, List.length_range]
    · rwa [length_rowsOf]

/-! ## The enumeration -/

/-- The rows of the first pairs with a high plane are added in order. The induction is on their
number: the size of the table is the index of the next pair. -/
theorem appendPairs_eq_ok {high : HighPlane} {rows : Array TileRow}
    (h : rows.size = high.bits.toNat * 256) {count : Nat} (hcount : count ≤ 256) :
    ((List.range count).map UInt8.ofNat).foldlM
        (fun rows low => appendPair decoder high rows ⟨low⟩) rows
      = .ok (rows ++ (rowsOfHigh decoder count high).toArray) := by
  induction count with
  | zero => simp [rowsOfHigh, pure, Except.pure]
  | succ count ih =>
    -- This is what is checked before the next row is added.
    have hsize : (rows ++ (rowsOfHigh decoder count high).toArray).size
        = index high ⟨UInt8.ofNat count⟩ := by
      have hlength : (rowsOfHigh decoder count high).toArray.size = count := by simp
      rw [Array.size_append, hlength, index, h, UInt8.toNat_ofNat_of_lt' hcount]
    rw [List.range_succ, List.map_append, List.foldlM_append, ih (Nat.le_of_succ_le hcount)]
    simp only [bind, Except.bind, List.map_cons, List.map_nil, List.foldlM_cons, List.foldlM_nil]
    rw [appendPair, if_pos hsize, rowsOfHigh_succ]
    simp [pure, Except.pure]

/-- The rows of one high plane are added in order. -/
theorem appendHigh_eq_ok {high : HighPlane} {rows : Array TileRow}
    (h : rows.size = high.bits.toNat * 256) :
    appendHigh decoder rows high = .ok (rows ++ (rowsOfHigh decoder 256 high).toArray) :=
  appendPairs_eq_ok decoder h (Nat.le_refl 256)

/-- The rows of the first high planes are added in order. -/
theorem appendHighs_eq_ok {count : Nat} (hcount : count ≤ 256) :
    ((List.range count).map UInt8.ofNat).foldlM
        (fun rows high => appendHigh decoder rows ⟨high⟩) #[]
      = .ok (rowsOf decoder count).toArray := by
  induction count with
  | zero => rfl
  | succ count ih =>
    have hsize : (rowsOf decoder count).toArray.size
        = (⟨UInt8.ofNat count⟩ : HighPlane).bits.toNat * 256 := by
      rw [List.size_toArray, length_rowsOf, UInt8.toNat_ofNat_of_lt' hcount]
    rw [List.range_succ, List.map_append, List.foldlM_append, ih (Nat.le_of_succ_le hcount)]
    simp only [bind, Except.bind, List.map_cons, List.map_nil, List.foldlM_cons, List.foldlM_nil]
    rw [appendHigh_eq_ok decoder hsize, rowsOf_succ]
    simp [pure, Except.pure]

/-- Rows that are as many as the plane pairs pass the last check. -/
theorem enumerate_of_size_eq {rows : Array TileRow}
    (h : allBytes.foldlM (fun rows high => appendHigh decoder rows ⟨high⟩) #[] = .ok rows)
    (hsize : rows.size = pairCount) : enumerate decoder = .ok rows := by
  rw [enumerate, h]
  simp only [bind, Except.bind]
  rw [if_pos hsize]
  rfl

/-- The table of a decoder is the rows of all plane pairs in order. -/
theorem enumerate_eq_ok : enumerate decoder = .ok (rowsOf decoder 256).toArray := by
  apply enumerate_of_size_eq
  · exact appendHighs_eq_ok decoder (Nat.le_refl 256)
  · rw [List.size_toArray, length_rowsOf, pairCount]

end TileRow

end PixelTables

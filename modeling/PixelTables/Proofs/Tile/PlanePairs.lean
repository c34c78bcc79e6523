import Mathlib.Data.List.Nodup
import PixelTables.Proofs.Tile.Enumeration

/-!
# Plane pairs in order

The place of a plane pair in a table is its two bytes side by side, so places are in the
lexicographic order of the pairs, the high plane first. Whatever the decoder is, a table of rows
lists the rows of all plane pairs in this order.

## Main Definitions

* `TileRow.PlanePair`, `TileRow.PlanePair.Before` — plane pairs and their lexicographic order
* `TileRow.planePairs` — all plane pairs, high plane by high plane

## Main Statements

* `TileRow.index_lt_index_iff` — places are in the order of their plane pairs
* `TileRow.map_index_planePairs` — the places of all plane pairs are the numbers from 0 on
* `TileRow.rowsOf_eq_map_planePairs` — the rows of all plane pairs, in the order of the pairs
* `TileRow.enumerate_listsPairs` — the table of any decoder
-/

namespace PixelTables

namespace TileRow

/-- The two planes of a row. -/
abbrev PlanePair := HighPlane × LowPlane

/-- The pair comes before the other one: its high plane is below the other's, or both have one high
plane and its low plane is below the other's. -/
def PlanePair.Before (pair other : PlanePair) : Prop :=
  pair.1 < other.1 ∨ pair.1 = other.1 ∧ pair.2 < other.2

/-- The pairs of one high plane with each low plane. -/
def pairsOfHigh (high : HighPlane) : List PlanePair :=
  (List.range 256).map fun low => (high, ⟨UInt8.ofNat low⟩)

/-- The pairs of the first high planes, high plane by high plane. -/
def pairsOf (count : Nat) : List PlanePair :=
  (List.range count).flatMap fun high => pairsOfHigh ⟨UInt8.ofNat high⟩

/-- All plane pairs, high plane by high plane. -/
def planePairs : List PlanePair := pairsOf 256

/-! ## The order of the places -/

/-- The place of a plane pair has the high plane in its upper eight bits and the low plane in its
lower ones. -/
theorem index_eq_shiftLeft_or (high : HighPlane) (low : LowPlane) :
    index high low = high.bits.toNat <<< 8 ||| low.bits.toNat := by
  rw [index, ← Nat.shiftLeft_add_eq_or_of_lt low.bits.toNat_lt, Nat.shiftLeft_eq]

/-- Places are in the order of their plane pairs. -/
theorem index_lt_index_iff {high high' : HighPlane} {low low' : LowPlane} :
    index high low < index high' low' ↔ PlanePair.Before (high, low) (high', low') := by
  have hlow := low.bits.toNat_lt
  have hlow' := low'.bits.toNat_lt
  have hhigh : high = high' ↔ high.bits.toNat = high'.bits.toNat := by
    rw [UInt8.toNat_inj]
    exact ⟨congrArg HighPlane.bits, fun hbits => by cases high; cases high'; cases hbits; rfl⟩
  change _ ↔ high.bits < high'.bits ∨ high = high' ∧ low.bits < low'.bits
  rw [UInt8.lt_iff_toNat_lt, UInt8.lt_iff_toNat_lt, hhigh, index, index]
  omega

/-! ## All plane pairs -/

theorem pairsOf_succ (count : Nat) :
    pairsOf (count + 1) = pairsOf count ++ pairsOfHigh ⟨UInt8.ofNat count⟩ := by
  rw [pairsOf, pairsOf, List.range_succ, List.flatMap_append, List.flatMap_singleton]

theorem mem_planePairs (pair : PlanePair) : pair ∈ planePairs := by
  obtain ⟨high, low⟩ := pair
  refine List.mem_flatMap.2 ⟨high.bits.toNat, List.mem_range.2 high.bits.toNat_lt, ?_⟩
  refine List.mem_map.2 ⟨low.bits.toNat, List.mem_range.2 low.bits.toNat_lt, ?_⟩
  rw [UInt8.ofNat_toNat, UInt8.ofNat_toNat]

/-- The places of the pairs with one high plane are 256 numbers in a row. -/
theorem map_index_pairsOfHigh (high : HighPlane) :
    (pairsOfHigh high).map (fun pair => index pair.1 pair.2)
      = (List.range 256).map (high.bits.toNat * 256 + ·) := by
  rw [pairsOfHigh, List.map_map]
  apply List.map_congr_left
  intro low hlow
  change high.bits.toNat * 256 + (UInt8.ofNat low).toNat = _
  rw [UInt8.toNat_ofNat_of_lt' (List.mem_range.1 hlow)]

/-- The places of the pairs with the first high planes are the first numbers. -/
theorem map_index_pairsOf {count : Nat} (hcount : count ≤ 256) :
    (pairsOf count).map (fun pair => index pair.1 pair.2) = List.range (count * 256) := by
  induction count with
  | zero => rfl
  | succ count ih =>
    rw [pairsOf_succ, List.map_append, ih (Nat.le_of_succ_le hcount), map_index_pairsOfHigh,
      UInt8.toNat_ofNat_of_lt' hcount, Nat.succ_mul, List.range_add]

/-- The places of all plane pairs are the numbers from 0 on. -/
theorem map_index_planePairs :
    planePairs.map (fun pair => index pair.1 pair.2) = List.range pairCount :=
  map_index_pairsOf (Nat.le_refl 256)

/-- Each plane pair is listed before those that come after it. -/
theorem pairwise_planePairs : planePairs.Pairwise PlanePair.Before := by
  have hplaces : (planePairs.map fun pair => index pair.1 pair.2).Pairwise (· < ·) := by
    rw [map_index_planePairs]
    exact List.pairwise_lt_range
  rw [List.pairwise_map] at hplaces
  exact hplaces.imp index_lt_index_iff.1

/-- Each plane pair is listed once. -/
theorem count_planePairs (pair : PlanePair) : planePairs.count pair = 1 := by
  refine List.count_eq_one_of_mem ?_ (mem_planePairs pair)
  refine pairwise_planePairs.imp ?_
  rintro a b hbefore rfl
  exact Nat.lt_irrefl _ (index_lt_index_iff.2 hbefore)

/-! ## The table of a decoder -/

/-- The rows of all plane pairs are what the decoder gives for them, in the order of the pairs. -/
theorem rowsOf_eq_map_planePairs (decoder : Decoder) :
    rowsOf decoder 256 = planePairs.map fun pair => decoder pair.1 pair.2 := by
  rw [planePairs, pairsOf, List.map_flatMap, rowsOf]
  simp only [rowsOfHigh, pairsOfHigh, List.map_map, Function.comp_def]

/-- The enumeration of plane pairs is complete and in order, whatever the decoder is. None of its
checks fails, and the table has 65536 rows, at the place of each plane pair the row that the decoder
gives for it; so it is what the decoder gives for all plane pairs, each once, in the order of the
pairs. The place of a pair is its two bytes side by side: places are in the lexicographic order of
the pairs, and each number below 65536 is the place of one pair. -/
theorem enumerate_listsPairs :
    (∀ decoder : Decoder, ∃ rows, enumerate decoder = .ok rows ∧ rows.size = 65536
      ∧ (∀ high low, rows[index high low]? = some (decoder high low))
      ∧ rows.toList = planePairs.map fun pair => decoder pair.1 pair.2)
    ∧ (∀ pair, planePairs.count pair = 1)
    ∧ planePairs.map (fun pair => index pair.1 pair.2) = List.range 65536
    ∧ (∀ high low, index high low = high.bits.toNat <<< 8 ||| low.bits.toNat)
    ∧ (∀ (high high' : HighPlane) (low low' : LowPlane),
      index high low < index high' low' ↔ high < high' ∨ high = high' ∧ low < low')
    ∧ ∀ i : Fin 65536, ∃! pair : PlanePair, index pair.1 pair.2 = i := by
  refine ⟨?_, count_planePairs, map_index_planePairs, index_eq_shiftLeft_or,
    fun high high' low low' => index_lt_index_iff, ?_⟩
  · intro decoder
    refine ⟨(rowsOf decoder 256).toArray, enumerate_eq_ok decoder, ?_, ?_, ?_⟩
    · rw [List.size_toArray, length_rowsOf]
    · intro high low
      rw [List.getElem?_toArray]
      exact getElem?_rowsOf decoder high.bits.toNat_lt low
    · exact rowsOf_eq_map_planePairs decoder
  · intro i
    obtain ⟨high, low, hplace⟩ := exists_index_eq i.isLt
    refine ⟨(high, low), hplace, ?_⟩
    rintro ⟨high', low'⟩ hother
    obtain ⟨rfl, rfl⟩ := index_inj.1 (hother.trans hplace.symm)
    rfl

end TileRow

end PixelTables

import Mathlib.Data.List.Perm.Basic
import Mathlib.Data.List.Nodup
import PixelTables.Proofs.Tile.Packing

/-!
# Flipped rows

A row is flipped by reading both of its planes from their other ends. So the table of all rows
flipped is the table of all rows with its places exchanged, two at a time.

## Main Statements

* `testBit_reverseBits` — the bits of a byte read from its other end
* `TileRow.decode_reverseBits` — the row of planes that are read from their other ends
* `TileRow.flipIndex_index`, `TileRow.flipIndex_flipIndex` — where a flipped row is
* `TileRow.perm_map_range` — numbers that are exchanged two at a time
* `TileRow.generateFlipped_exchangesPlaces` — the two tables
-/

namespace PixelTables

/-! ## A byte read from its other end -/

theorem testBit_reverseBits (byte : UInt8) {i : Nat} (hi : i < 8) :
    (reverseBits byte).toNat.testBit i = byte.toNat.testBit (7 - i) := by
  have hsource : (List.range 8).reverse[i]? = some (7 - i) := by
    rw [List.getElem?_reverse (by simpa using hi), List.length_range]
    exact List.getElem?_range (by omega)
  rw [reverseBits, testBit_foldl_shiftIn (fun bit => byte >>> UInt8.ofNat bit) _ hi, hsource]
  exact testBit_shiftRight_zero byte (by omega)

theorem reverseBits_reverseBits (byte : UInt8) : reverseBits (reverseBits byte) = byte := by
  apply eq_of_testBit_eq
  intro i hi
  have hback : 7 - (7 - i) = i := by omega
  rw [testBit_reverseBits _ hi, testBit_reverseBits _ (by omega), hback]

namespace TileRow

/-! ## A row read from its other end -/

theorem get_decodeFlipped (high : HighPlane) (low : LowPlane) (position : Fin width) :
    (decodeFlipped high low).get position = (decode high low).get position.rev := by
  have hplace : width - 1 - position.val = position.rev.val := by
    rw [Fin.val_rev, Nat.add_comm, Nat.sub_sub]
  change (decodeFlipped high low)[position] = (decode high low)[position.rev]
  rw [decodeFlipped, Fin.getElem_fin, Fin.getElem_fin, Vector.getElem_reverse]
  simp only [hplace]

/-- A row is flipped by reading its planes from their other ends. -/
theorem decode_reverseBits (high : HighPlane) (low : LowPlane) :
    decode ⟨reverseBits high.bits⟩ ⟨reverseBits low.bits⟩ = decodeFlipped high low := by
  apply Vector.ext
  intro place hplace
  apply UInt8.toNat_inj.1
  apply Nat.eq_of_testBit_eq
  intro i
  let position : Fin width := ⟨place, hplace⟩
  have hrev : position.rev.val = 7 - place := by
    rw [Fin.val_rev]
    exact Nat.add_sub_add_right 7 1 place
  have hpixel : (decodeFlipped high low)[place] = (decode high low)[position.rev] :=
    get_decodeFlipped high low position
  have hplain := testBit_decode ⟨reverseBits high.bits⟩ ⟨reverseBits low.bits⟩ position i
  have hflipped := testBit_decode high low position.rev i
  rw [Fin.getElem_fin] at hplain
  rw [← hpixel, hrev] at hflipped
  rw [hplain, hflipped]
  rcases i with _ | _ | i
  · exact testBit_reverseBits low.bits (by omega)
  · exact testBit_reverseBits high.bits (by omega)
  · rfl

/-! ## The place of a flipped row -/

theorem flipIndex_index (high : HighPlane) (low : LowPlane) :
    flipIndex (index high low) = index ⟨reverseBits high.bits⟩ ⟨reverseBits low.bits⟩ := by
  rw [flipIndex, index_div, index_mod, UInt8.ofNat_toNat, UInt8.ofNat_toNat]

theorem flipIndex_lt (i : Nat) : flipIndex i < pairCount := index_lt _ _

/-- The place of the flipped row of a flipped row is that of the row. -/
theorem flipIndex_flipIndex {i : Nat} (h : i < pairCount) : flipIndex (flipIndex i) = i := by
  obtain ⟨high, low, rfl⟩ := exists_index_eq h
  rw [flipIndex_index, flipIndex_index, reverseBits_reverseBits, reverseBits_reverseBits]

/-! ## The two tables -/

/-- The row at a place of the flipped table is that at the exchanged place of the plain one. -/
theorem rowAt_flipIndex {i : Nat} (h : i < pairCount) :
    rowAt decode (flipIndex i) = rowAt decodeFlipped i := by
  obtain ⟨high, low, rfl⟩ := exists_index_eq h
  rw [flipIndex_index, rowAt_index, rowAt_index, decode_reverseBits]

/-- Numbers that are exchanged two at a time are the same numbers in another order. -/
theorem perm_map_range {n : Nat} {exchange : Nat → Nat} (hlt : ∀ i < n, exchange i < n)
    (hback : ∀ i < n, exchange (exchange i) = i) :
    ((List.range n).map exchange).Perm (List.range n) := by
  have hnodup : ((List.range n).map exchange).Nodup := by
    refine List.Nodup.map_on ?_ List.nodup_range
    intro i hi j hj h
    rw [← hback i (List.mem_range.1 hi), h, hback j (List.mem_range.1 hj)]
  rw [List.perm_ext_iff_of_nodup hnodup List.nodup_range]
  intro i
  simp only [List.mem_map, List.mem_range]
  constructor
  · rintro ⟨j, hj, rfl⟩
    exact hlt j hj
  · intro hi
    exact ⟨exchange i, hlt i hi, hback i hi⟩

/-- The two tables hold the same rows in different orders. -/
theorem rowsOf_decodeFlipped_perm : (rowsOf decodeFlipped 256).Perm (rowsOf decode 256) := by
  have hexchange : (List.range pairCount).map (rowAt decodeFlipped)
      = ((List.range pairCount).map flipIndex).map (rowAt decode) := by
    rw [List.map_map]
    apply List.map_congr_left
    intro i hi
    exact (rowAt_flipIndex (List.mem_range.1 hi)).symm
  rw [rowsOf_eq_map, rowsOf_eq_map, hexchange]
  exact (perm_map_range (fun i _ => flipIndex_lt i) fun _ => flipIndex_flipIndex).map _

theorem getElem?_rowsOf_flipIndex {i : Nat} (h : i < pairCount) :
    (rowsOf decodeFlipped 256)[i]? = (rowsOf decode 256)[flipIndex i]? := by
  rw [rowsOf_eq_map, rowsOf_eq_map, List.getElem?_map, List.getElem?_map,
    List.getElem?_range h, List.getElem?_range (flipIndex_lt i), Option.map_some,
    Option.map_some, rowAt_flipIndex h]

/-- Flipping exchanges the places of the table. A flipped row is the row read from its other end,
and it is decoded from the planes read from their other ends; a byte read so has its eight bits in
the opposite order. So a place of the flipped table holds the row at the exchanged place of the
plain one, and the other way round; exchanging twice leads back; and each row is as often in the one
table as in the other. -/
theorem generateFlipped_exchangesPlaces :
    ∃ plain flipped, generate = .ok plain ∧ generateFlipped = .ok flipped
      ∧ plain.size = 65536 ∧ flipped.size = 65536
      ∧ (∀ (byte : UInt8) (i : Nat), i < 8 →
        (reverseBits byte).toNat.testBit i = byte.toNat.testBit (7 - i))
      ∧ (∀ high low, decodeFlipped high low = (decode high low).reverse
        ∧ (∀ position : Fin width,
          (decodeFlipped high low).get position = (decode high low).get position.rev)
        ∧ decodeFlipped high low = decode ⟨reverseBits high.bits⟩ ⟨reverseBits low.bits⟩
        ∧ flipIndex (index high low) = index ⟨reverseBits high.bits⟩ ⟨reverseBits low.bits⟩)
      ∧ (∀ i < 65536, flipIndex i < 65536 ∧ flipIndex (flipIndex i) = i
        ∧ flipped[i]? = plain[flipIndex i]? ∧ flipped[flipIndex i]? = plain[i]?)
      ∧ flipped.Perm plain ∧ ∀ row, flipped.count row = plain.count row := by
  have hperm := rowsOf_decodeFlipped_perm
  refine ⟨(rowsOf decode 256).toArray, (rowsOf decodeFlipped 256).toArray, enumerate_eq_ok decode,
    enumerate_eq_ok decodeFlipped, ?_, ?_, ?_, ?_, ?_, hperm.toArray, ?_⟩
  · rw [List.size_toArray, length_rowsOf]
  · rw [List.size_toArray, length_rowsOf]
  · intro byte i hi
    exact testBit_reverseBits byte hi
  · intro high low
    exact ⟨rfl, get_decodeFlipped high low, (decode_reverseBits high low).symm,
      flipIndex_index high low⟩
  · intro i hi
    have hback := flipIndex_flipIndex hi
    have hflipped := getElem?_rowsOf_flipIndex (flipIndex_lt i)
    rw [hback] at hflipped
    refine ⟨flipIndex_lt i, hback, ?_, ?_⟩
    · rw [List.getElem?_toArray, List.getElem?_toArray, getElem?_rowsOf_flipIndex hi]
    · rw [List.getElem?_toArray, List.getElem?_toArray, hflipped]
  · intro row
    rw [List.count_toArray, List.count_toArray, hperm.count_eq]

/-- The rows of two plane pairs, each the other one read from its other end, are exchanged. -/
theorem generateFlipped_exchangesPlaces_edges :
    ∃ plain flipped, generate = .ok plain ∧ generateFlipped = .ok flipped
      ∧ reverseBits 0b10000000 = 1 ∧ reverseBits 0b01000000 = 2
      ∧ flipped[index ⟨0b10000000⟩ ⟨0b01000000⟩]? = plain[index ⟨1⟩ ⟨2⟩]?
      ∧ flipped[index ⟨1⟩ ⟨2⟩]? = plain[index ⟨0b10000000⟩ ⟨0b01000000⟩]? := by
  obtain ⟨plain, flipped, hplain, hflipped, -, -, -, -, hplaces, -⟩ :=
    generateFlipped_exchangesPlaces
  have hindex : flipIndex (index ⟨0b10000000⟩ ⟨0b01000000⟩) = index ⟨1⟩ ⟨2⟩ := by decide
  obtain ⟨-, -, hthere, hback⟩ := hplaces (index ⟨0b10000000⟩ ⟨0b01000000⟩) (by decide)
  rw [hindex] at hthere hback
  exact ⟨plain, flipped, hplain, hflipped, by decide, by decide, hthere, hback⟩

end TileRow

end PixelTables

import PixelTables.Embedded
import PixelTables.Proofs.Catalogue.Generation
import PixelTables.Proofs.Source.Injectivity

/-!
# Look-ups agree with computation

The file of the embedded tables is read back as the tables that were generated. So a look-up in one
of them gives what the decoder, or the conversion of colors, computes, and no look-up lies outside
its table.

## Main Definitions

* `Embedded.generated` — the tables that are generated
* `Embedded.Declares` — a text that begins with the declaration of an array

## Main Statements

* `Embedded.source_eq_ok` — the file is generated
* `Embedded.ofSource?_emitSeries` — tables are read back from their file, whatever they hold
* `Embedded.decode_generated`, `Embedded.decodeFlipped_generated`, `Embedded.convert_generated` —
  single look-ups
* `Embedded.lookUps_agree` — the file, the tables and all sequences of look-ups
-/

namespace PixelTables

namespace Palette

/-- The word of a color is at the place of the color's own word. -/
theorem getElem?_words {n : Nat} (h : n < size) :
    words[n]? = some (converted (UInt16.ofNat n)) := by
  rw [words, List.getElem?_map, List.getElem?_range h, Option.map_some]

/-- A palette word is converted as the word with bit 15 cleared. -/
theorem converted_and_maxRaw (pixel : UInt16) :
    converted (pixel &&& CgbColor.maxRaw) = converted pixel := by
  have hcolor : CgbColor.ofPixel (pixel &&& CgbColor.maxRaw) = CgbColor.ofPixel pixel := by
    rw [CgbColor.ofPixel, CgbColor.ofPixel, CgbColor.mk.injEq, UInt16.and_assoc, UInt16.and_self]
  rw [converted, converted, hcolor]

end Palette

namespace Table

/-- The text of a Rust item is its declaration and then its array. -/
theorem text_rust (table : Table) :
    table.text .rust = table.entries.declaration table.name .rust ++ "["
      ++ table.entries.arrayText .rust := by
  have hbefore : table.linesBefore .rust = [] := rfl
  have hafter : table.linesAfter .rust = [] := rfl
  rw [text_eq_joinLines, joinLines_arrayLines, hbefore, hafter, joinLines_nil,
    String.empty_append, String.append_empty]
  rfl

end Table

namespace Embedded

/-! ## The file -/

/-- The tables that are generated. -/
def generated : Embedded where
  rows := (TileRow.rowsOf TileRow.decode 256).toArray
  flipped := (TileRow.rowsOf TileRow.decodeFlipped 256).toArray
  palette := Palette.words.toArray

/-- The file is generated. -/
theorem source_eq_ok :
    source = .ok (Table.emitSeries
      (series generated.rows generated.flipped generated.palette)).bytes := by
  rw [source, TileRow.generate, TileRow.generateFlipped, TileRow.enumerate_eq_ok,
    TileRow.enumerate_eq_ok, Palette.generate_eq_ok]
  rfl

/-- The tables in the file are those of the catalogue. -/
theorem series_generated :
    series generated.rows generated.flipped generated.palette
      = [(Kind.tileRows.generatedTable, .rust), (Kind.tileRowsFlipped.generatedTable, .rust),
        (Kind.cgbPalette.generatedTable, .rust)] := by
  simp only [series, generated, List.toList_toArray, Kind.generatedTable, Kind.contents,
    Kind.constName]

theorem hasPlainName_constName (kind : Kind) (entries : Entries) :
    Table.HasPlainName ⟨kind.constName, entries⟩ := by
  have hname : '\n' ∉ kind.constName.toList := by cases kind <;> decide
  exact hname

/-- Tables are read back from their file, whatever they hold. -/
theorem ofSource?_emitSeries (tables : Embedded) :
    ofSource? (Table.emitSeries (series tables.rows tables.flipped tables.palette)).bytes
      = some tables := by
  obtain ⟨rows, flipped, palette⟩ := tables
  have hplain : ∀ entry ∈ series rows flipped palette, entry.1.HasPlainName := by
    intro entry hentry
    simp only [series, List.mem_cons, List.not_mem_nil, or_false] at hentry
    rcases hentry with rfl | rfl | rfl
    · exact hasPlainName_constName .tileRows _
    · exact hasPlainName_constName .tileRowsFlipped _
    · exact hasPlainName_constName .cgbPalette _
  have hread := Reader.readSeries_seriesText _ _ hplain
  rw [ofSource?, Table.emitSeries_bytes, Utf8.decodeLossy_toUTF8, series, hread]
  rfl

/-- The text begins with the declaration of an array with a number of entries. -/
def Declares (text name type : String) (count : Nat) : Prop :=
  ∃ rest, text = "pub static " ++ name ++ ": [" ++ type ++ "; " ++ Nat.repr count ++ "] = ["
    ++ rest

theorem declares_of_declaration {table : Table} {type : String} {count : Nat}
    (h : table.entries.declaration table.name .rust
      = "pub static " ++ table.name ++ ": [" ++ type ++ "; " ++ Nat.repr count ++ "] = ") :
    Declares (table.text .rust) table.name type count := by
  have hopening : "] = [" = "] = " ++ "[" := rfl
  refine ⟨table.entries.arrayText .rust, ?_⟩
  rw [Table.text_rust, h, hopening]
  simp only [String.append_assoc]

/-- The text of each table declares as many entries as the table has. -/
theorem declares_generatedTable :
    Declares (Kind.tileRows.generatedTable.text .rust) Kind.tileRows.constName "[u8; 8]"
        generated.rows.size
      ∧ Declares (Kind.tileRowsFlipped.generatedTable.text .rust) Kind.tileRowsFlipped.constName
        "[u8; 8]" generated.flipped.size
      ∧ Declares (Kind.cgbPalette.generatedTable.text .rust) Kind.cgbPalette.constName "u16"
        generated.palette.size := by
  rw [generated, List.size_toArray, List.size_toArray, List.size_toArray]
  refine ⟨declares_of_declaration ?_, declares_of_declaration ?_, declares_of_declaration ?_⟩
  · exact Entries.declaration_rows _ _ .rust
  · exact Entries.declaration_rows _ _ .rust
  · exact Entries.declaration_words _ _ .rust

theorem size_generated :
    generated.rows.size = 65536 ∧ generated.flipped.size = 65536
      ∧ generated.palette.size = 32768 := by
  rw [generated, List.size_toArray, List.size_toArray, List.size_toArray,
    TileRow.length_rowsOf, TileRow.length_rowsOf, Palette.length_words]
  exact ⟨rfl, rfl, rfl⟩

/-! ## Single look-ups -/

theorem lookUp_eq_ok {α : Type} {table : Array α} {index : Nat} {entry : α}
    (h : table[index]? = some entry) : lookUp table index = .ok entry := by
  rw [lookUp, h]

/-- In a table of rows of any decoder, the row of a plane pair is the one that is decoded. -/
theorem lookUp_rowsOf (decoder : TileRow.Decoder) (high : HighPlane) (low : LowPlane) :
    lookUp (TileRow.rowsOf decoder 256).toArray (TileRow.index high low)
      = .ok (decoder high low) := by
  apply lookUp_eq_ok
  rw [List.getElem?_toArray]
  exact TileRow.getElem?_rowsOf decoder high.bits.toNat_lt low

theorem decode_generated (high : HighPlane) (low : LowPlane) :
    generated.decode high low = .ok (TileRow.decode high low) :=
  lookUp_rowsOf TileRow.decode high low

theorem decodeFlipped_generated (high : HighPlane) (low : LowPlane) :
    generated.decodeFlipped high low = .ok (TileRow.decodeFlipped high low) :=
  lookUp_rowsOf TileRow.decodeFlipped high low

/-- The word that is found is the one that is computed, whether or not bit 15 is set. -/
theorem convert_generated (pixel : UInt16) :
    generated.convert pixel = .ok (Palette.converted pixel) := by
  apply lookUp_eq_ok
  have hplace : (pixel &&& 0x7FFF).toNat < Palette.size := by
    have hle := UInt16.le_iff_toNat_le.1 (CgbColor.and_maxRaw_le pixel)
    exact Nat.lt_succ_of_le hle
  rw [generated, List.getElem?_toArray, Palette.getElem?_words hplace, UInt16.ofNat_toNat]
  exact congrArg some (Palette.converted_and_maxRaw pixel)

/-! ## The file, the tables and all look-ups -/

/-- Computations that all succeed give the list of their results. -/
theorem mapM_eq_ok {ε α β : Type} {f : α → Except ε β} {g : α → β} (h : ∀ x, f x = .ok (g x))
    (xs : List α) : xs.mapM f = .ok (xs.map g) := by
  have hpure : f = fun x => pure (g x) := by
    funext x
    exact h x
  rw [hpure, List.mapM_pure]
  rfl

/-- The file of the embedded tables is generated without a broken rule. It is made up of the three
tables as they are rendered, with an empty line between each two, and the arrays read back from it
have as many entries as are declared. Look-ups in them give, one by one, what is computed: the rows
of plane pairs, plain and flipped, and the words of palette words with bit 15 set or not. -/
theorem lookUps_agree :
    ∃ (bytes : ByteArray) (rows flipped palette : String) (tables : Embedded),
      source = .ok bytes
      ∧ (Kind.tileRows.render .rust).1 = .ok rows
      ∧ (Kind.tileRowsFlipped.render .rust).1 = .ok flipped
      ∧ (Kind.cgbPalette.render .rust).1 = .ok palette
      ∧ bytes = (rows ++ "\n" ++ flipped ++ "\n" ++ palette).toUTF8
      ∧ ofSource? bytes = some tables
      ∧ (Declares rows "TILE_ROW_DATA_TO_ROW_PIXELS" "[u8; 8]" tables.rows.size
        ∧ tables.rows.size = 65536)
      ∧ (Declares flipped "TILE_ROW_DATA_TO_ROW_PIXELS_FLIPPED" "[u8; 8]" tables.flipped.size
        ∧ tables.flipped.size = 65536)
      ∧ (Declares palette "CGB_PALETTE_RGB565" "u16" tables.palette.size
        ∧ tables.palette.size = 32768)
      ∧ (∀ pairs : List (HighPlane × LowPlane),
        pairs.mapM (fun pair => tables.decode pair.1 pair.2)
          = .ok (pairs.map fun pair => TileRow.decode pair.1 pair.2))
      ∧ (∀ pairs : List (HighPlane × LowPlane),
        pairs.mapM (fun pair => tables.decodeFlipped pair.1 pair.2)
          = .ok (pairs.map fun pair => TileRow.decodeFlipped pair.1 pair.2))
      ∧ ∀ pixels : List UInt16, ∃ words,
        pixels.mapM Palette.convert = .ok words ∧ pixels.mapM tables.convert = .ok words := by
  obtain ⟨hrows, hflipped, hpalette⟩ := declares_generatedTable
  obtain ⟨hrowsSize, hflippedSize, hpaletteSize⟩ := size_generated
  refine ⟨_, Kind.tileRows.generatedTable.text .rust, Kind.tileRowsFlipped.generatedTable.text .rust,
    Kind.cgbPalette.generatedTable.text .rust, generated, source_eq_ok, ?_, ?_, ?_, ?_,
    ofSource?_emitSeries generated, ⟨hrows, hrowsSize⟩, ⟨hflipped, hflippedSize⟩,
    ⟨hpalette, hpaletteSize⟩, ?_, ?_, ?_⟩
  · rw [Kind.render_eq]
  · rw [Kind.render_eq]
  · rw [Kind.render_eq]
  · rw [series_generated, Table.emitSeries_bytes]
    simp only [Table.seriesText, Table.followingText, String.append_assoc, String.append_empty]
  · exact mapM_eq_ok fun pair => decode_generated pair.1 pair.2
  · exact mapM_eq_ok fun pair => decodeFlipped_generated pair.1 pair.2
  · intro pixels
    exact ⟨_, mapM_eq_ok Palette.convert_eq_ok pixels, mapM_eq_ok convert_generated pixels⟩

end Embedded

end PixelTables

import PixelTables.Catalogue.Destination
import PixelTables.Proofs.Color.Conversion
import PixelTables.Proofs.Source.Emission
import PixelTables.Proofs.Tile.Enumeration

/-!
# The tables of the catalogue are generated

None of the checks of generation fails for any table of the catalogue. So a table is written as the
pieces of its text, and rendered as its text.

## Main Definitions

* `Kind.contents`, `Kind.generatedTable` — the entries of a table, and the table itself

## Main Statements

* `Kind.table_eq_ok` — a table is generated
* `Kind.write_eq` — what is written to a sink, and what is logged
* `Kind.render_eq` — a table is rendered as its text
* `Kind.writeToPath_eq` — the text of a table is written to a path
* `Table.length_le_size_text` — a text has at least one byte for each entry
* `Kind.capacity_lt_size_text` — a text does not fit into the buffer of standard output
-/

namespace PixelTables

namespace Kind

/-- The entries of a table. -/
def contents : Kind → Entries
  | .tileRows => .rows (TileRow.rowsOf TileRow.decode 256)
  | .tileRowsFlipped => .rows (TileRow.rowsOf TileRow.decodeFlipped 256)
  | .cgbPalette => .words Palette.words

/-- The table that is generated. -/
def generatedTable (kind : Kind) : Table := ⟨kind.constName, kind.contents⟩

theorem length_contents (kind : Kind) :
    kind.contents.length = match kind with
      | .tileRows | .tileRowsFlipped => TileRow.pairCount
      | .cgbPalette => Palette.size := by
  cases kind with
  | tileRows => exact TileRow.length_rowsOf _ _
  | tileRowsFlipped => exact TileRow.length_rowsOf _ _
  | cgbPalette => exact Palette.length_words

theorem entries_eq_ok (kind : Kind) : kind.entries = .ok kind.contents := by
  cases kind with
  | tileRows =>
    rw [entries, TileRow.generate, TileRow.enumerate_eq_ok, contents, Except.map]
  | tileRowsFlipped =>
    rw [entries, TileRow.generateFlipped, TileRow.enumerate_eq_ok, contents, Except.map]
  | cgbPalette =>
    rw [entries, Palette.generate_eq_ok, contents, Except.map]

/-- Every table of the catalogue is generated. -/
theorem table_eq_ok (kind : Kind) : kind.table = .ok kind.generatedTable := by
  rw [table, entries_eq_ok]
  rfl

/-- A table is written as it is emitted, and its emission is logged whether or not it succeeds. -/
theorem write_eq {σ : Type} [Sink σ] (kind : Kind) (format : Format) (sink : σ) :
    kind.write format sink
      = match putAll (kind.generatedTable.pieces format) sink with
        | .ok _ sink => ⟨.ok (), sink, [kind.emitting format kind.contents.length]⟩
        | .error fault sink =>
          ⟨.error (.write fault), sink, [kind.emitting format kind.contents.length]⟩ := by
  rw [write, table_eq_ok]
  dsimp only
  rw [Table.emit_eq_putAll]
  rfl

/-- Memory receives the bytes of the text. -/
theorem state_write_memory (kind : Kind) (format : Format) :
    (kind.write format ByteArray.empty).state = (kind.generatedTable.text format).toUTF8 := by
  rw [write_eq, putAll_memory, Table.join_pieces]
  exact ByteArray.empty_append

/-- A table is rendered as its text. -/
theorem render_eq (kind : Kind) (format : Format) :
    kind.render format = (.ok (kind.generatedTable.text format),
      [kind.emitting format kind.contents.length]) := by
  rw [render, write_eq, putAll_memory, Table.join_pieces]
  dsimp only [Except.map]
  rw [ByteArray.empty_append, Utf8.decodeLossy_toUTF8]

/-- The text of a table is written to a path, and nothing else can fail. -/
theorem writeToPath_eq (kind : Kind) (format : Format) (path : String) (host : Host) :
    kind.writeToPath format path host
      = match host.write path (kind.generatedTable.text format).toUTF8 with
        | (.error reason, after) => ⟨.error (.io path reason), after, (kind.render format).2⟩
        | (.ok _, after) =>
          ⟨.ok (), after, (kind.render format).2 ++ [kind.wrote format path]⟩ := by
  rw [writeToPath, render_eq]
  dsimp only
  cases host.write path (kind.generatedTable.text format).toUTF8 with
  | mk answer after =>
    cases answer with
    | error reason => rfl
    | ok _ => rfl

/-- What a table for a path leaves is what its bytes leave. -/
theorem state_writeToPath (kind : Kind) (format : Format) (path : String) (host : Host) :
    (kind.writeToPath format path host).state
      = (host.write path (kind.generatedTable.text format).toUTF8).2 := by
  rw [writeToPath_eq]
  cases host.write path (kind.generatedTable.text format).toUTF8 with
  | mk answer after => cases answer <;> rfl

end Kind

/-! ## The size of a text -/

/-- Each line has a byte at least, its line end. -/
theorem length_le_size_joinLines (lines : List String) :
    lines.length ≤ (joinLines lines).toUTF8.size := by
  induction lines with
  | nil => exact Nat.zero_le _
  | cons line lines ih =>
    have hend : "\n".toUTF8.size = 1 := rfl
    rw [joinLines_cons, toUTF8_append, toUTF8_append, ByteArray.size_append, ByteArray.size_append,
      List.length_cons]
    omega

/-- The text of a table has a byte at least for each entry. -/
theorem Table.length_le_size_text (table : Table) (format : Format) :
    table.entries.length ≤ (table.text format).toUTF8.size := by
  have hlines : table.entries.length ≤ (table.lines format).length := by
    rw [lines, List.length_append, List.length_append, arrayLines, length_literalLines,
      Entries.length_literals]
    omega
  exact Nat.le_trans hlines (length_le_size_joinLines _)

/-- The text of each table is larger than the buffer of standard output. -/
theorem Kind.capacity_lt_size_text (kind : Kind) (format : Format) :
    BufferedOutput.capacity < (kind.generatedTable.text format).toUTF8.size := by
  have hentries : BufferedOutput.capacity < kind.contents.length := by
    rw [length_contents]
    cases kind <;> decide
  exact Nat.lt_of_lt_of_le hentries (kind.generatedTable.length_le_size_text format)

theorem Kind.size_text_ne_zero (kind : Kind) (format : Format) :
    (kind.generatedTable.text format).toUTF8.size ≠ 0 :=
  Nat.ne_of_gt (Nat.zero_lt_of_lt (kind.capacity_lt_size_text format))

end PixelTables

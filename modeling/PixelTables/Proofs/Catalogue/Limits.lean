import PixelTables.Proofs.Catalogue.Generation
import PixelTables.Proofs.Source.Limits

/-!
# Tables for a writer that fails

A table that is written to a writer with too little room arrives as far as there is room, and the
failure of the writer is the result. A table of the catalogue is no exception, and what is logged of
it does not depend on whether it arrives.

## Main Statements

* `LimitedWriter.emit_outcome` — a table of any name and any entries
* `LimitedWriter.write_outcome` — a table of the catalogue
* `LimitedWriter.tables_stopAtLimit` — both, in full
-/

namespace PixelTables

namespace LimitedWriter

variable {σ : Type} [Receiver σ] [Sink σ] (writer : LimitedWriter σ)

/-- A table arrives as far as there is room. -/
theorem emit_outcome (table : Table) (format : Format) (state : σ) :
    writer.Outcome (table.emit format).bytes state (table.emit format state) := by
  rw [Table.emit_bytes, Table.emit_eq_putAll, ← Table.join_pieces]
  exact writer.putAll_outcome (table.pieces format) state

/-- A table of the catalogue is generated and then written as it is emitted. The fault of the writer
becomes that of the table, and one record is logged in either case. -/
theorem write_outcome (kind : Kind) (format : Format) (state : σ) :
    ∃ table result, kind.table = .ok table
      ∧ writer.Outcome (table.emit format).bytes state result
      ∧ kind.write format state = match result with
        | .ok _ next => ⟨.ok (), next, [kind.emitting format table.entries.length]⟩
        | .error fault next =>
          ⟨.error (.write fault), next, [kind.emitting format table.entries.length]⟩ := by
  refine ⟨kind.generatedTable, kind.generatedTable.emit format state, kind.table_eq_ok, ?_, ?_⟩
  · exact writer.emit_outcome kind.generatedTable format state
  · rw [Kind.write_eq, Table.emit_eq_putAll]
    rfl

/-- A table that is written to a writer with too little room arrives as far as there is room,
wherever in its text that is; the writing ends with the first failure of the writer, and nothing is
offered to the writer after it. With room enough the whole text arrives. A table of the catalogue is
written like any other: its failure is one of writing, never of a path, and one record is logged
whether or not it fails. -/
theorem tables_stopAtLimit (start : σ) :
    (∀ (table : Table) (format : Format),
      writer.Outcome (table.emit format).bytes start (table.emit format start))
    ∧ ∀ (kind : Kind) (format : Format), ∃ table result, kind.table = .ok table
      ∧ writer.Outcome (table.emit format).bytes start result
      ∧ kind.write format start = match result with
        | .ok _ next => ⟨.ok (), next,
          [⟨.debug, "gbtables::table", "emitting " ++ Nat.repr table.entries.length
            ++ " entries of " ++ kind.constName ++ " as " ++ format.name⟩]⟩
        | .error fault next => ⟨.error (.write fault), next,
          [⟨.debug, "gbtables::table", "emitting " ++ Nat.repr table.entries.length
            ++ " entries of " ++ kind.constName ++ " as " ++ format.name⟩]⟩ := by
  refine ⟨?_, ?_⟩
  · intro table format
    exact writer.emit_outcome table format start
  · intro kind format
    exact writer.write_outcome kind format start

/-- A sink that stops within a table, one that has just enough room for it, and one that stops
within a table of the catalogue. -/
theorem tables_stopAtLimit_limitedSink :
    (∃ fault next, Table.emit ⟨"T", .words [0, 65535, 12]⟩ .array (LimitedSink.ofRoom 2 none)
        = .error fault next ∧ next.accepted = "\x7b0".toUTF8)
    ∧ (∃ next, Table.emit ⟨"T", .words [0, 65535, 12]⟩ .array (LimitedSink.ofRoom 15 none)
        = .ok () next ∧ next.accepted = "\x7b0,\n65535,\n12\x7d\n".toUTF8)
    ∧ ∃ table fault next, Kind.cgbPalette.table = .ok table
      ∧ Kind.cgbPalette.write .rust (LimitedSink.ofRoom 100 none) = ⟨.error (.write fault), next,
        [⟨.debug, "gbtables::table", "emitting 32768 entries of CGB_PALETTE_RGB565 as rust"⟩]⟩
      ∧ next.accepted = (table.emit .rust).bytes.extract 0 100 := by
  have hbytes : (Table.emit ⟨"T", .words [0, 65535, 12]⟩ .array).bytes
      = "\x7b0,\n65535,\n12\x7d\n".toUTF8 := rfl
  have hsize : (Table.emit ⟨"T", .words [0, 65535, 12]⟩ .array).bytes.size = 15 := rfl
  have houtcome := fun start =>
    (tables_stopAtLimit LimitedSink.writer start).1 ⟨"T", .words [0, 65535, 12]⟩ .array
  refine ⟨?_, ?_, ?_⟩
  · have hroom : LimitedSink.writer.room (.ofRoom 2 none) < 15 := by decide
    obtain ⟨fault, next, hresult, htaken⟩ := (houtcome _).eq_error (hsize ▸ hroom)
    exact ⟨fault, next, hresult, htaken⟩
  · have hroom : 15 ≤ LimitedSink.writer.room (.ofRoom 15 none) := Nat.le_refl 15
    obtain ⟨next, hresult, htaken⟩ := (houtcome _).eq_ok (hsize ▸ hroom)
    rw [hbytes] at htaken
    exact ⟨next, hresult, htaken⟩
  · obtain ⟨table, result, htable, hcatalogue, hwrite⟩ :=
      (tables_stopAtLimit LimitedSink.writer (.ofRoom 100 none)).2 .cgbPalette .rust
    -- The text of the palette has a byte at least for each of its entries.
    have hgenerated : table = Kind.cgbPalette.generatedTable :=
      Except.ok.inj (htable.symm.trans Kind.cgbPalette.table_eq_ok)
    have hlength : table.entries.length = 32768 := by
      rw [hgenerated]
      exact Kind.cgbPalette.length_contents
    have hlarge : table.entries.length ≤ (table.emit .rust).bytes.size := by
      rw [Table.emit_bytes]
      exact table.length_le_size_text .rust
    have hroom : LimitedSink.writer.room (.ofRoom 100 none) < (table.emit .rust).bytes.size := by
      have : LimitedSink.writer.room (.ofRoom 100 none) = 100 := rfl
      omega
    obtain ⟨fault, next, rfl, htaken⟩ := hcatalogue.eq_error hroom
    rw [hlength] at hwrite
    exact ⟨table, fault, next, htable, hwrite, htaken.trans ByteArray.empty_append⟩

end LimitedWriter

end PixelTables

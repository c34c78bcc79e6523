import PixelTables.FileTree.Standard
import PixelTables.Proofs.Catalogue.Generation
import PixelTables.Proofs.FileTree.Rewriting

/-!
# Paths that are refused

A table fails to be written to a path if and only if the system refuses the path or the bytes for
it, and then the failure names the path and the reason of the system. Generating and rendering the
table never fail.

## Main Statements

* `FileTree.read_of_written` — what is written to a file is read from it
* `Kind.writeToPath_of_refused`, `Kind.writeToPath_of_taken` — a table and its path
* `Kind.tree_writeToPath` — what a table leaves of the tree, whether or not it is refused
* `Kind.writeToPath_reportsRefusal` — what is written, reported and logged, in full
-/

namespace PixelTables

namespace FileTree

variable {tree : FileTree} {path : String} {location : Location}

/-- What is written to a file is read from it. The file may be a new one, and still the path leads
to it as before. -/
theorem read_of_written (hfile : tree.file? path = some location) (content : ByteArray) :
    (tree.insert location (.file content)).read path = .ok content := by
  obtain ⟨hopen, hdevice⟩ := file?_eq_some_iff.1 hfile
  have hplace := isPlace_of_opened hopen
  have hwritten : FilesWritten tree (tree.insert location (.file content)) :=
    (FilesWritten.refl tree).insert hplace (canHoldFile_of_opened hopen hdevice) content
  obtain ⟨parsed, directory, name, walk, hparsed, hparent, hlast, hentry, hreached, -⟩ :=
    FileTree.openForWriting_eq_ok_iff.1 hopen
  have hlookup : (tree.insert location (.file content)).lookup walk.location
      = some (.file content) := by
    rw [hreached, tree.lookup_insert hplace, if_pos rfl]
  rw [read, hparsed]
  simp only [bind, Except.bind]
  rw [hwritten.parent_eq_ok_iff.2 hparent]
  simp only [hlast, hwritten.entry_eq_ok_iff.2 hentry, hlookup]
  rfl

end FileTree

namespace Kind

variable (kind : Kind) (format : Format) (path : String) (host : Host)

/-- Where the bytes of a table are refused the table is. -/
theorem writeToPath_of_refused {reason : OsError}
    (h : host.Refuses path (kind.generatedTable.text format).toUTF8 reason) :
    kind.writeToPath format path host
      = ⟨.error (.io path reason), (kind.writeToPath format path host).state,
        [kind.emitting format kind.contents.length]⟩ := by
  have hwrite := Host.write_eq_error_iff.2 h
  rw [writeToPath_eq, render_eq]
  cases hanswer : host.write path (kind.generatedTable.text format).toUTF8 with
  | mk answer after =>
    rw [hanswer] at hwrite
    cases hwrite
    rfl

/-- Where the bytes of a table are not refused it is written. -/
theorem writeToPath_of_taken
    (h : ∀ reason, ¬ host.Refuses path (kind.generatedTable.text format).toUTF8 reason) :
    kind.writeToPath format path host
      = ⟨.ok (), (kind.writeToPath format path host).state,
        [kind.emitting format kind.contents.length, kind.wrote format path]⟩ := by
  have hwrite := Host.write_eq_ok_iff.2 h
  rw [writeToPath_eq, render_eq]
  cases hanswer : host.write path (kind.generatedTable.text format).toUTF8 with
  | mk answer after =>
    rw [hanswer] at hwrite
    cases hwrite
    rfl

/-- A table fails where its bytes are refused, and it fails for that reason. -/
theorem result_writeToPath_eq_error_iff {error : Error} :
    (kind.writeToPath format path host).result = .error error
      ↔ ∃ reason, host.Refuses path (kind.generatedTable.text format).toUTF8 reason
        ∧ error = .io path reason := by
  by_cases hrefused : ∃ reason, host.Refuses path (kind.generatedTable.text format).toUTF8 reason
  · obtain ⟨reason, hreason⟩ := hrefused
    rw [writeToPath_of_refused kind format path host hreason]
    constructor
    · intro h
      cases h
      exact ⟨reason, hreason, rfl⟩
    · rintro ⟨other, hother, rfl⟩
      have hwrite := Host.write_eq_error_iff.2 hreason
      rw [Host.write_eq_error_iff.2 hother] at hwrite
      cases hwrite
      rfl
  · rw [writeToPath_of_taken kind format path host (not_exists.1 hrefused)]
    refine iff_of_false nofun ?_
    rintro ⟨reason, hreason, -⟩
    exact hrefused ⟨reason, hreason⟩

/-- A table succeeds where its bytes are not refused. -/
theorem result_writeToPath_eq_ok_iff :
    (kind.writeToPath format path host).result = .ok ()
      ↔ ∀ reason, ¬ host.Refuses path (kind.generatedTable.text format).toUTF8 reason := by
  constructor
  · intro h reason hreason
    rw [writeToPath_of_refused kind format path host hreason] at h
    cases h
  · intro h
    rw [writeToPath_of_taken kind format path host h]

/-- The emission is logged first, and then the writing if it has succeeded. -/
theorem log_writeToPath :
    (kind.writeToPath format path host).log = kind.emitting format kind.contents.length
      :: match (kind.writeToPath format path host).result with
        | .ok _ => [kind.wrote format path]
        | .error _ => [] := by
  by_cases hrefused : ∃ reason, host.Refuses path (kind.generatedTable.text format).toUTF8 reason
  · obtain ⟨reason, hreason⟩ := hrefused
    rw [writeToPath_of_refused kind format path host hreason]
  · rw [writeToPath_of_taken kind format path host (not_exists.1 hrefused)]

/-- A table fills the file that its path leads to, as far as the file can hold it, and does nothing
else to the tree. -/
theorem tree_writeToPath :
    (kind.writeToPath format path host).state.tree
      = host.tree.filled path (kind.generatedTable.text format).toUTF8 := by
  rw [state_writeToPath, Host.tree_write]

/-- A table that is written to a file is there whole. -/
theorem tree_writeToPath_of_ok {location : Location}
    (hfile : host.tree.file? path = some location)
    (h : (kind.writeToPath format path host).result = .ok ()) :
    (kind.writeToPath format path host).state.tree
      = host.tree.insert location (.file (kind.generatedTable.text format).toUTF8) := by
  have hwhole : host.tree.shortage? location (kind.generatedTable.text format).toUTF8 = none := by
    rw [Option.eq_none_iff_forall_ne_some]
    intro reason hshortage
    obtain ⟨size, hlimit, hsize⟩ := FileTree.shortage?_eq_some_iff.1 hshortage
    obtain ⟨hopen, hdevice⟩ := FileTree.file?_eq_some_iff.1 hfile
    exact (result_writeToPath_eq_ok_iff kind format path host).1 h reason
      (.space hopen hdevice hlimit hsize)
  rw [tree_writeToPath, FileTree.filled, hfile]
  dsimp only
  rw [FileTree.fitting_eq_of_shortage? hwhole]

/-- Writing a table to a path fails if and only if the system refuses to open the path or to write
the text of the table to it. The failure tells the path as it was given and the reason of the
system, and nothing else can fail: the table is generated and rendered in any case. That its
emission begins is logged first, with the number of its entries; that it has been written is logged
after that if and only if it has; and no more is logged. A file at the path, or a new one there,
then holds the whole text and nothing else of the tree changes. A path that is not opened leaves
everything as it is. -/
theorem writeToPath_reportsRefusal (kind : Kind) (format : Format) (path : String) (host : Host) :
    ∃ table text written, kind.table = .ok table ∧ (kind.render format).1 = .ok text
      ∧ text.toUTF8 = (table.emit format).bytes
      ∧ kind.writeToPath format path host = written
      ∧ table.entries.length = (match kind with
        | .tileRows | .tileRowsFlipped => 65536
        | .cgbPalette => 32768)
      ∧ (∀ error, written.result = .error error
        ↔ ∃ reason, host.Refuses path text.toUTF8 reason ∧ error = .io path reason)
      ∧ (written.result = .ok () ↔ ∀ reason, ¬ host.Refuses path text.toUTF8 reason)
      ∧ written.log = ⟨.debug, "gbtables::table", "emitting " ++ Nat.repr table.entries.length
          ++ " entries of " ++ kind.constName ++ " as " ++ format.name⟩
        :: (match written.result with
          | .ok _ => [⟨.info, "gbtables::table",
            "wrote " ++ kind.constName ++ " (" ++ format.name ++ ") to " ++ path⟩]
          | .error _ => [])
      ∧ (∀ location, host.tree.openForWriting path = .ok location →
        host.tree.device? path = none → written.result = .ok () →
        written.state.tree = host.tree.insert location (.file text.toUTF8)
          ∧ written.state.tree.lookup location = some (.file text.toUTF8)
          ∧ written.state.tree.read path = .ok text.toUTF8)
      ∧ ∀ reason, host.tree.openForWriting path = .error reason → written.state = host := by
  refine ⟨kind.generatedTable, kind.generatedTable.text format, kind.writeToPath format path host,
    kind.table_eq_ok, ?_, ?_, rfl, kind.length_contents, ?_, ?_, ?_, ?_, ?_⟩
  · rw [render_eq]
  · rw [Table.emit_bytes]
  · intro error
    exact result_writeToPath_eq_error_iff kind format path host
  · exact result_writeToPath_eq_ok_iff kind format path host
  · exact log_writeToPath kind format path host
  · intro location hopen hdevice hok
    have hfile := FileTree.file?_eq_some_iff.2 ⟨hopen, hdevice⟩
    rw [tree_writeToPath_of_ok kind format path host hfile hok]
    refine ⟨rfl, ?_, FileTree.read_of_written hfile _⟩
    rw [host.tree.lookup_insert (FileTree.isPlace_of_opened hopen), if_pos rfl]
  · intro reason hopen
    rw [state_writeToPath, Host.write_of_error hopen]

end Kind

/-- The small tree with room for no table in a file that is yet to be made. -/
def FileTree.crowded : FileTree :=
  { FileTree.fresh with limits := [(["tmp", "/", "rows.h"], ⟨10, .storageFull⟩)] }

/-- The small tree with a link into a directory that is missing. -/
def FileTree.dangling : FileTree :=
  { FileTree.fresh with
    links := [(["tmp", "/", "link"], ⟨["tmp", "/", "missing", "f"], 1⟩)]
    wellFormed := by decide }

/-- A device that is full, a file that cannot grow, a directory that is missing, also behind a link,
a directory itself and a text that is no path are refused, each for its own reason; a new file takes
the table. -/
theorem Kind.writeToPath_reportsRefusal_fresh :
    (writeToPath .cgbPalette .rust "/dev/full" (Host.ofTree FileTree.fresh)).result
        = .error (.io "/dev/full" .storageFull)
    ∧ (writeToPath .tileRows .header "rows.h" (Host.ofTree FileTree.crowded)).result
        = .error (.io "rows.h" .storageFull)
    ∧ (writeToPath .tileRows .header "missing/rows.h" (Host.ofTree FileTree.fresh)).result
        = .error (.io "missing/rows.h" .notFound)
    ∧ (writeToPath .tileRows .header "link" (Host.ofTree FileTree.dangling)).result
        = .error (.io "link" .notFound)
    ∧ (writeToPath .tileRows .array "/tmp" (Host.ofTree FileTree.fresh)).result
        = .error (.io "/tmp" .isADirectory)
    ∧ (writeToPath .tileRowsFlipped .array "rows\x00" (Host.ofTree FileTree.fresh)).result
        = .error (.io "rows\x00" .invalidInput)
    ∧ ∃ text, (render .cgbPalette .header).1 = .ok text
      ∧ (writeToPath .cgbPalette .header "palette.h"
          (Host.ofTree FileTree.fresh)).state.tree.read "palette.h" = .ok text.toUTF8 := by
  have hfails : ∀ kind format path host reason,
      (∀ bytes : ByteArray, 10 < bytes.size → host.Refuses path bytes reason) →
      (writeToPath kind format path host).result = .error (.io path reason) := by
    intro kind format path host reason hrefused
    obtain ⟨table, text, _, htable, -, htext, rfl, -, hresult, -⟩ :=
      writeToPath_reportsRefusal kind format path host
    have hsize := kind.capacity_lt_size_text format
    have hgenerated : table = kind.generatedTable :=
      Except.ok.inj (htable.symm.trans kind.table_eq_ok)
    rw [← Table.emit_bytes, ← hgenerated, ← htext] at hsize
    exact (hresult _).2 ⟨reason, hrefused _ (Nat.lt_trans (by decide) hsize), rfl⟩
  have hfull : FileTree.fresh.openForWriting "/dev/full" = .ok ["dev", "full"] := rfl
  have hrows : FileTree.crowded.openForWriting "rows.h" = .ok ["tmp", "/", "rows.h"] := rfl
  refine ⟨hfails _ _ _ _ _ ?_, hfails _ _ _ _ _ ?_, hfails _ _ _ _ _ fun _ _ => .opening rfl,
    hfails _ _ _ _ _ fun _ _ => .opening rfl, hfails _ _ _ _ _ fun _ _ => .opening rfl,
    hfails _ _ _ _ _ fun _ _ => .opening rfl, ?_⟩
  · intro bytes hbytes
    exact .device hfull rfl (.failing .storageFull) (Nat.ne_of_gt (Nat.zero_lt_of_lt hbytes))
  · intro bytes hbytes
    exact .space hrows rfl rfl hbytes
  · obtain ⟨_, text, _, -, htext, -, rfl, -, -, hok, -, hfile, -⟩ :=
      writeToPath_reportsRefusal .cgbPalette .header "palette.h" (Host.ofTree FileTree.fresh)
    have hopen : FileTree.fresh.openForWriting "palette.h" = .ok ["tmp", "/", "palette.h"] := rfl
    refine ⟨text, htext, (hfile _ hopen rfl (hok.2 ?_)).2.2⟩
    -- The system opens a new file, which is no device and can grow as it likes.
    rintro reason (herror | ⟨hother, hlookup, -, -⟩ | ⟨hother, -, hlimit, -⟩)
    · cases hopen.symm.trans herror
    · cases hopen.symm.trans hother
      cases hlookup
    · cases hlimit

end PixelTables

import Mathlib.Data.List.Forall2
import PixelTables.Proofs.Source.Emission
import PixelTables.Proofs.Source.Reading
import PixelTables.Text.Utf8

/-!
# Texts that tell where they end

The text of a table whose name is on one line tells where it ends, so no such text begins another
one, and tables that are written one after another into one file are read back in turn.

## Main Definitions

* `Table.HasPlainName` — the name of the table is on one line
* `Table.followingText`, `Table.seriesText` — the text of tables written one after another
* `Reader.readFile` — the tables of a whole file, of which there may be none

## Main Statements

* `splitLines_joinLines` — lines are found again in their text, whatever follows it
* `Reader.readTable_text` — a table is read off the front of a text
* `Table.emit_selfDelimiting` — no table's bytes begin those of another table, and a file of
  tables is read back
-/

namespace PixelTables

/-! ## Cutting a text into its lines -/

/-- Lines are found again in their text, whatever follows it. -/
theorem splitLines_joinLines {lines : List String} (h : ∀ line ∈ lines, '\n' ∉ line.toList)
    (rest : List Char) :
    splitLines ((joinLines lines).toList ++ rest)
      = lines.map String.toList ++ splitLines rest := by
  induction lines with
  | nil => rfl
  | cons line lines ih =>
    -- A line that holds no line end is cut off at its own.
    have htext : (joinLines (line :: lines)).toList ++ rest
        = line.toList ++ '\n' :: ((joinLines lines).toList ++ rest) := by simp
    have hlines := ih fun other hother => h other (List.mem_cons_of_mem _ hother)
    rw [htext, splitLines, splitAtChar_append (h line List.mem_cons_self)]
    exact congrArg (line.toList :: ·) hlines

/-! ## One table -/

namespace Table

/-- The name of the table is on one line. -/
def HasPlainName (table : Table) : Prop := '\n' ∉ table.name.toList

instance (table : Table) : Decidable table.HasPlainName :=
  inferInstanceAs (Decidable ('\n' ∉ table.name.toList))

theorem newline_not_mem_declaration (entries : Entries) (format : Format) {name : String}
    (h : '\n' ∉ name.toList) : '\n' ∉ (entries.declaration name format).toList := by
  have hdigits : ∀ n : Nat, '\n' ∉ Nat.toDigits 10 n := by
    intro n
    rw [← Nat.toList_repr]
    exact Reader.not_mem_repr rfl n
  cases format <;> cases entries <;> dsimp only [Entries.declaration] <;> simp [h, hdigits]

/-- Each line of a table with a plain name is one line. -/
theorem newline_not_mem_line {table : Table} (h : table.HasPlainName) (format : Format)
    {line : String} (hline : line ∈ table.lines format) : '\n' ∉ line.toList := by
  have hname : '\n' ∉ table.name.toList := h
  have harray : ∀ other ∈ firstLine format.finish (table.entries.literals format)
      :: otherLines format.finish (table.entries.literals format), '\n' ∉ other.toList := by
    intro other hother hmem
    have hchar := isArrayChar_of_mem_line hother hmem
    revert hchar
    decide
  have hopening : '\n' ∉ format.opening.toList := by cases format <;> decide
  rw [lines, List.mem_append, List.mem_append, arrayLines, literalLines_eq, List.mem_cons] at hline
  rcases hline with (hbefore | rfl | hother) | hafter
  · cases format with
    | array | rust => cases hbefore
    | header =>
      simp only [linesBefore, List.mem_cons, List.not_mem_nil, or_false] at hbefore
      rcases hbefore with rfl | rfl | rfl | rfl | rfl <;> simp [hname]
  · have hdeclaration := newline_not_mem_declaration table.entries format hname
    have hfirst := harray _ List.mem_cons_self
    simp only [String.toList_append, List.mem_append, hdeclaration, hopening, hfirst, or_self,
      not_false_eq_true]
  · exact harray line (List.mem_cons_of_mem _ hother)
  · cases format with
    | array | rust => cases hafter
    | header =>
      simp only [linesAfter, List.mem_cons, List.not_mem_nil, or_false] at hafter
      rcases hafter with rfl | rfl <;> simp [hname]

theorem text_eq_joinLines_lines (table : Table) (format : Format) :
    table.text format = joinLines (table.lines format) := rfl

theorem splitLines_text {table : Table} (h : table.HasPlainName) (format : Format)
    (rest : List Char) :
    splitLines ((table.text format).toList ++ rest)
      = (table.lines format).map String.toList ++ splitLines rest :=
  splitLines_joinLines (fun _ hline => newline_not_mem_line h format hline) rest

end Table

/-- A table with a plain name is read off the front of a text. -/
theorem Reader.readTable_text {table : Table} (h : table.HasPlainName) (format : Format)
    (rest : List Char) :
    readTable (splitLines ((table.text format).toList ++ rest))
      = some (table.reading format, splitLines rest) := by
  rw [Table.splitLines_text h, readTable_lines]

namespace Table

/-- The text of a table with a plain name is no proper beginning of that of another one. -/
theorem eq_nil_of_text_append {a b : Table} {f g : Format} (ha : a.HasPlainName)
    (hb : b.HasPlainName) {rest : List Char}
    (h : (a.text f).toList ++ rest = (b.text g).toList) : rest = [] := by
  have hread := Reader.readTable_text ha f rest
  have hwhole := Reader.readTable_text hb g []
  rw [List.append_nil, ← h, hread] at hwhole
  have hrest : splitLines rest = splitLines [] := congrArg Prod.snd (Option.some.inj hwhole)
  exact splitAtChar_eq_singleton_nil hrest

/-- Equal texts of tables with plain names tell the same. -/
theorem reading_eq_of_text_eq {a b : Table} {f g : Format} (ha : a.HasPlainName)
    (hb : b.HasPlainName) (h : a.text f = b.text g) : a.reading f = b.reading g := by
  have hread := Reader.readTable_text ha f []
  rw [h, Reader.readTable_text hb g []] at hread
  exact (congrArg Prod.fst (Option.some.inj hread)).symm

end Table

theorem toList_isPrefix_of_toUTF8_append {s t : String} {more : ByteArray}
    (h : s.toUTF8 ++ more = t.toUTF8) : s.toList <+: t.toList := by
  rw [String.toUTF8_eq_toByteArray, String.toUTF8_eq_toByteArray, ← String.utf8Encode_toList,
    ← String.utf8Encode_toList] at h
  exact List.isPrefix_of_utf8Encode_append_eq_utf8Encode more h

theorem Table.eq_empty_of_bytes_append {a b : Table} {f g : Format} (ha : a.HasPlainName)
    (hb : b.HasPlainName) {more : ByteArray}
    (h : (a.text f).toUTF8 ++ more = (b.text g).toUTF8) : more = ByteArray.empty := by
  obtain ⟨rest, hrest⟩ := toList_isPrefix_of_toUTF8_append h
  have hnil := eq_nil_of_text_append ha hb hrest
  rw [hnil, List.append_nil] at hrest
  rw [String.toList_inj.1 hrest] at h
  exact (ByteArray.append_right_inj _).1 (h.trans ByteArray.append_empty.symm)

/-! ## What a text tells -/

namespace Table

/-- Two tables that the same format does not tell apart. A declaration tells all of a table. A bare
literal does not tell the name, nor of which type its entries would be if there are none. -/
def TellsSame (format : Format) (a b : Table) : Prop :=
  match format with
  | .array => a.entries = b.entries ∨ a.entries.length = 0 ∧ b.entries.length = 0
  | .header | .rust => a.entries = b.entries ∧ a.name = b.name

theorem bareEntries_eq_iff (a b : Entries) :
    ((if a.length = 0 then none else some a) = if b.length = 0 then none else some b)
      ↔ a = b ∨ a.length = 0 ∧ b.length = 0 := by
  by_cases ha : a.length = 0
  · by_cases hb : b.length = 0
    · simp [ha, hb]
    · have hne : a ≠ b := fun h => hb (h ▸ ha)
      simp [ha, hb, hne]
  · by_cases hb : b.length = 0
    · have hne : a ≠ b := fun h => ha (h ▸ hb)
      simp [ha, hb, hne]
    · simp [ha, hb]

/-- What is read from two tables is the same where their formats do not tell them apart. -/
theorem reading_eq_iff {a b : Table} {f g : Format} :
    a.reading f = b.reading g ↔ f = g ∧ TellsSame f a b := by
  cases f <;> cases g <;> simp [reading, TellsSame, and_comm, bareEntries_eq_iff]

end Table

/-! ## Several tables in one file -/

namespace Table

/-- The text of tables that are each written after an empty line. -/
def followingText : List (Table × Format) → String
  | [] => ""
  | (table, format) :: series => "\n" ++ table.text format ++ followingText series

/-- The text of tables written one after another with an empty line between each two. -/
def seriesText : List (Table × Format) → String
  | [] => ""
  | (table, format) :: series => table.text format ++ followingText series

theorem emitFollowing_memory (series : List (Table × Format)) (taken : ByteArray) :
    emitFollowing series taken = .ok () (taken ++ (followingText series).toUTF8) := by
  induction series generalizing taken with
  | nil => simp [emitFollowing, followingText, pure, EStateM.pure]
  | cons entry series ih =>
    obtain ⟨table, format⟩ := entry
    have hput : put "\n" taken = .ok () (taken ++ "\n".toUTF8) := rfl
    have hemit := emit_memory table format (taken ++ "\n".toUTF8)
    have hfollowing := ih (taken ++ "\n".toUTF8 ++ (table.text format).toUTF8)
    simp only [emitFollowing, bind, EStateM.bind, hput, hemit, hfollowing]
    simp [followingText, ByteArray.append_assoc]

/-- The bytes of an emission of several tables to memory are those of their text. -/
theorem emitSeries_bytes (series : List (Table × Format)) :
    (emitSeries series).bytes = (seriesText series).toUTF8 := by
  cases series with
  | nil => rfl
  | cons entry series =>
    obtain ⟨table, format⟩ := entry
    have hemit := emit_memory table format ByteArray.empty
    have hfollowing := emitFollowing_memory series (ByteArray.empty ++ (table.text format).toUTF8)
    simp only [Emission.bytes, emitSeries, bind, EStateM.bind, hemit, hfollowing]
    simp [seriesText]

end Table

namespace Reader

/-- Tables that follow one another are read in turn. The induction is on the tables that are still
to be read: what the reader leaves after one of them is an empty line and the text of the others. -/
theorem readSeries_seriesText (series : List (Table × Format)) (entry : Table × Format)
    (h : ∀ other ∈ entry :: series, other.1.HasPlainName) :
    readSeries (splitLines (Table.seriesText (entry :: series)).toList)
      = some ((entry :: series).map fun other => other.1.reading other.2) := by
  induction series generalizing entry with
  | nil =>
    have hread := readTable_text (h entry List.mem_cons_self) entry.2 []
    have htext : (Table.seriesText [entry]).toList = (entry.1.text entry.2).toList ++ [] := by
      simp [Table.seriesText, Table.followingText]
    rw [htext, readSeries, hread]
    rfl
  | cons next series ih =>
    have hentry := h entry List.mem_cons_self
    have hseries := ih next fun other hother => h other (List.mem_cons_of_mem _ hother)
    have htext : (Table.seriesText (entry :: next :: series)).toList
        = (entry.1.text entry.2).toList ++ '\n' :: (Table.seriesText (next :: series)).toList := by
      simp [Table.seriesText, Table.followingText]
    have hblank : splitLines ('\n' :: (Table.seriesText (next :: series)).toList)
        = [] :: splitLines (Table.seriesText (next :: series)).toList := rfl
    -- The reader goes on only where fewer lines are left.
    have hlength : (splitLines (Table.seriesText (next :: series)).toList).length
        < (splitLines (Table.seriesText (entry :: next :: series)).toList).length := by
      rw [htext, Table.splitLines_text hentry, hblank]
      simp
      omega
    have hread := readTable_text hentry entry.2 ('\n' :: (Table.seriesText (next :: series)).toList)
    rw [← htext, hblank] at hread
    obtain ⟨line, lines, hlines⟩ := List.exists_cons_of_ne_nil
      (splitAtChar_ne_nil '\n' (Table.seriesText (next :: series)).toList)
    rw [← splitLines] at hlines
    rw [hlines] at hread hlength hseries
    rw [readSeries, hread]
    simp only [if_pos hlength, hseries, Option.map_some, List.map_cons]

/-- The tables of a whole file. A file without any byte holds none. -/
def readFile (bytes : ByteArray) : Option (List Reading) :=
  if bytes.size = 0 then some [] else readSeries (splitLines (Utf8.decodeLossy bytes).toList)

end Reader

theorem Table.text_ne_empty (table : Table) (format : Format) : table.text format ≠ "" := by
  intro h
  have hread := Reader.readTable_lines table format []
  cases hlines : table.lines format with
  | nil =>
    rw [hlines] at hread
    cases hread
  | cons line lines =>
    rw [text_eq_joinLines_lines, hlines, joinLines_cons, ← String.toList_inj] at h
    simp at h

namespace Reader

/-- A file of tables with plain names is read back. -/
theorem readFile_emitSeries (series : List (Table × Format))
    (h : ∀ entry ∈ series, entry.1.HasPlainName) :
    readFile (Table.emitSeries series).bytes
      = some (series.map fun entry => entry.1.reading entry.2) := by
  rw [Table.emitSeries_bytes, readFile, Utf8.decodeLossy_toUTF8]
  cases series with
  | nil => rfl
  | cons entry series =>
    have hsize : (Table.seriesText (entry :: series)).toUTF8.size ≠ 0 := by
      intro hzero
      rw [ByteArray.size_eq_zero_iff, String.toUTF8_eq_toByteArray,
        String.toByteArray_eq_empty_iff] at hzero
      exact Table.text_ne_empty entry.1 entry.2 (String.append_eq_empty_iff.1 hzero).1
    rw [if_neg hsize, readSeries_seriesText series entry h]

end Reader

namespace Table

/-- The texts of tables with plain names tell where they end. No table's bytes are a proper
beginning of another table's bytes; so a file of tables, with an empty line between each two, is
read back, and it tells each table as far as its format does. -/
theorem emit_selfDelimiting :
    (∀ (a b : Table) (f g : Format) (more : ByteArray), a.HasPlainName → b.HasPlainName →
      more ≠ ByteArray.empty → (a.emit f).bytes ++ more ≠ (b.emit g).bytes)
    ∧ (∀ series : List (Table × Format), (∀ entry ∈ series, entry.1.HasPlainName) →
      Reader.readFile (emitSeries series).bytes
        = some (series.map fun entry => entry.1.reading entry.2))
    ∧ ∀ series others : List (Table × Format), (∀ entry ∈ series, entry.1.HasPlainName) →
      (∀ entry ∈ others, entry.1.HasPlainName) →
      (emitSeries series).bytes = (emitSeries others).bytes →
      List.Forall₂ (fun p q => p.2 = q.2 ∧ TellsSame p.2 p.1 q.1) series others := by
  refine ⟨?_, Reader.readFile_emitSeries, ?_⟩
  · intro a b f g more ha hb hmore h
    rw [emit_bytes, emit_bytes] at h
    exact hmore (eq_empty_of_bytes_append ha hb h)
  · intro series others hseries hothers h
    have hread := Reader.readFile_emitSeries others hothers
    rw [← h, Reader.readFile_emitSeries series hseries, Option.some_inj, ← List.forall₂_eq_eq_eq,
      List.forall₂_map_left_iff, List.forall₂_map_right_iff] at hread
    exact hread.imp fun p q hpq => reading_eq_iff.1 hpq

/-- Names that look like declarations, an entry type each, and two bare literals without entries
that differ in their type. -/
theorem emit_selfDelimiting_mixed :
    (emit ⟨"A", .words [1]⟩ .array).bytes ++ "\n".toUTF8
        ≠ (emit ⟨"A", .words [1, 2]⟩ .array).bytes
    ∧ Reader.readFile (emitSeries
          [(⟨"A: [u16; 1] = [", .rows [Vector.replicate 8 255]⟩, .rust),
            (⟨"B[2] = \x7b0", .words [65535, 0]⟩, .header), (⟨"", .words []⟩, .array)]).bytes
        = some [⟨.rust, some "A: [u16; 1] = [", some (.rows [Vector.replicate 8 255])⟩,
            ⟨.header, some "B[2] = \x7b0", some (.words [65535, 0])⟩, ⟨.array, none, none⟩]
    ∧ List.Forall₂ (fun p q : Table × Format => p.2 = q.2 ∧ TellsSame p.2 p.1 q.1)
        [(⟨"A", .words []⟩, .array)] [(⟨"B", .rows []⟩, .array)] :=
  ⟨emit_selfDelimiting.1 _ _ .array .array "\n".toUTF8 (by decide) (by decide) (by decide),
    emit_selfDelimiting.2.1 _ (by decide),
    emit_selfDelimiting.2.2 _ _ (by decide) (by decide) (by decide)⟩

end Table

end PixelTables

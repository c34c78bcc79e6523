import PixelTables.Proofs.Source.SelfDelimiting

/-!
# One entry per line

An emitted table whose name is on one line has one line for each entry, with lines around them that
depend on its name only. The data is written alike in every format but for the delimiters. So tables
that differ in one entry are written in texts that differ in one line.

## Main Definitions

* `bracket` — a brace turned into a bracket
* `Entries.arrayLiteral` — the array literal of some entries
* `Entries.DifferOnlyAt` — entries that differ at one place

## Main Statements

* `splitAtChar_intercalate` — parts with a character between them are found again
* `getElem?_literalLines` — the line of an entry
* `Entries.arrayLiteral_rust` — the array literal with brackets is the one with braces
* `Table.exists_lines_eq` — tables that differ in one entry differ in one line
* `Table.emit_linePerEntry` — the lines of an emitted table, in full
-/

namespace PixelTables

/-! ## Parts with a character between them -/

/-- Parts with a character between them are found again, if there are any. -/
theorem splitAtChar_intercalate {separator : Char} {parts : List (List Char)} (hne : parts ≠ [])
    (h : ∀ part ∈ parts, separator ∉ part) :
    splitAtChar separator ([separator].intercalate parts) = parts := by
  induction parts with
  | nil => exact absurd rfl hne
  | cons part parts ih =>
    have hpart := h part List.mem_cons_self
    cases parts with
    | nil => rw [List.intercalate_singleton, splitAtChar_of_not_mem hpart]
    | cons next parts =>
      have hrest := ih (List.cons_ne_nil _ _) fun other hother =>
        h other (List.mem_cons_of_mem _ hother)
      rw [List.intercalate_cons_cons, List.append_assoc, List.singleton_append,
        splitAtChar_append hpart, hrest]

/-- The numbers of a row are found between its commas. -/
theorem splitAtChar_rowNumbers (row : TileRow) :
    splitAtChar ',' (rowNumbers row).toList
      = row.toList.map fun pixel => (Nat.repr pixel.toNat).toList := by
  have hcomma : ",".toList = [','] := rfl
  have hnumbers : (rowNumbers row).toList
      = [','].intercalate (row.toList.map fun pixel => (Nat.repr pixel.toNat).toList) := by
    rw [rowNumbers, String.toList_intercalate, hcomma, List.map_map]
    rfl
  have hlength : row.toList.length = 8 := Vector.length_toList
  rw [hnumbers]
  apply splitAtChar_intercalate
  · intro hnil
    rw [List.map_eq_nil_iff.1 hnil] at hlength
    cases hlength
  · intro part hpart
    obtain ⟨pixel, -, rfl⟩ := List.mem_map.1 hpart
    exact Reader.not_mem_repr rfl pixel.toNat

/-! ## The line of an entry -/

theorem getElem?_followingLines (finish : String) (literals : List String) (i : Nat) :
    (followingLines finish literals)[i]?
      = literals[i]?.map fun literal =>
        literal ++ if i + 1 = literals.length then finish else "," := by
  induction literals generalizing i with
  | nil => rfl
  | cons literal literals ih =>
    cases literals with
    | nil => cases i <;> simp [followingLines]
    | cons next literals =>
      have hcons : followingLines finish (literal :: next :: literals)
          = (literal ++ ",") :: followingLines finish (next :: literals) := rfl
      rw [hcons]
      cases i with
      | zero => simp
      | succ i => simpa using ih i

/-- The line of an entry is its literal, after the start of the array if it is the first one, and
before the finish if it is the last one or else before a comma. -/
theorem getElem?_literalLines {start finish : String} {literals : List String} {i : Nat}
    {literal : String} (h : literals[i]? = some literal) :
    (literalLines start finish literals)[i]?
      = some ((if i = 0 then start else "") ++ literal
        ++ if i + 1 = literals.length then finish else ",") := by
  cases literals with
  | nil => cases h
  | cons first literals =>
    rw [literalLines, getElem?_followingLines]
    cases i with
    | zero =>
      cases h
      simp
    | succ i =>
      rw [List.getElem?_cons_succ] at h
      simp [h]

/-! ## Braces and brackets -/

/-- A brace is turned into a bracket. -/
def bracket (c : Char) : Char :=
  if c = '\x7b' then '[' else if c = '\x7d' then ']' else c

theorem map_append (f : Char → Char) (s t : String) : (s ++ t).map f = s.map f ++ t.map f := by
  apply String.toList_inj.1
  simp [String.toList_map]

theorem map_intercalate (f : Char → Char) (separator : String) (parts : List String) :
    (separator.intercalate parts).map f
      = (separator.map f).intercalate (parts.map (String.map f)) := by
  induction parts with
  | nil => simp
  | cons part parts ih =>
    cases parts with
    | nil => simp
    | cons next parts =>
      rw [String.intercalate_cons_cons, map_append, map_append, ih]
      simp only [List.map_cons, String.intercalate_cons_cons]

/-- A text without braces stays as it is. -/
theorem map_bracket_of_not_mem {s : String} (hopen : '\x7b' ∉ s.toList)
    (hclose : '\x7d' ∉ s.toList) : s.map bracket = s := by
  apply String.toList_inj.1
  rw [String.toList_map]
  conv => rhs; rw [← List.map_id s.toList]
  apply List.map_congr_left
  intro c hc
  have hne : c ≠ '\x7b' := fun h => hopen (h ▸ hc)
  have hne' : c ≠ '\x7d' := fun h => hclose (h ▸ hc)
  rw [bracket, if_neg hne, if_neg hne']
  rfl

theorem map_bracket_repr (n : Nat) : (Nat.repr n).map bracket = Nat.repr n :=
  map_bracket_of_not_mem (Reader.not_mem_repr rfl n) (Reader.not_mem_repr rfl n)

theorem map_bracket_rowNumbers (row : TileRow) :
    (rowNumbers row).map bracket = rowNumbers row := by
  rw [rowNumbers, map_intercalate, map_bracket_of_not_mem (by decide) (by decide), List.map_map]
  congr 1
  apply List.map_congr_left
  intro pixel _
  exact map_bracket_repr pixel.toNat

theorem map_bracket_opening : Format.array.opening.map bracket = Format.rust.opening := by
  apply String.toList_inj.1
  rw [String.toList_map]
  rfl

theorem map_bracket_closing : Format.array.closing.map bracket = Format.rust.closing := by
  apply String.toList_inj.1
  rw [String.toList_map]
  rfl

namespace Entries

/-- The array literal of the entries. -/
def arrayLiteral (entries : Entries) (format : Format) : String :=
  format.opening ++ ",\n".intercalate (entries.literals format) ++ format.closing

/-- A literal with brackets is the one with braces turned into brackets. -/
theorem literals_rust (entries : Entries) :
    entries.literals .rust = (entries.literals .array).map (String.map bracket) := by
  cases entries with
  | words values =>
    rw [literals, literals, List.map_map]
    apply List.map_congr_left
    intro word _
    exact (map_bracket_repr word.toNat).symm
  | rows values =>
    rw [literals, literals, List.map_map]
    apply List.map_congr_left
    intro row _
    rw [Function.comp_apply, map_append, map_append, map_bracket_opening, map_bracket_rowNumbers,
      map_bracket_closing]

theorem arrayLiteral_header (entries : Entries) :
    entries.arrayLiteral .header = entries.arrayLiteral .array := rfl

/-- The array literal with brackets is the one with braces, turned into brackets throughout. -/
theorem arrayLiteral_rust (entries : Entries) :
    entries.arrayLiteral .rust = (entries.arrayLiteral .array).map bracket := by
  have hseparator : ",\n".map bracket = ",\n" := map_bracket_of_not_mem (by decide) (by decide)
  rw [arrayLiteral, arrayLiteral, map_append, map_append, map_intercalate, hseparator,
    ← literals_rust, map_bracket_opening, map_bracket_closing]

end Entries

/-- What follows the array literal on its last line. -/
def Format.terminator : Format → String
  | .array => ""
  | .header | .rust => ";"

theorem Format.finish_eq (format : Format) :
    format.finish = format.closing ++ format.terminator := by
  cases format <;> rfl

/-- The text of a table is its array literal, after the declaration and between the other lines. -/
theorem Table.text_eq_arrayLiteral (table : Table) (format : Format) :
    table.text format
      = joinLines (table.linesBefore format)
        ++ (table.entries.declaration table.name format ++ table.entries.arrayLiteral format
          ++ format.terminator ++ "\n")
        ++ joinLines (table.linesAfter format) := by
  rw [text_eq_joinLines, arrayLines, joinLines_literalLines, format.finish_eq, Entries.arrayLiteral]
  simp only [String.append_assoc]

/-! ## One entry that differs -/

namespace Entries

/-- The entries are of one type and as many, and differ at one place only. -/
inductive DifferOnlyAt (k : Nat) : Entries → Entries → Prop
  | words {before after : List UInt16} {x y : UInt16} (hplace : before.length = k) (hne : x ≠ y) :
    DifferOnlyAt k (.words (before ++ x :: after)) (.words (before ++ y :: after))
  | rows {before after : List TileRow} {x y : TileRow} (hplace : before.length = k) (hne : x ≠ y) :
    DifferOnlyAt k (.rows (before ++ x :: after)) (.rows (before ++ y :: after))

variable {a b : Entries} {k : Nat}

theorem DifferOnlyAt.declaration_eq (h : DifferOnlyAt k a b) (name : String) (format : Format) :
    a.declaration name format = b.declaration name format := by
  cases h with
  | words =>
    simp only [declaration_words, List.length_append, List.length_cons]
  | rows =>
    simp only [declaration_rows, List.length_append, List.length_cons]

end Entries

/-- Values whose literals a reader tells apart have different literals. -/
theorem Reader.Reads.injective {α : Type} {item : Line → Option (α × Line)} {literal : α → String}
    (h : Reads item literal) {x y : α} (heq : literal x = literal y) : x = y := by
  have hstop : StopsNumber [] := nofun
  have hx := h x hstop
  rw [heq, h y hstop, Option.some_inj, Prod.mk.injEq] at hx
  exact hx.1.symm

/-- Mapped with a function that tells the values apart, lists that differ at one place still do. -/
theorem exists_map_eq_append {α : Type} {f : α → String} {before after : List α} {x y : α} {k : Nat}
    (hf : ∀ {x y}, f x = f y → x = y) (hplace : before.length = k) (hne : x ≠ y) :
    ∃ first last literal literal', first.length = k ∧ literal ≠ literal'
      ∧ (before ++ x :: after).map f = first ++ literal :: last
      ∧ (before ++ y :: after).map f = first ++ literal' :: last := by
  refine ⟨before.map f, after.map f, f x, f y, ?_, fun heq => hne (hf heq), ?_, ?_⟩
  · rw [List.length_map, hplace]
  · rw [List.map_append, List.map_cons]
  · rw [List.map_append, List.map_cons]

/-- Entries that differ at one place have literals that do. -/
theorem Entries.DifferOnlyAt.exists_literals {a b : Entries} {k : Nat} (h : DifferOnlyAt k a b)
    (format : Format) :
    ∃ before after literal literal', before.length = k ∧ literal ≠ literal'
      ∧ a.literals format = before ++ literal :: after
      ∧ b.literals format = before ++ literal' :: after := by
  cases h with
  | words hplace hne => exact exists_map_eq_append Reader.reads_readWord.injective hplace hne
  | rows hplace hne =>
    exact exists_map_eq_append (Reader.reads_readRow format).injective hplace hne

/-- The lines around that of a literal do not depend on it. The induction is on the literals before
it. -/
theorem exists_followingLines_eq (finish : String) (before after : List String) :
    ∃ above below ending, above.length = before.length ∧ ∀ literal,
      followingLines finish (before ++ literal :: after)
        = above ++ (literal ++ ending) :: below := by
  induction before with
  | nil =>
    cases after with
    | nil => exact ⟨[], [], finish, rfl, fun _ => rfl⟩
    | cons next after => exact ⟨[], followingLines finish (next :: after), ",", rfl, fun _ => rfl⟩
  | cons first before ih =>
    obtain ⟨above, below, ending, hlength, hlines⟩ := ih
    refine ⟨(first ++ ",") :: above, below, ending, congrArg Nat.succ hlength, ?_⟩
    intro literal
    have hcons : followingLines finish (first :: (before ++ literal :: after))
        = (first ++ ",") :: followingLines finish (before ++ literal :: after) := by
      cases before <;> rfl
    rw [List.cons_append, hcons, hlines, List.cons_append]

theorem exists_literalLines_eq (start finish : String) (before after : List String) :
    ∃ above below beginning ending, above.length = before.length ∧ ∀ literal,
      literalLines start finish (before ++ literal :: after)
        = above ++ (beginning ++ literal ++ ending) :: below := by
  cases before with
  | nil =>
    obtain ⟨above, below, ending, hlength, hlines⟩ := exists_followingLines_eq finish [] after
    exact ⟨above, below, start, ending, hlength, fun literal => hlines (start ++ literal)⟩
  | cons first before =>
    obtain ⟨above, below, ending, hlength, hlines⟩ :=
      exists_followingLines_eq finish ((start ++ first) :: before) after
    refine ⟨above, below, "", ending, hlength, ?_⟩
    intro literal
    rw [String.empty_append]
    exact hlines literal

namespace Table

/-- Tables that differ in one entry differ in one line. -/
theorem exists_lines_eq {a b : Table} {k : Nat} (hname : a.name = b.name)
    (h : a.entries.DifferOnlyAt k b.entries) (format : Format) :
    ∃ above below line line', above.length = (a.linesBefore format).length + k ∧ line ≠ line'
      ∧ a.lines format = above ++ line :: below ∧ b.lines format = above ++ line' :: below := by
  obtain ⟨before, after, literal, literal', hbefore, hne, ha, hb⟩ := h.exists_literals format
  obtain ⟨above, below, beginning, ending, habove, hlines⟩ :=
    exists_literalLines_eq (a.entries.declaration a.name format ++ format.opening) format.finish
      before after
  have hframe : b.linesBefore format = a.linesBefore format
      ∧ b.linesAfter format = a.linesAfter format := by
    cases format <;> simp only [linesBefore, linesAfter, hname, and_self]
  refine ⟨a.linesBefore format ++ above, below ++ a.linesAfter format,
    beginning ++ literal ++ ending, beginning ++ literal' ++ ending, ?_, ?_, ?_, ?_⟩
  · rw [List.length_append, habove, hbefore]
  · intro heq
    exact hne ((String.append_right_inj _).1 ((String.append_left_inj _).1 heq))
  · rw [lines, arrayLines, ha, hlines]
    simp only [List.append_assoc, List.cons_append]
  · rw [lines, arrayLines, ← h.declaration_eq, ← hname, hb, hlines, hframe.1, hframe.2]
    simp only [List.append_assoc, List.cons_append]

/-! ## All lines of a table -/

/-- Lines that hold the entries of a table, one on each. -/
structure EntryLines (table : Table) (format : Format) (lines : List String) : Prop where
  /-- There is a line for each entry, or one line if there are none. -/
  length_eq : lines.length = max table.entries.length 1
  /-- Each entry has a literal. -/
  length_literals : (table.entries.literals format).length = table.entries.length
  /-- If there are no entries, the line is an array literal without any. -/
  ofEmpty : table.entries.length = 0 →
    lines = [table.entries.declaration table.name format ++ format.opening ++ format.closing
      ++ format.terminator]
  /-- The line of an entry is its literal, after the declaration and the opening if it is the first
  one, and before the closing if it is the last one or else before a comma. -/
  ofEntry : ∀ i literal, (table.entries.literals format)[i]? = some literal →
    lines[i]? = some
      ((if i = 0 then table.entries.declaration table.name format ++ format.opening else "")
        ++ literal
        ++ if i + 1 = table.entries.length then format.closing ++ format.terminator else ",")

theorem entryLines_arrayLines (table : Table) (format : Format) :
    table.EntryLines format (table.arrayLines format) := by
  have hlength := Entries.length_literals format table.entries
  refine ⟨?_, hlength, ?_, ?_⟩
  · rw [arrayLines, length_literalLines, hlength, Nat.max_comm]
  · intro hempty
    rw [hempty, List.length_eq_zero_iff] at hlength
    rw [arrayLines, hlength, literalLines, format.finish_eq, String.append_assoc,
      String.append_assoc, String.append_assoc]
  · intro i literal hliteral
    rw [arrayLines, getElem?_literalLines hliteral, hlength, format.finish_eq]

theorem splitLines_text_eq {table : Table} (h : table.HasPlainName) (format : Format) :
    splitLines (table.text format).toList = (table.lines format).map String.toList ++ [[]] := by
  have hlines := splitLines_text h format []
  rwa [List.append_nil] at hlines

/-- Tables with plain names that differ in one entry are written in texts that differ in one
line. -/
theorem exists_splitLines_eq {a b : Table} {k : Nat} (h : a.HasPlainName) (hname : a.name = b.name)
    (hdiffer : a.entries.DifferOnlyAt k b.entries) (format : Format) :
    ∃ above below line line', above.length = (a.linesBefore format).length + k ∧ line ≠ line'
      ∧ splitLines (a.text format).toList = above ++ line :: below
      ∧ splitLines (b.text format).toList = above ++ line' :: below := by
  obtain ⟨above, below, line, line', habove, hne, ha, hb⟩ := exists_lines_eq hname hdiffer format
  have hb' : b.HasPlainName := by rwa [HasPlainName, ← hname]
  refine ⟨above.map String.toList, below.map String.toList ++ [[]], line.toList, line'.toList, ?_,
    fun heq => hne (String.toList_inj.1 heq), ?_, ?_⟩
  · rw [List.length_map, habove]
  · rw [splitLines_text_eq h, ha, List.map_append, List.map_cons, List.append_assoc,
      List.cons_append]
  · rw [splitLines_text_eq hb', hb, List.map_append, List.map_cons, List.append_assoc,
      List.cons_append]

/-- One entry per line, the same data in every format. Cut at its line ends, the text of a table
with a plain name has a line for each entry, or one if there are none, in a header five lines before
and two after, and nothing after the last line end. A row is eight numbers between commas. The array
literal is the same in the formats with braces, and in the one with brackets it has them in place of
the braces. Tables of one name, type and length that differ in one entry differ in its line only. -/
theorem emit_linePerEntry {table : Table} (h : table.HasPlainName) (format : Format) :
    ∃ (text : String) (before lines after : List String),
      (table.emit format).bytes = text.toUTF8
      ∧ splitLines text.toList = (before ++ lines ++ after).map String.toList ++ [[]]
      ∧ before.length = (if format = .header then 5 else 0)
      ∧ after.length = (if format = .header then 2 else 0)
      ∧ table.EntryLines format lines
      ∧ (∀ row : TileRow, row.toList.length = 8 ∧ splitAtChar ',' (rowNumbers row).toList
        = row.toList.map fun pixel => (Nat.repr pixel.toNat).toList)
      ∧ text = joinLines before
        ++ (table.entries.declaration table.name format ++ table.entries.arrayLiteral format
          ++ format.terminator ++ "\n")
        ++ joinLines after
      ∧ table.entries.arrayLiteral .header = table.entries.arrayLiteral .array
      ∧ table.entries.arrayLiteral .rust = (table.entries.arrayLiteral .array).map bracket
      ∧ ∀ (other : Table) (k : Nat), table.name = other.name →
        table.entries.DifferOnlyAt k other.entries →
        ∃ (text' : String) (above below : List (List Char)) (line line' : List Char),
          (other.emit format).bytes = text'.toUTF8
          ∧ above.length = before.length + k ∧ line ≠ line'
          ∧ splitLines text.toList = above ++ line :: below
          ∧ splitLines text'.toList = above ++ line' :: below := by
  refine ⟨table.text format, table.linesBefore format, table.arrayLines format,
    table.linesAfter format, table.emit_bytes format, splitLines_text_eq h format, ?_, ?_,
    table.entryLines_arrayLines format, ?_, table.text_eq_arrayLiteral format,
    table.entries.arrayLiteral_header, table.entries.arrayLiteral_rust, ?_⟩
  · cases format <;> rfl
  · cases format <;> rfl
  · intro row
    exact ⟨Vector.length_toList, splitAtChar_rowNumbers row⟩
  · intro other k hname hdiffer
    obtain ⟨above, below, line, line', hlines⟩ := exists_splitLines_eq h hname hdiffer format
    exact ⟨other.text format, above, below, line, line', other.emit_bytes format, hlines⟩

/-- Two headers of rows under a name that looks like a declaration differ in the second row. -/
theorem emit_linePerEntry_secondRow :
    HasPlainName ⟨"A[2] = \x7b", .rows [Vector.replicate 8 0, Vector.replicate 8 1]⟩
      ∧ ∃ (text text' : String) (above below : List (List Char)) (line line' : List Char),
        (emit ⟨"A[2] = \x7b", .rows [Vector.replicate 8 0, Vector.replicate 8 1]⟩ .header).bytes
          = text.toUTF8
        ∧ (emit ⟨"A[2] = \x7b", .rows [Vector.replicate 8 0, Vector.replicate 8 255]⟩ .header).bytes
          = text'.toUTF8
        ∧ above.length = 6 ∧ line ≠ line'
        ∧ splitLines text.toList = above ++ line :: below
        ∧ splitLines text'.toList = above ++ line' :: below := by
  have hplain : HasPlainName
      ⟨"A[2] = \x7b", .rows [Vector.replicate 8 0, Vector.replicate 8 1]⟩ := by decide
  obtain ⟨text, before, lines, after, hbytes, -, hbefore, -, -, -, -, -, -, hdiffer⟩ :=
    emit_linePerEntry hplain .header
  have hrows : Entries.DifferOnlyAt 1
      (.rows [Vector.replicate 8 0, Vector.replicate 8 1])
      (.rows [Vector.replicate 8 0, Vector.replicate 8 255]) :=
    @Entries.DifferOnlyAt.rows 1 [Vector.replicate 8 0] [] _ _ rfl (by decide)
  obtain ⟨text', above, below, line, line', hbytes', habove, hlines⟩ :=
    hdiffer ⟨"A[2] = \x7b", .rows [Vector.replicate 8 0, Vector.replicate 8 255]⟩ 1 rfl hrows
  refine ⟨hplain, text, text', above, below, line, line', hbytes, hbytes', ?_, hlines⟩
  rw [habove, hbefore]
  rfl

end Table

end PixelTables

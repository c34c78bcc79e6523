import PixelTables.Proofs.Source.Characters

/-!
# Reading what has been written

The reader finds the lines of a table at the front of any lines, whatever the table is called and
whatever stands after it.

## Main Statements

* `Reader.readBare_lines` — a bare literal is read, with the type of its entries if there are any
* `Reader.readHeader_lines`, `Reader.readItem_lines` — a header and a Rust item are read
* `Reader.readTable_lines` — a table is read off the front of some lines
-/

namespace PixelTables

namespace Reader

/-! ## Bare literals -/

theorem exists_firstLine_eq_append (finish literal : String) (literals : List String) :
    ∃ ending, firstLine finish (literal :: literals) = literal ++ ending := by
  cases literals with
  | nil => exact ⟨finish, rfl⟩
  | cons next literals => exact ⟨",", rfl⟩

/-- Whether a bare literal has rows shows in what follows its opening. -/
theorem isSome_dropStart?_firstLine (entries : Entries) (h : entries.length ≠ 0) :
    (dropStart? Format.array.opening.toList
      (firstLine Format.array.finish (entries.literals .array)).toList).isSome
      = areRows entries := by
  cases entries with
  | words values =>
    cases values with
    | nil => exact absurd rfl h
    | cons word values =>
      obtain ⟨ending, hline⟩ := exists_firstLine_eq_append Format.array.finish
        (Nat.repr word.toNat) (values.map fun word => Nat.repr word.toNat)
      obtain ⟨digit, digits, hdigits, hdigit⟩ := exists_digit_cons_repr word.toNat
      have hne : '\x7b' ≠ digit := by
        rintro rfl
        revert hdigit
        decide
      rw [Entries.literals, List.map_cons, hline, String.toList_append, hdigits]
      simp [Format.opening, dropStart?, hne, areRows]
  | rows values =>
    cases values with
    | nil => exact absurd rfl h
    | cons row values =>
      obtain ⟨ending, hline⟩ := exists_firstLine_eq_append Format.array.finish
        (rowLiteral .array row) (values.map (rowLiteral .array))
      have hliterals : (Entries.rows (row :: values)).literals .array
          = rowLiteral .array row :: values.map (rowLiteral .array) := rfl
      rw [hliterals, hline, rowLiteral]
      simp only [String.toList_append, List.append_assoc, dropStart?_append]
      rfl

theorem firstLine_eq_finish_iff (format : Format) (entries : Entries) :
    (firstLine format.finish (entries.literals format)).toList = format.finish.toList
      ↔ entries.length = 0 := by
  cases entries with
  | words values =>
    cases values with
    | nil => simp [Entries.literals, firstLine, Entries.length]
    | cons word values =>
      have hne := firstLine_ne_finish reads_readWord (finishes_readWord format) word values
      exact ⟨fun h => absurd h hne, fun h => absurd h (Nat.succ_ne_zero _)⟩
  | rows values =>
    cases values with
    | nil => simp [Entries.literals, firstLine, Entries.length]
    | cons row values =>
      have hne := firstLine_ne_finish (reads_readRow format) (finishes_readRow format) row values
      exact ⟨fun h => absurd h hne, fun h => absurd h (Nat.succ_ne_zero _)⟩

theorem literals_of_length_eq_zero (format : Format) {entries : Entries}
    (h : entries.length = 0) : entries.literals format = [] := by
  cases entries with
  | words values => simp [Entries.literals, List.length_eq_zero_iff.1 h]
  | rows values => simp [Entries.literals, List.length_eq_zero_iff.1 h]

/-- A bare literal is read back. -/
theorem readBare_lines (entries : Entries) (rest : List Line) :
    readBare (Format.array.opening.toList
          ++ (firstLine Format.array.finish (entries.literals .array)).toList)
        ((otherLines Format.array.finish (entries.literals .array)).map String.toList ++ rest)
      = some (⟨.array, none, if entries.length = 0 then none else some entries⟩, rest) := by
  rw [readBare, dropStart?_append]
  simp only [Option.bind_eq_bind, Option.bind_some, firstLine_eq_finish_iff]
  split
  · rename_i h
    rw [literals_of_length_eq_zero .array h]
    rfl
  · rename_i h
    rw [isSome_dropStart?_firstLine entries h, readEntries_lines]
    rfl

theorem readDimensions_append (dimensions : List Char) (count : Nat) (line : Line) :
    readDimensions dimensions ((Nat.repr count).toList
        ++ ("]".toList ++ dimensions ++ " = ".toList ++ (Format.header.opening.toList ++ line)))
      = some (count, line) := by
  have hstop : StopsNumber ("]".toList ++ dimensions ++ " = ".toList
      ++ (Format.header.opening.toList ++ line)) := stopsNumber_cons (by decide)
  rw [readDimensions, readNumber_repr count hstop]
  simp only [Option.bind_eq_bind, Option.bind_some, dropStart?_append]
  rfl

/-- The declaration in a header is read back, whatever the name is. -/
theorem readHeaderDeclaration_declaration (entries : Entries) (name : String) (line : Line) :
    readHeaderDeclaration name.toList ((entries.declaration name .header).toList
        ++ (Format.header.opening.toList ++ line))
      = some (areRows entries, entries.length, line) := by
  cases entries with
  | words values =>
    have hline : ((Entries.words values).declaration name .header).toList
          ++ (Format.header.opening.toList ++ line)
        = "static constexpr ".toList ++ (("uint16_t ".toList ++ name.toList ++ "[".toList)
          ++ ((Nat.repr values.length).toList ++ ("]".toList ++ [] ++ " = ".toList
            ++ (Format.header.opening.toList ++ line)))) := by
      dsimp only [Entries.declaration]
      simp
    rw [hline, readHeaderDeclaration, dropStart?_append]
    simp only [Option.bind_eq_bind, Option.bind_some, dropStart?_append, readDimensions_append]
    rfl
  | rows values =>
    have hline : ((Entries.rows values).declaration name .header).toList
          ++ (Format.header.opening.toList ++ line)
        = "static constexpr ".toList ++ (("uint8_t ".toList ++ name.toList ++ "[".toList)
          ++ ((Nat.repr values.length).toList ++ ("]".toList ++ "[8]".toList ++ " = ".toList
            ++ (Format.header.opening.toList ++ line)))) := by
      dsimp only [Entries.declaration]
      simp
    have hnone : ∀ rest : Line, dropStart? ("uint16_t ".toList ++ name.toList ++ "[".toList)
        (("uint8_t ".toList ++ name.toList ++ "[".toList) ++ rest) = none := by
      intro rest
      simp [dropStart?]
    rw [hline, readHeaderDeclaration, dropStart?_append]
    simp only [Option.bind_eq_bind, Option.bind_some, hnone, dropStart?_append,
      readDimensions_append]
    rfl

/-- What a Rust item declares after its name is read back, and it has one colon only. -/
theorem exists_itemType (entries : Entries) :
    ∃ type, (∀ name : String, (entries.declaration name .rust).toList
        = "pub static ".toList ++ (name.toList ++ (": [".toList ++ type)))
      ∧ ':' ∉ type
      ∧ ∀ line, readItemType (type ++ (Format.rust.opening.toList ++ line))
        = some (areRows entries, entries.length, line) := by
  have hstop : ∀ line, StopsNumber ("] = ".toList ++ (Format.rust.opening.toList ++ line)) :=
    fun line => stopsNumber_cons (by decide)
  cases entries with
  | words values =>
    refine ⟨"u16; ".toList ++ ((Nat.repr values.length).toList ++ "] = ".toList), ?_, ?_, ?_⟩
    · intro name
      dsimp only [Entries.declaration]
      simp
    · have hcolon := not_mem_repr (c := ':') rfl values.length
      simp only [List.mem_append, hcolon]
      decide
    · intro line
      simp only [List.append_assoc, readItemType, dropStart?_append, Option.bind_eq_bind,
        Option.bind_some, readNumber_repr _ (hstop line)]
      rfl
  | rows values =>
    refine ⟨"[u8; 8]; ".toList ++ ((Nat.repr values.length).toList ++ "] = ".toList), ?_, ?_, ?_⟩
    · intro name
      dsimp only [Entries.declaration]
      simp
    · have hcolon := not_mem_repr (c := ':') rfl values.length
      simp only [List.mem_append, hcolon]
      decide
    · intro line
      have hnone : ∀ rest : Line, dropStart? "u16; ".toList ("[u8; 8]; ".toList ++ rest) = none :=
        fun rest => rfl
      simp only [List.append_assoc, readItemType, hnone, dropStart?_append, Option.map_some,
        Option.bind_eq_bind, Option.bind_some, readNumber_repr _ (hstop line)]
      rfl

/-- A Rust item is read back, whatever the name is. -/
theorem readItem_lines (entries : Entries) (name : String) (rest : List Line) :
    ∃ item, (entries.declaration name .rust).toList ++ (Format.rust.opening.toList
          ++ (firstLine Format.rust.finish (entries.literals .rust)).toList)
        = "pub static ".toList ++ item
      ∧ readItem item
          ((otherLines Format.rust.finish (entries.literals .rust)).map String.toList ++ rest)
        = some (⟨.rust, some name, some entries⟩, rest) := by
  obtain ⟨type, hdeclaration, hcolon, htype⟩ := exists_itemType entries
  have hafter : ':' ∉ type ++ (Format.rust.opening.toList
      ++ (firstLine Format.rust.finish (entries.literals .rust)).toList) := by
    intro hmem
    simp only [List.mem_append, hcolon, false_or] at hmem
    rcases hmem with hmem | hmem
    · revert hmem
      decide
    · have hchar := isArrayChar_of_mem_line List.mem_cons_self hmem
      revert hchar
      decide
  refine ⟨name.toList ++ (": [".toList ++ (type ++ (Format.rust.opening.toList
    ++ (firstLine Format.rust.finish (entries.literals .rust)).toList))), ?_, ?_⟩
  · rw [hdeclaration]
    simp only [List.append_assoc]
  · have hseparator : ": [".toList = ':' :: [' ', '['] := rfl
    rw [readItem, hseparator, cutLast?_append name.toList (by decide) hafter]
    simp only [Option.bind_eq_bind, Option.bind_some, htype, readDeclared_lines,
      String.ofList_toList]
    rfl

/-- A header is read back from its second line on, whatever the name is. -/
theorem readHeader_lines (entries : Entries) (name : String) (rest : List Line) :
    readHeader name.toList
        (("#define ".toList ++ name.toList ++ "_H".toList) :: [] :: "#include <cstdint>".toList
          :: [] :: ((entries.declaration name .header).toList ++ (Format.header.opening.toList
            ++ (firstLine Format.header.finish (entries.literals .header)).toList))
          :: ((otherLines Format.header.finish (entries.literals .header)).map String.toList
            ++ ([] :: ("#endif // ".toList ++ name.toList ++ "_H".toList) :: rest)))
      = some (⟨.header, some name, some entries⟩, rest) := by
  rw [readHeader, if_pos ⟨rfl, rfl, rfl, rfl⟩, readHeaderDeclaration_declaration]
  simp only [Option.bind_eq_bind, Option.bind_some, readDeclared_lines, and_self, if_true,
    String.ofList_toList]
  rfl

/-- A table is read off the front of some lines, whatever its name is and whatever lines follow.
What is read is what the text of the table tells. -/
theorem readTable_lines (table : Table) (format : Format) (rest : List Line) :
    readTable ((table.lines format).map String.toList ++ rest)
      = some (table.reading format, rest) := by
  obtain ⟨name, entries⟩ := table
  cases format with
  | array =>
    have hlines : ((⟨name, entries⟩ : Table).lines .array).map String.toList ++ rest
        = (Format.array.opening.toList
            ++ (firstLine Format.array.finish (entries.literals .array)).toList)
          :: ((otherLines Format.array.finish (entries.literals .array)).map String.toList
            ++ rest) := by
      have hdeclaration : entries.declaration name .array = "" := rfl
      simp [Table.lines, Table.linesBefore, Table.linesAfter, Table.arrayLines, literalLines_eq,
        hdeclaration]
    rw [hlines]
    exact readBare_lines entries rest
  | header =>
    have hlines : ((⟨name, entries⟩ : Table).lines .header).map String.toList ++ rest
        = ("#ifndef ".toList ++ (name.toList ++ "_H".toList))
          :: ("#define ".toList ++ name.toList ++ "_H".toList) :: [] :: "#include <cstdint>".toList
          :: [] :: ((entries.declaration name .header).toList ++ (Format.header.opening.toList
            ++ (firstLine Format.header.finish (entries.literals .header)).toList))
          :: ((otherLines Format.header.finish (entries.literals .header)).map String.toList
            ++ ([] :: ("#endif // ".toList ++ name.toList ++ "_H".toList) :: rest)) := by
      simp [Table.lines, Table.linesBefore, Table.linesAfter, Table.arrayLines, literalLines_eq]
    rw [hlines, readTable, dropStart?_append]
    simp only [dropEnd?_append, Option.bind_some, readHeader_lines]
    rfl
  | rust =>
    obtain ⟨item, hitem, hread⟩ := readItem_lines entries name rest
    have hlines : ((⟨name, entries⟩ : Table).lines .rust).map String.toList ++ rest
        = ("pub static ".toList ++ item)
          :: ((otherLines Format.rust.finish (entries.literals .rust)).map String.toList
            ++ rest) := by
      rw [← hitem]
      simp [Table.lines, Table.linesBefore, Table.linesAfter, Table.arrayLines, literalLines_eq]
    have hguard : dropStart? "#ifndef ".toList ("pub static ".toList ++ item) = none := rfl
    rw [hlines, readTable, hguard]
    simp only [dropStart?_append, hread]
    rfl

end Reader

end PixelTables

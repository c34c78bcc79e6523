import PixelTables.Source.Lines

/-!
# What an emission writes

A table is emitted as a list of pieces that are written one after another. The pieces do not
depend on the sink, and put together they are the text of the table. So what a sink makes of a
table is known once it is known what the sink makes of a list of pieces.

## Main Definitions

* `putAll` — pieces written one after another
* `Table.pieces` — the pieces in which a table is written
* `joinLines` — the text of some lines

## Main Statements

* `Table.emit_eq_putAll` — a table is emitted piece by piece, whatever the sink
* `Table.join_pieces` — the pieces of a table make up its text
* `Table.emit_bytes` — memory receives the bytes of the text
-/

namespace PixelTables

section

variable {σ α : Type} [Sink σ]

/-- Write pieces of text one after another. -/
def putAll : List String → Emission σ Unit
  | [] => pure ()
  | piece :: pieces => do
    put piece
    putAll pieces

theorem putAll_cons (piece : String) (pieces : List String) :
    (putAll (piece :: pieces) : Emission σ Unit) = (do put piece; putAll pieces) := rfl

theorem putAll_singleton (piece : String) :
    (putAll [piece] : Emission σ Unit) = put piece := by
  rw [putAll_cons, putAll]
  exact bind_pure_unit

theorem putAll_append (pieces others : List String) :
    (putAll (pieces ++ others) : Emission σ Unit) = (do putAll pieces; putAll others) := by
  induction pieces with
  | nil => simp [putAll]
  | cons piece pieces ih => rw [List.cons_append, putAll_cons, putAll_cons, ih, bind_assoc]

/-- The pieces of items, each after a separator. -/
def followingPieces (separator : String) (pieces : α → List String) (xs : List α) :
    List String :=
  xs.flatMap fun x => separator :: pieces x

/-- The pieces of items with a separator between each two. -/
def separatedPieces (separator : String) (pieces : α → List String) : List α → List String
  | [] => []
  | x :: xs => pieces x ++ followingPieces separator pieces xs

theorem putFollowing_eq_putAll {separator : String} {item : α → Emission σ Unit}
    {pieces : α → List String} (h : ∀ x, item x = putAll (pieces x)) (xs : List α) :
    putFollowing separator item xs = putAll (followingPieces separator pieces xs) := by
  induction xs with
  | nil => rfl
  | cons x xs ih =>
    have hcons : followingPieces separator pieces (x :: xs)
        = separator :: (pieces x ++ followingPieces separator pieces xs) := rfl
    rw [hcons, putAll_cons, putAll_append, ← ih, ← h x]
    rfl

theorem putSeparated_eq_putAll {separator : String} {item : α → Emission σ Unit}
    {pieces : α → List String} (h : ∀ x, item x = putAll (pieces x)) (xs : List α) :
    putSeparated separator item xs = putAll (separatedPieces separator pieces xs) := by
  cases xs with
  | nil => rfl
  | cons x xs =>
    rw [separatedPieces, putAll_append, ← putFollowing_eq_putAll h, ← h x]
    rfl

/-- Put together, the pieces of items are the texts of the items with the separator between. -/
theorem join_separatedPieces (separator : String) (pieces : α → List String) (xs : List α) :
    String.join (separatedPieces separator pieces xs) =
      separator.intercalate (xs.map fun x => String.join (pieces x)) := by
  cases xs with
  | nil => simp [separatedPieces]
  | cons x xs =>
    rw [separatedPieces, String.join_append]
    induction xs generalizing x with
    | nil => simp [followingPieces]
    | cons y ys ih =>
      have hcons : followingPieces separator pieces (y :: ys)
          = separator :: (pieces y ++ followingPieces separator pieces ys) := rfl
      rw [hcons, String.join_cons, String.join_append, ih y]
      simp only [List.map_cons, String.intercalate_cons_cons, String.append_assoc]

end

/-! ## The pieces of a table -/

/-- An entry type with the pieces in which its literals are written. -/
class Piecewise (α : Type) [Entry α] where
  /-- The pieces of a literal. -/
  pieces : Format → α → List String
  /-- A literal is written in these pieces, whatever the sink. -/
  putLiteral_eq : ∀ {σ : Type} [Sink σ] (format : Format) (x : α),
    (Entry.putLiteral format x : Emission σ Unit) = putAll (pieces format x)

/-- A word is written in one piece. -/
instance : Piecewise UInt16 where
  pieces _ word := [Nat.repr word.toNat]
  putLiteral_eq _ word := (putAll_singleton (Nat.repr word.toNat)).symm

/-- A row is written number by number between its delimiters. -/
instance : Piecewise TileRow where
  pieces format row :=
    format.opening :: (separatedPieces "," (fun pixel => [Nat.repr pixel.toNat]) row.toList
      ++ [format.closing])
  putLiteral_eq format row := by
    rw [putAll_cons, putAll_append, putAll_singleton, ← putSeparated_eq_putAll fun pixel =>
      (putAll_singleton (Nat.repr (UInt8.toNat pixel))).symm]
    rfl

section

variable {σ α : Type} [Sink σ] [Entry α] [Piecewise α]

/-- The pieces of an array literal. -/
def arrayPieces (format : Format) (entries : List α) : List String :=
  format.opening :: (separatedPieces ",\n" (Piecewise.pieces format) entries ++ [format.closing])

/-- The pieces of a table with a name. -/
def tablePieces (name : String) (entries : List α) : Format → List String
  | .array => arrayPieces .array entries ++ ["\n"]
  | .header =>
    ["#ifndef ", name, "_H\n", "#define ", name, "_H\n", "\n", "#include <cstdint>\n", "\n",
        "static constexpr ", Entry.cType α, " ", name, "[", Nat.repr entries.length, "]",
        Entry.cDimensions α, " = "]
      ++ (arrayPieces .header entries ++ [";\n", "\n", "#endif // ", name, "_H\n"])
  | .rust =>
    ["pub static ", name, ": [", Entry.rustType α, "; ", Nat.repr entries.length, "] = "]
      ++ (arrayPieces .rust entries ++ [";\n"])

theorem putArray_eq_putAll (format : Format) (entries : List α) :
    (putArray format entries : Emission σ Unit) = putAll (arrayPieces format entries) := by
  rw [arrayPieces, putAll_cons, putAll_append, putAll_singleton,
    ← putSeparated_eq_putAll (Piecewise.putLiteral_eq format)]
  rfl

theorem putTable_eq_putAll (name : String) (entries : List α) (format : Format) :
    (putTable name entries format : Emission σ Unit)
      = putAll (tablePieces name entries format) := by
  cases format with
  | array =>
    rw [tablePieces, putAll_append, putAll_singleton, ← putArray_eq_putAll]
    rfl
  | header =>
    rw [tablePieces, putAll_append, putAll_append, ← putArray_eq_putAll]
    simp only [putAll, bind_assoc, pure_bind]
    simp only [putTable, bind_pure_unit]
  | rust =>
    rw [tablePieces, putAll_append, putAll_append, ← putArray_eq_putAll]
    simp only [putAll, bind_assoc, pure_bind]
    simp only [putTable, bind_pure_unit]

end

namespace Table

/-- The pieces in which a table is written. -/
def pieces (table : Table) (format : Format) : List String :=
  match table.entries with
  | .words values => tablePieces table.name values format
  | .rows values => tablePieces table.name values format

/-- A table is emitted piece by piece, whatever the sink. -/
theorem emit_eq_putAll {σ : Type} [Sink σ] (table : Table) (format : Format) :
    (table.emit format : Emission σ Unit) = putAll (table.pieces format) := by
  obtain ⟨name, entries⟩ := table
  cases entries with
  | words values => exact putTable_eq_putAll name values format
  | rows values => exact putTable_eq_putAll name values format

end Table

/-! ## The text that the pieces make up -/

/-- The text of some lines. -/
def joinLines (lines : List String) : String :=
  String.join (lines.map fun line => line ++ "\n")

@[simp] theorem joinLines_nil : joinLines [] = "" := rfl

@[simp] theorem joinLines_cons (line : String) (lines : List String) :
    joinLines (line :: lines) = line ++ "\n" ++ joinLines lines := by
  simp [joinLines]

theorem joinLines_followingLines (finish literal : String) (literals : List String) :
    joinLines (followingLines finish (literal :: literals)) =
      ",\n".intercalate (literal :: literals) ++ (finish ++ "\n") := by
  induction literals generalizing literal with
  | nil => simp [followingLines, String.append_assoc]
  | cons next literals ih =>
    have hsep : ",\n" = "," ++ "\n" := rfl
    rw [followingLines, joinLines_cons, ih, String.intercalate_cons_cons, hsep]
    · simp only [String.append_assoc]
    · simp

/-- The text of an array literal's lines. -/
theorem joinLines_literalLines (start finish : String) (literals : List String) :
    joinLines (literalLines start finish literals) =
      start ++ ",\n".intercalate literals ++ (finish ++ "\n") := by
  cases literals with
  | nil => simp [literalLines, String.append_assoc]
  | cons literal literals =>
    rw [literalLines, joinLines_followingLines]
    cases literals <;> simp [String.intercalate_cons_cons, String.append_assoc]

theorem length_followingLines (finish : String) (literals : List String) :
    (followingLines finish literals).length = literals.length := by
  induction literals with
  | nil => rfl
  | cons literal literals ih =>
    cases literals with
    | nil => rfl
    | cons next literals =>
      have hcons : followingLines finish (literal :: next :: literals)
          = (literal ++ ",") :: followingLines finish (next :: literals) := rfl
      rw [hcons, List.length_cons, ih]
      rfl

/-- An array literal has a line for each entry, or one line if there are none. -/
theorem length_literalLines (start finish : String) (literals : List String) :
    (literalLines start finish literals).length = max 1 literals.length := by
  cases literals with
  | nil => rfl
  | cons literal literals =>
    rw [literalLines, length_followingLines, List.length_cons, List.length_cons]
    omega

theorem Entries.length_literals (format : Format) (entries : Entries) :
    (entries.literals format).length = entries.length := by
  cases entries <;> simp [literals, length]

@[simp] theorem cType_word : Entry.cType UInt16 = "uint16_t" := rfl

@[simp] theorem cDimensions_word : Entry.cDimensions UInt16 = "" := rfl

@[simp] theorem rustType_word : Entry.rustType UInt16 = "u16" := rfl

@[simp] theorem cType_row : Entry.cType TileRow = "uint8_t" := rfl

@[simp] theorem cDimensions_row : Entry.cDimensions TileRow = "[8]" := rfl

@[simp] theorem rustType_row : Entry.rustType TileRow = "[u8; 8]" := rfl

/-- The declaration of a constant, put together from what its entry type says of itself. -/
def declarationOf (α : Type) [Entry α] (name : String) (count : Nat) : Format → String
  | .array => ""
  | .header =>
    "static constexpr " ++ Entry.cType α ++ " " ++ name ++ "[" ++ Nat.repr count ++ "]"
      ++ Entry.cDimensions α ++ " = "
  | .rust =>
    "pub static " ++ name ++ ": [" ++ Entry.rustType α ++ "; " ++ Nat.repr count ++ "] = "

theorem Table.text_eq_joinLines (table : Table) (format : Format) :
    table.text format = joinLines (table.linesBefore format)
      ++ joinLines (table.arrayLines format) ++ joinLines (table.linesAfter format) := by
  simp [text, joinLines, lines, String.append_assoc]

theorem join_arrayPieces {α : Type} [Entry α] [Piecewise α] (format : Format)
    (entries : List α) :
    String.join (arrayPieces format entries) =
      format.opening
        ++ (",\n".intercalate
            (entries.map fun x => String.join (Piecewise.pieces format x))
          ++ format.closing) := by
  rw [arrayPieces, String.join_cons, String.join_append, join_separatedPieces, String.join_cons,
    String.join_nil, String.append_empty]

/-- The pieces of a table with a name make up the lines of its frame and of its array. -/
theorem join_tablePieces {α : Type} [Entry α] [Piecewise α] (name : String) (entries : List α)
    (table : Table) (format : Format) (hname : table.name = name)
    (hliterals : (entries.map fun x => String.join (Piecewise.pieces format x))
      = table.entries.literals format)
    (hdeclaration : table.entries.declaration name format
      = declarationOf α name entries.length format) :
    String.join (tablePieces name entries format) = table.text format := by
  have hguard : "_H\n" = "_H" ++ "\n" := rfl
  have hinclude : "#include <cstdint>\n" = "#include <cstdint>" ++ "\n" := rfl
  have hend : ";\n" = ";" ++ "\n" := rfl
  have hempty : "" ++ "\n" = "\n" := rfl
  rw [Table.text_eq_joinLines, Table.arrayLines, joinLines_literalLines, ← hliterals, hname,
    hdeclaration]
  cases format <;> dsimp only [declarationOf] <;>
    simp only [tablePieces, String.join_append, String.join_cons, String.join_nil,
      join_arrayPieces, Table.linesBefore, Table.linesAfter, joinLines_cons, joinLines_nil,
      Format.finish, String.append_assoc, String.append_empty, String.empty_append, hname, hguard,
      hinclude, hend, hempty]

namespace Entries

theorem join_word_pieces (format : Format) (values : List UInt16) :
    (values.map fun word => String.join (Piecewise.pieces format word))
      = (words values).literals format := by
  simp [Piecewise.pieces, literals]

theorem join_row_pieces (format : Format) (values : List TileRow) :
    (values.map fun row => String.join (Piecewise.pieces format row))
      = (rows values).literals format := by
  simp [Piecewise.pieces, literals, rowNumbers, join_separatedPieces, String.append_assoc]

theorem declaration_words (name : String) (values : List UInt16) (format : Format) :
    (words values).declaration name format = declarationOf UInt16 name values.length format := by
  have hstatic : "static constexpr uint16_t " = "static constexpr " ++ "uint16_t" ++ " " := rfl
  have hbracket : "] = " = "]" ++ "" ++ " = " := rfl
  have hcolon : ": [u16; " = ": [" ++ "u16" ++ "; " := rfl
  cases format with
  | array => rfl
  | header =>
    dsimp only [declaration, declarationOf]
    simp only [hstatic, hbracket, cType_word, cDimensions_word, String.append_assoc]
  | rust =>
    dsimp only [declaration, declarationOf]
    simp only [hcolon, rustType_word, String.append_assoc]

theorem declaration_rows (name : String) (values : List TileRow) (format : Format) :
    (rows values).declaration name format = declarationOf TileRow name values.length format := by
  have hstatic : "static constexpr uint8_t " = "static constexpr " ++ "uint8_t" ++ " " := rfl
  have hbracket : "][8] = " = "]" ++ "[8]" ++ " = " := rfl
  have hcolon : ": [[u8; 8]; " = ": [" ++ "[u8; 8]" ++ "; " := rfl
  cases format with
  | array => rfl
  | header =>
    dsimp only [declaration, declarationOf]
    simp only [hstatic, hbracket, cType_row, cDimensions_row, String.append_assoc]
  | rust =>
    dsimp only [declaration, declarationOf]
    simp only [hcolon, rustType_row, String.append_assoc]

end Entries

namespace Table

/-- The pieces of a table make up its text. -/
theorem join_pieces (table : Table) (format : Format) :
    String.join (table.pieces format) = table.text format := by
  obtain ⟨name, entries⟩ := table
  cases entries with
  | words values =>
    exact join_tablePieces name values _ format rfl (Entries.join_word_pieces format values)
      (Entries.declaration_words name values format)
  | rows values =>
    exact join_tablePieces name values _ format rfl (Entries.join_row_pieces format values)
      (Entries.declaration_rows name values format)

end Table

/-! ## Emission to memory -/

theorem toUTF8_append (s t : String) : (s ++ t).toUTF8 = s.toUTF8 ++ t.toUTF8 :=
  String.toByteArray_append

/-- Memory takes all pieces and never fails. -/
theorem putAll_memory (pieces : List String) (taken : ByteArray) :
    putAll pieces taken = .ok () (taken ++ (String.join pieces).toUTF8) := by
  induction pieces generalizing taken with
  | nil => simp [putAll, pure, EStateM.pure]
  | cons piece pieces ih =>
    have hput : put piece taken = .ok () (taken ++ piece.toUTF8) := rfl
    have hbind : (putAll (piece :: pieces) : Emission ByteArray Unit) taken
        = putAll pieces (taken ++ piece.toUTF8) := by
      rw [putAll_cons]
      simp only [bind, EStateM.bind, hput]
    rw [hbind, ih, String.join_cons, toUTF8_append, ByteArray.append_assoc]

namespace Table

/-- Memory receives the bytes of the text, and the emission succeeds. -/
theorem emit_memory (table : Table) (format : Format) (taken : ByteArray) :
    table.emit format taken = .ok () (taken ++ (table.text format).toUTF8) := by
  rw [emit_eq_putAll, putAll_memory, join_pieces]

/-- The bytes of an emission to memory are those of the text. -/
theorem emit_bytes (table : Table) (format : Format) :
    (table.emit format).bytes = (table.text format).toUTF8 := by
  simp [Emission.bytes, emit_memory]

end Table

end PixelTables

import PixelTables.Source.Lines

/-!
# Reading emitted tables

A reader of emitted source text. It works on lines, takes one table off the front and leaves the
lines after it, so that tables which follow one another can be read in turn.

## Main Definitions

* `Reading`, `Table.reading` — what the text of a table tells
* `Reader.readTable` — a table off the front of some lines
* `Reader.readSeries` — tables with an empty line between each two

## Design Notes

A bare literal carries no name, and an empty one does not tell what its entries would be. A
declaration carries both, and the number of entries, which must be the true one. A name can be any
text of one line. In a Rust item it ends where the last `: [` of its line begins, because what may
follow a name holds no second one.
-/

namespace PixelTables

/-- What the text of a table tells. -/
structure Reading where
  /-- The format it is written in. -/
  format : Format
  /-- The declared name. -/
  name? : Option String
  /-- The entries, unless none are there and nothing tells of which type they would be. -/
  entries? : Option Entries
  deriving DecidableEq

/-- What the text of a table tells of it. -/
def Table.reading (table : Table) (format : Format) : Reading :=
  match format with
  | .array =>
    ⟨.array, none, if table.entries.length = 0 then none else some table.entries⟩
  | .header | .rust => ⟨format, some table.name, some table.entries⟩

namespace Reader

/-- One line of a text, without its line end. -/
abbrev Line := List Char

/-- What follows a given beginning. -/
def dropStart? : List Char → Line → Option Line
  | [], line => some line
  | _ :: _, [] => none
  | c :: start, d :: line => if c = d then dropStart? start line else none

/-- What precedes a given end. -/
def dropEnd? (ending : List Char) (line : Line) : Option Line :=
  (dropStart? ending.reverse line.reverse).map List.reverse

/-- What stands before and after the last occurrence of a separator. -/
def cutLast? (separator : List Char) : Line → Option (Line × Line)
  | [] => none
  | c :: line =>
    match cutLast? separator line with
    | some (before, after) => some (c :: before, after)
    | none => (dropStart? separator (c :: line)).map fun after => ([], after)

/-! ## Literals -/

/-- A decimal number and what follows it. -/
def readNumber (line : Line) : Option (Nat × Line) :=
  let digits := line.takeWhile Char.isDigit
  if digits = [] then none
  else some (Nat.ofDigitChars 10 digits 0, line.dropWhile Char.isDigit)

/-- A number that fits a word. -/
def readWord (line : Line) : Option (UInt16 × Line) :=
  match readNumber line with
  | some (n, rest) => if n < 65536 then some (UInt16.ofNat n, rest) else none
  | none => none

/-- A number that fits a byte. -/
def readByte (line : Line) : Option (UInt8 × Line) :=
  match readNumber line with
  | some (n, rest) => if n < 256 then some (UInt8.ofNat n, rest) else none
  | none => none

/-- A number of bytes, each after a comma. -/
def readFollowingBytes : Nat → Line → Option (List UInt8 × Line)
  | 0, line => some ([], line)
  | count + 1, line => do
    let line ← dropStart? [','] line
    let (byte, line) ← readByte line
    let (bytes, line) ← readFollowingBytes count line
    return (byte :: bytes, line)

/-- The eight numbers of a row between its delimiters. -/
def readRow (format : Format) (line : Line) : Option (TileRow × Line) := do
  let line ← dropStart? format.opening.toList line
  let (first, line) ← readByte line
  let (following, line) ← readFollowingBytes (TileRow.width - 1) line
  let line ← dropStart? format.closing.toList line
  if h : (first :: following).toArray.size = TileRow.width then
    return (⟨(first :: following).toArray, h⟩, line)
  else none

/-! ## Arrays -/

/-- The entries of an array, one a line, until a line ends with what finishes the array. The
entries read so far are given last to first. -/
def readItems {α : Type} (item : Line → Option (α × Line)) (finish : Line) (sofar : List α) :
    List Line → Option (List α × List Line)
  | [] => none
  | line :: lines =>
    match item line with
    | none => none
    | some (x, rest) =>
      if rest = [','] then readItems item finish (x :: sofar) lines
      else if rest = finish then some ((x :: sofar).reverse, lines)
      else none

/-- The entries of an array whose first line, after the opening, is given apart. -/
def readArray {α : Type} (item : Line → Option (α × Line)) (finish first : Line)
    (lines : List Line) : Option (List α × List Line) :=
  if first = finish then some ([], lines)
  else readItems item finish [] (first :: lines)

/-- The entries of an array of words or of rows. -/
def readEntries (format : Format) (areRows : Bool) (first : Line) (lines : List Line) :
    Option (Entries × List Line) :=
  if areRows then
    (readArray (readRow format) format.finish.toList first lines).map fun (values, lines) =>
      (.rows values, lines)
  else
    (readArray readWord format.finish.toList first lines).map fun (values, lines) =>
      (.words values, lines)

/-- The entries of a declared array, of which there must be as many as declared. -/
def readDeclared (format : Format) (areRows : Bool) (count : Nat) (first : Line)
    (lines : List Line) : Option (Entries × List Line) := do
  let (entries, lines) ← readEntries format areRows first lines
  if entries.length = count then return (entries, lines) else none

/-! ## Tables -/

/-- A bare array literal. -/
def readBare (first : Line) (lines : List Line) : Option (Reading × List Line) := do
  let first ← dropStart? Format.array.opening.toList first
  if first = Format.array.finish.toList then return (⟨.array, none, none⟩, lines)
  else
    let areRows := (dropStart? Format.array.opening.toList first).isSome
    let (entries, lines) ← readEntries .array areRows first lines
    return (⟨.array, none, some entries⟩, lines)

/-- The number of entries that a header declares, and what follows the opening of the array. -/
def readDimensions (dimensions : List Char) (line : Line) : Option (Nat × Line) := do
  let (count, line) ← readNumber line
  let line ← dropStart? ("]".toList ++ dimensions ++ " = ".toList) line
  let line ← dropStart? Format.header.opening.toList line
  return (count, line)

/-- The declaration in a header of a constant with a known name: whether its entries are rows,
their number, and what follows the opening of the array. -/
def readHeaderDeclaration (name : List Char) (line : Line) : Option (Bool × Nat × Line) := do
  let line ← dropStart? "static constexpr ".toList line
  match dropStart? ("uint16_t ".toList ++ name ++ "[".toList) line with
  | some line => (readDimensions [] line).map fun (count, line) => (false, count, line)
  | none => do
    let line ← dropStart? ("uint8_t ".toList ++ name ++ "[".toList) line
    (readDimensions "[8]".toList line).map fun (count, line) => (true, count, line)

/-- A header after its first line, the name being known from that. -/
def readHeader (name : List Char) : List Line → Option (Reading × List Line)
  | define :: blank :: directive :: blank' :: declaration :: lines => do
    if define = "#define ".toList ++ name ++ "_H".toList ∧ blank = []
        ∧ directive = "#include <cstdint>".toList ∧ blank' = [] then
      let (areRows, count, first) ← readHeaderDeclaration name declaration
      let (entries, lines) ← readDeclared .header areRows count first lines
      match lines with
      | blank :: guard :: lines =>
        if blank = [] ∧ guard = "#endif // ".toList ++ name ++ "_H".toList then
          return (⟨.header, some (String.ofList name), some entries⟩, lines)
        else none
      | _ => none
    else none
  | _ => none

/-- The type and number of entries in a Rust item, from after the bracket that opens its type, and
what follows the opening of the array. -/
def readItemType (line : Line) : Option (Bool × Nat × Line) := do
  let (areRows, line) ←
    match dropStart? "u16; ".toList line with
    | some line => some (false, line)
    | none => (dropStart? "[u8; 8]; ".toList line).map fun line => (true, line)
  let (count, line) ← readNumber line
  let line ← dropStart? "] = ".toList line
  let line ← dropStart? Format.rust.opening.toList line
  return (areRows, count, line)

/-- A Rust item, its first line from the name on. -/
def readItem (first : Line) (lines : List Line) : Option (Reading × List Line) := do
  let (name, line) ← cutLast? ": [".toList first
  let (areRows, count, line) ← readItemType line
  let (entries, lines) ← readDeclared .rust areRows count line lines
  return (⟨.rust, some (String.ofList name), some entries⟩, lines)

/-- A table off the front of some lines, and the lines after it. -/
def readTable : List Line → Option (Reading × List Line)
  | [] => none
  | first :: lines =>
    match dropStart? "#ifndef ".toList first with
    | some guard => (dropEnd? "_H".toList guard).bind fun name => readHeader name lines
    | none =>
      match dropStart? "pub static ".toList first with
      | some item => readItem item lines
      | none => readBare first lines

/-- Tables that follow one another with an empty line between each two, up to the end of the
text. -/
def readSeries (lines : List Line) : Option (List Reading) :=
  match readTable lines with
  | none => none
  | some (reading, [[]]) => some [reading]
  | some (reading, [] :: rest) =>
    if rest.length < lines.length then (readSeries rest).map (reading :: ·) else none
  | some _ => none
termination_by lines.length

end Reader

end PixelTables

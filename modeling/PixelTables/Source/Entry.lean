import PixelTables.Source.Format
import PixelTables.Source.Sink
import PixelTables.Tile.Row

/-!
# Table entries

An entry of a table is a word or a tile row. Each kind of entry has its type in the two languages
of the formats, and its literal is written piece by piece.

## Main Definitions

* `Emission`, `Emission.bytes` — writing to a sink that may fail, and to memory
* `put`, `putSeparated` — one piece, and items with a separator between them
* `Entry` — a type whose values can stand in a table
-/

namespace PixelTables

/-- Writing to a sink. A fault ends it; what was written before stays written. -/
abbrev Emission (σ : Type) := EStateM WriteFault σ

/-- The bytes that an emission writes to memory, which never fails. -/
def Emission.bytes (emission : Emission ByteArray Unit) : ByteArray :=
  match emission ByteArray.empty with
  | .ok _ bytes | .error _ bytes => bytes

section

variable {σ α : Type} [Sink σ]

/-- Write one piece of text. -/
def put (text : String) : Emission σ Unit :=
  Sink.write text.toUTF8

/-- Write items, each after a separator. -/
def putFollowing (separator : String) (item : α → Emission σ Unit) : List α → Emission σ Unit
  | [] => pure ()
  | x :: xs => do
    put separator
    item x
    putFollowing separator item xs

/-- Write items with a separator between each two. -/
def putSeparated (separator : String) (item : α → Emission σ Unit) : List α → Emission σ Unit
  | [] => pure ()
  | x :: xs => do
    item x
    putFollowing separator item xs

end

/-- A type whose values can stand in a table. -/
class Entry (α : Type) where
  /-- The element type in C++. -/
  cType : String
  /-- What follows the array's own dimension in C++. -/
  cDimensions : String
  /-- The element type in Rust. -/
  rustType : String
  /-- Write the literal of one value. -/
  putLiteral {σ : Type} [Sink σ] : Format → α → Emission σ Unit

/-- A word is written in decimal. -/
instance : Entry UInt16 where
  cType := "uint16_t"
  cDimensions := ""
  rustType := "u16"
  putLiteral _ word := put (Nat.repr word.toNat)

/-- A row is written as its pixels in decimal, separated by commas, between delimiters. -/
instance : Entry TileRow where
  cType := "uint8_t"
  cDimensions := "[8]"
  rustType := "[u8; 8]"
  putLiteral format row := do
    put format.opening
    putSeparated "," (fun pixel => put (Nat.repr pixel.toNat)) row.toList
    put format.closing

end PixelTables

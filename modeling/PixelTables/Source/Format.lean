/-!
# Source formats

A table is emitted as a bare array literal, as a C++ header or as a Rust item.

## Main Definitions

* `Format` — the three formats
* `Format.name` — their names
* `Format.opening`, `Format.closing` — the delimiters of their array literals
-/

namespace PixelTables

/-- A way to write a table as source text. -/
inductive Format where
  /-- A bare array literal. -/
  | array
  /-- A C++ header with an include guard that declares a constant array. -/
  | header
  /-- A public Rust static. -/
  | rust
  deriving DecidableEq, Repr

namespace Format

/-- The formats in the order in which they are listed. -/
def all : List Format := [.array, .header, .rust]

/-- A format that is not chosen is the bare literal. -/
instance : Inhabited Format := ⟨.array⟩

/-- The name of a format. -/
def name : Format → String
  | .array => "array"
  | .header => "header"
  | .rust => "rust"

/-- What opens an array literal, and a row in it. -/
def opening : Format → String
  | .array | .header => "\x7b"
  | .rust => "["

/-- What closes an array literal, and a row in it. -/
def closing : Format → String
  | .array | .header => "\x7d"
  | .rust => "]"

end Format

end PixelTables

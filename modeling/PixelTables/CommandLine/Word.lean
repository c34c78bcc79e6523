import PixelTables.Catalogue.Kind

/-!
# Words of a command line

Each word of a command line is an option, the mark that ends the options, or an operand. Option
names are matched exactly, and a value can be attached to an option's own word.

## Main Definitions

* `CommandLine.Word`, `CommandLine.Word.ofString` — what a word is by its spelling
* `CommandLine.Command`, `CommandLine.Command.ofWord?` — the commands and their words
* `CommandLine.formatOfValue?` — the values of the format option
-/

namespace PixelTables

namespace CommandLine

/-- What a word is by its spelling. -/
inductive Word where
  /-- The mark `--`, after which every word is an operand. -/
  | endOfOptions
  /-- The format option, with the value attached to it if there is one. -/
  | format (attached : Option String)
  /-- The option that asks for help. -/
  | help
  /-- The option that asks for the version, as it is spelled. -/
  | version (spelling : String)
  /-- A long option that takes no value, with a value attached to it. -/
  | flagWithValue (flag value : String)
  /-- An option that does not exist, as it is named. -/
  | unknownOption (name : String)
  /-- Anything else. A dash alone is an operand too. -/
  | operand
  deriving DecidableEq, Repr

namespace Word

/-- A long option by its name and the value after its equals sign. -/
def ofLong (name : String) (attached : Option String) : Word :=
  if name = "format" then .format attached
  else if name = "help" then
    match attached with
    | none => .help
    | some value => .flagWithValue "--help" value
  else if name = "version" then
    match attached with
    | none => .version "--version"
    | some value => .flagWithValue "--version" value
  else .unknownOption ("--" ++ name)

/-- The value attached to a short option by what follows its letter. An equals sign in front is no
part of the value, and without any character there is no value. -/
def attachedToShort : List Char → Option String
  | [] => none
  | '=' :: value => some (String.ofList value)
  | value => some (String.ofList value)

/-- A short option by its letter and what follows the letter. -/
def ofShort (letter : Char) (rest : List Char) : Word :=
  if letter = 'f' then .format (attachedToShort rest)
  else if letter = 'h' then .help
  else if letter = 'V' then .version "-V"
  else .unknownOption (String.ofList ['-', letter])

/-- The value of a long option, after the first equals sign of its word. -/
def attachedToLong (option : List Char) : Option String :=
  match option.dropWhile (· != '=') with
  | [] => none
  | _ :: value => some (String.ofList value)

/-- What a word is. -/
def ofString (word : String) : Word :=
  match word.toList with
  | ['-', '-'] => .endOfOptions
  | '-' :: '-' :: option =>
    ofLong (String.ofList (option.takeWhile (· != '='))) (attachedToLong option)
  | '-' :: letter :: rest => ofShort letter rest
  | _ => .operand

end Word

/-- What the first operand asks for. -/
inductive Command where
  /-- Generate a table. -/
  | table (kind : Kind)
  /-- Show help. -/
  | help
  deriving DecidableEq, Repr

/-- The command that a word is. -/
def Command.ofWord? (word : String) : Option Command :=
  match word with
  | "tile-rows" => some (.table .tileRows)
  | "tile-rows-flipped" => some (.table .tileRowsFlipped)
  | "cgb-palette" => some (.table .cgbPalette)
  | "help" => some .help
  | _ => none

/-- The format that a value of the format option is. -/
def formatOfValue? (value : String) : Option Format :=
  match value with
  | "array" => some .array
  | "header" => some .header
  | "rust" => some .rust
  | _ => none

end CommandLine

end PixelTables

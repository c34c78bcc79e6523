import PixelTables.Catalogue.Kind
import PixelTables.Text.Similarity
import PixelTables.Text.Terminal

/-!
# Help and usage errors

The texts that the command line answers with when it does not run: help, the version, and what is
wrong with words that it does not accept.

## Main Definitions

* `CommandLine.Topic`, `CommandLine.Topic.lines`, `CommandLine.Topic.text` — help
* `CommandLine.UsageError`, `CommandLine.UsageError.message` — why words are not accepted
* `CommandLine.UsageError.tip?`, `CommandLine.UsageError.text` — what may have been meant
* `CommandLine.quoted` — a word within a message

## Main Statements

* `CommandLine.quoted_eq_iff` — a word of visible characters, and no other, is quoted as it stands
-/

namespace PixelTables

namespace CommandLine

/-- What help is about. -/
inductive Topic where
  /-- The program. -/
  | program
  /-- The command of a table. -/
  | table (kind : Kind)
  /-- The command that shows help. -/
  | help
  deriving DecidableEq, Repr

/-- What a table is, in one line. -/
def summary : Kind → String
  | .tileRows => "2bpp tile row decoder, indexed by `high << 8 | low`"
  | .tileRowsFlipped => "Same as tile-rows with every row reversed"
  | .cgbPalette => "CGB 15-bit color to RGB565"

/-- What the operand of a table's command is. Only one of the commands tells. -/
def outputHelp : Kind → String
  | .tileRows => "Destination file (standard output if omitted)"
  | .tileRowsFlipped | .cgbPalette => ""

/-- The line about the format option. -/
def formatHelp : String :=
  "  -f, --format <FORMAT>  Syntax of the emitted table [default: array] "
    ++ "[possible values: array, header, rust]"

namespace Topic

/-- The lines of the help about a topic. -/
def lines : Topic → List String
  | .program =>
    ["Generate the lookup tables used by the pixel pipeline", "",
      "Usage: gbtables [OPTIONS] <COMMAND>", "",
      "Commands:",
      "  tile-rows          " ++ summary .tileRows,
      "  tile-rows-flipped  " ++ summary .tileRowsFlipped,
      "  cgb-palette        " ++ summary .cgbPalette,
      "  help               Print this message or the help of the given subcommand(s)", "",
      "Options:",
      formatHelp,
      "  -h, --help             Print help",
      "  -V, --version          Print version"]
  | .table kind =>
    [summary kind, "",
      "Usage: gbtables " ++ kind.commandName ++ " [OPTIONS] [OUTPUT]", "",
      "Arguments:",
      "  [OUTPUT]  " ++ outputHelp kind, "",
      "Options:",
      formatHelp,
      "  -h, --help             Print help"]
  | .help =>
    ["Print this message or the help of the given subcommand(s)", "",
      "Usage: gbtables help [COMMAND]...", "",
      "Arguments:",
      "  [COMMAND]...  Print help for the subcommand(s)"]

/-- The help about a topic. -/
def text (topic : Topic) : String :=
  String.join (topic.lines.map fun line => line ++ "\n")

end Topic

/-- The name and version of the program. -/
def versionText : String := "gbtables 0.1.0\n"

/-- Why the words of a command line are not accepted. -/
inductive UsageError where
  /-- There is no word at all. -/
  | noWords
  /-- There are options but no command. -/
  | noCommand
  /-- A word stands for a command and is none. -/
  | unrecognizedCommand (word : String)
  /-- A word is an operand too many, or a command where there can be none. -/
  | unexpectedWord (word : String)
  /-- An option does not exist, and the level it stands at has operands or not. -/
  | unknownOption (name : String) (hasOperands : Bool)
  /-- An option that takes no value has one attached. -/
  | unexpectedValue (value flag : String)
  /-- The format option has no value, or an empty one. -/
  | formatMissing
  /-- The value of the format option is no format. -/
  | formatInvalid (value : String)
  /-- The format option is given twice at one level. -/
  | formatRepeated
  /-- The output is an empty word. -/
  | outputEmpty
  deriving DecidableEq, Repr

/-- A word in quotes. It has a style of its own, which is put back after it, so in the plain form of
a message the word stands in its plain form. -/
def quoted (word : String) : String := "'" ++ Terminal.plain word ++ "'"

/-- A word is quoted as it stands if and only if all of its characters are visible. -/
theorem quoted_eq_iff (word : String) :
    quoted word = "'" ++ word ++ "'" ↔ ∀ c ∈ word.toList, Terminal.isVisible c := by
  rw [← Terminal.plain_eq_iff, quoted, String.append_left_inj, String.append_right_inj]

/-- What is written about words that are not accepted, in its plain form and without a line end
after it. Without any word that is the help about the program. -/
def UsageError.message : UsageError → String
  | .noWords => String.intercalate "\n" Topic.program.lines
  | .noCommand => "error: 'gbtables' requires a subcommand but one was not provided"
  | .unrecognizedCommand word => "error: unrecognized subcommand " ++ quoted word
  | .unexpectedWord word | .unknownOption word _ =>
    "error: unexpected argument " ++ quoted word ++ " found"
  | .unexpectedValue value flag =>
    "error: unexpected value " ++ quoted value ++ " for " ++ quoted flag
      ++ " found; no more were expected"
  | .formatMissing => "error: a value is required for '--format <FORMAT>' but none was supplied"
  | .formatInvalid value => "error: invalid value " ++ quoted value ++ " for '--format <FORMAT>'"
  | .formatRepeated =>
    "error: the argument '--format <FORMAT>' cannot be used multiple times"
  | .outputEmpty => "error: a value is required for '[OUTPUT]' but none was supplied"

/-- The names of the long options that a table's command has. -/
def longOptions : List String := ["format", "help"]

/-- The long option that an unknown one was probably meant to be. A short one is like no other. -/
def likeOption? (name : String) : Option String :=
  match name.toList with
  | '-' :: '-' :: option => longOptions.find? fun known => Similarity.isAlike option known.toList
  | _ => none

/-- What may have been meant by an unknown option where there are operands: a known option, or else
an operand that begins with a dash. -/
def UsageError.tip? : UsageError → Option String
  | .unknownOption name true =>
    match likeOption? name with
    | some known => some ("a similar argument exists: " ++ quoted ("--" ++ known))
    | none => some ("to pass " ++ quoted name ++ " as a value, use " ++ quoted ("-- " ++ name))
  | _ => none

/-- The message, and a tip below it if there is one, without a line end after them. -/
def UsageError.text (error : UsageError) : String :=
  match error.tip? with
  | none => error.message
  | some tip => error.message ++ "\n\n  tip: " ++ tip

end CommandLine

end PixelTables

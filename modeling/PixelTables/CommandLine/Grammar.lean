import PixelTables.CommandLine.Parse

/-!
# The grammar of command lines

Which command lines ask for a run, and for which one, said without regard to how they are read.

## Main Definitions

* `CommandLine.IsFormatOption` — the words that spell a format option
* `CommandLine.IsOutput` — a word that is an output by itself
* `CommandLine.IsRest` — what may stand after the command of a table
* `CommandLine.Sentence` — a whole command line and the run it asks for
-/

namespace PixelTables

namespace CommandLine

/-- The words are one format option, in one of its five spellings. -/
inductive IsFormatOption (format : Format) : List String → Prop where
  | short : IsFormatOption format ["-f", format.name]
  | shortAttached : IsFormatOption format ["-f" ++ format.name]
  | shortEquals : IsFormatOption format ["-f=" ++ format.name]
  | long : IsFormatOption format ["--format", format.name]
  | longEquals : IsFormatOption format ["--format=" ++ format.name]

/-- The words are a format option, or none are there. -/
inductive IsOptionalFormat : Option Format → List String → Prop where
  | absent : IsOptionalFormat none []
  | present {format : Format} {words : List String} :
    IsFormatOption format words → IsOptionalFormat (some format) words

/-- The word is an output where options are still read: it is not empty, and it is a dash alone or
does not begin with a dash. -/
def IsOutput (word : String) : Prop :=
  word ≠ "" ∧ (word = "-" ∨ word.toList.head? ≠ some '-')

/-- The words are at most one output. -/
inductive IsOptionalOutput : Option String → List String → Prop where
  | absent : IsOptionalOutput none []
  | present {word : String} : IsOutput word → IsOptionalOutput (some word) [word]

/-- The words are a format option and an output in either order, or less than that. -/
inductive IsMixed (format : Option Format) (output : Option String) : List String → Prop where
  | formatFirst {option operand : List String} :
    IsOptionalFormat format option → IsOptionalOutput output operand →
      IsMixed format output (option ++ operand)
  | outputFirst {option operand : List String} :
    IsOptionalFormat format option → IsOptionalOutput output operand →
      IsMixed format output (operand ++ option)

/-- What may stand after the command of a table. After the mark that ends the options any word
that is not empty is an output, unless there is one before the mark. -/
inductive IsRest (format : Option Format) : Option String → List String → Prop where
  | plain {output : Option String} {words : List String} :
    IsMixed format output words → IsRest format output words
  | marked {output : Option String} {words : List String} :
    IsMixed format output words → IsRest format output (words ++ ["--"])
  | afterMark {word : String} {words : List String} :
    IsMixed format none words → word ≠ "" → IsRest format (some word) (words ++ ["--", word])

/-- A command line and the run it asks for: maybe a format option, the command of a table, and
what may stand after it. -/
inductive Sentence : Run → List String → Prop where
  | mk {kind : Kind} {outer inner : Option Format} {output : Option String}
    {before after : List String} :
    IsOptionalFormat outer before → IsRest inner output after →
      Sentence ⟨kind, (inner <|> outer).getD .array, output⟩
        (before ++ kind.commandName :: after)

end CommandLine

end PixelTables

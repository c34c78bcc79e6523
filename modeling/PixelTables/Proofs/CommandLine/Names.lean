import PixelTables.Proofs.Catalogue.Names
import PixelTables.Proofs.CommandLine.Acceptance

/-!
# Names on the command line

The command line takes a word as the command of a table, or as a value of the format option, only
where the library knows it as that table or that format, and only in the spelling in which the
library itself mentions it.

## Main Definitions

* `CommandLine.GivesValue` — the words that give a value to the format option
* `CommandLine.TakesCommands`, `CommandLine.TakesValue` — what is taken as a command and as a value

## Main Statements

* `CommandLine.GivesValue.reads` — what the reader takes these words for
* `CommandLine.eq_of_append_option` — words that begin like a format option are that option
* `CommandLine.eq_commandName_of_parse`, `CommandLine.parse_of_other_name` — a word that is taken as
  a command, and a name that is not
* `CommandLine.format_of_value_before`, `CommandLine.eq_name_of_value_after` — a value that is taken
  before the command and after it
* `CommandLine.names_agree` — the names of the library and of the command line
-/

namespace PixelTables

namespace CommandLine

/-- The words give a value to the format option, in one of its five spellings. Attached to the
letter alone, a value that is empty or begins with an equals sign would not be the value. -/
inductive GivesValue (value : String) : List String → Prop where
  | short : GivesValue value ["-f", value]
  | shortAttached : value ≠ "" → value.toList.head? ≠ some '=' → GivesValue value ["-f" ++ value]
  | shortEquals : GivesValue value ["-f=" ++ value]
  | long : GivesValue value ["--format", value]
  | longEquals : GivesValue value ["--format=" ++ value]

/-! ## What such words are read as -/

theorem Word.ofString_of_head? {word : String} (h : word.toList.head? ≠ some '-') :
    ofString word = .operand := by
  by_cases hempty : word = ""
  · rw [hempty]
    rfl
  · exact ofString_of_isOutput ⟨hempty, Or.inr h⟩

theorem Word.ofString_shortAttached {value : String} (hne : value ≠ "")
    (hhead : value.toList.head? ≠ some '=') : ofString ("-f" ++ value) = .format (some value) := by
  have hword : ("-f" ++ value).toList = '-' :: 'f' :: value.toList := String.toList_append
  have hattached : attachedToShort value.toList = some value := by
    cases hvalue : value.toList with
    | nil => exact absurd (String.toList_inj.1 hvalue) hne
    | cons c rest =>
      unfold attachedToShort
      split
      · next h => cases h
      · next h =>
        cases h
        rw [hvalue] at hhead
        exact absurd rfl hhead
      · rw [← hvalue, String.ofList_toList]
  rw [ofString, hword]
  change Word.format (attachedToShort value.toList) = _
  rw [hattached]

theorem Word.ofString_shortEquals (value : String) :
    ofString ("-f=" ++ value) = .format (some value) := by
  have hword : ("-f=" ++ value).toList = '-' :: 'f' :: '=' :: value.toList := String.toList_append
  rw [ofString, hword]
  change Word.format (some (String.ofList value.toList)) = _
  rw [String.ofList_toList]

theorem Word.ofString_longEquals (value : String) :
    ofString ("--format=" ++ value) = .format (some value) := by
  have hword : ("--format=" ++ value).toList = "--format=".toList ++ value.toList :=
    String.toList_append
  rw [ofString, hword]
  change Word.format (some (String.ofList value.toList)) = _
  rw [String.ofList_toList]

/-- The words are a word that awaits the value, and then the value, or one word to which the value
is attached. -/
theorem GivesValue.reads {value : String} {words : List String} (h : GivesValue value words) :
    (∃ word, Word.ofString word = .format none ∧ words = [word, value])
      ∨ ∃ word, Word.ofString word = .format (some value) ∧ words = [word] := by
  cases h with
  | short => exact Or.inl ⟨_, rfl, rfl⟩
  | shortAttached hne hhead => exact Or.inr ⟨_, Word.ofString_shortAttached hne hhead, rfl⟩
  | shortEquals => exact Or.inr ⟨_, Word.ofString_shortEquals value, rfl⟩
  | long => exact Or.inl ⟨_, rfl, rfl⟩
  | longEquals => exact Or.inr ⟨_, Word.ofString_longEquals value, rfl⟩

/-- The first of the words is read as the format option. -/
theorem GivesValue.exists_cons {value : String} {words : List String} (h : GivesValue value words) :
    ∃ word attached rest, words = word :: rest ∧ Word.ofString word = .format attached := by
  rcases h.reads with ⟨word, hword, rfl⟩ | ⟨word, hword, rfl⟩
  · exact ⟨word, none, [value], rfl, hword⟩
  · exact ⟨word, some value, [], rfl, hword⟩

/-- With the name of a format for a value, the words are an option for that format. -/
theorem GivesValue.isFormatOption {format : Format} {words : List String}
    (h : GivesValue format.name words) : IsFormatOption format words := by
  cases h with
  | short => exact .short
  | shortAttached _ _ => exact .shortAttached
  | shortEquals => exact .shortEquals
  | long => exact .long
  | longEquals => exact .longEquals

/-- Where words that give a value begin like a format option they are that option, and the value is
the name of its format. -/
theorem eq_of_append_option {value : String} {format : Format}
    {words option rest after : List String} (hvalue : GivesValue value words)
    (hoption : IsFormatOption format option) (h : words ++ rest = option ++ after) :
    value = format.name ∧ rest = after := by
  rcases hvalue.reads with ⟨word, hword, rfl⟩ | ⟨word, hword, rfl⟩ <;>
    rcases isFormatOption_iff.1 hoption with ⟨first, hfirst, rfl⟩ | ⟨first, hfirst, rfl⟩
  · obtain ⟨-, hrest⟩ := List.cons_eq_cons.1 h
    exact List.cons_eq_cons.1 hrest
  · obtain ⟨rfl, -⟩ := List.cons_eq_cons.1 h
    rw [hword] at hfirst
    cases hfirst
  · obtain ⟨rfl, -⟩ := List.cons_eq_cons.1 h
    rw [hword] at hfirst
    cases hfirst
  · obtain ⟨rfl, hrest⟩ := List.cons_eq_cons.1 h
    rw [hword] at hfirst
    cases hfirst
    exact ⟨rfl, hrest⟩

section

variable {kind : Kind} {outer : Option Format} {before words rest : List String} {run : Run}

/-! ## Commands -/

/-- A format option in front of the rest of a command line is taken at once. -/
theorem parse_optionalFormat (h : IsOptionalFormat outer before) (words : List String) :
    parse (before ++ words) = scanOuter ⟨outer, none, .nothing⟩ words := by
  cases h with
  | absent => rfl
  | present hoption => exact scanOuter_option hoption

theorem Word.ofString_commandName (kind : Kind) : ofString kind.commandName = .operand :=
  ofString_of_ofWord? (Command.ofWord?_eq_table_iff.2 rfl)

/-- A word that is no option, where a command is taken, is the command of the table that the command
line asks for. -/
theorem eq_commandName_of_parse (h : IsOptionalFormat outer before) {word : String}
    (hword : word.toList.head? ≠ some '-') (hparse : parse (before ++ word :: rest) = .ok run) :
    word = run.kind.commandName := by
  rw [parse_optionalFormat h] at hparse
  rcases scanOuter_cons_cases hparse with ⟨kind, rfl, hfinish⟩ |
    ⟨-, format, option, after, hoption, hwords, -⟩
  · obtain ⟨inner, output, rfl, -⟩ := finishTable_eq_ok_iff.1 hfinish
    rfl
  · -- The first word of an option is read as one, and this word is not.
    have hoperand := Word.ofString_of_head? hword
    rcases isFormatOption_iff.1 hoption with ⟨first, hfirst, rfl⟩ | ⟨first, hfirst, rfl⟩ <;>
    · obtain ⟨rfl, -⟩ := List.cons_eq_cons.1 hwords
      rw [hoperand] at hfirst
      cases hfirst

/-- A word that is no option and no command is refused as a command. -/
theorem parse_unrecognized (h : IsOptionalFormat outer before) {word : String}
    (hoperand : Word.ofString word = .operand) (hnone : Command.ofWord? word = none)
    (rest : List String) :
    parse (before ++ word :: rest) = .error (.usage (.unrecognizedCommand word)) := by
  have hsettled : Level.settle ⟨outer, none, .nothing⟩ = .ok ⟨outer, none, .nothing⟩ := rfl
  rw [parse_optionalFormat h, scanOuter, command?_eq_of_settle hsettled, hnone, hoperand]
  rfl

/-- A name of a table that is not its command is refused as a command. -/
theorem parse_of_other_name (h : IsOptionalFormat outer before) {name : String}
    (hname : kind.IsNamed name) (hother : name ≠ kind.commandName) (rest : List String) :
    parse (before ++ name :: rest) = .error (.usage (.unrecognizedCommand name)) := by
  obtain rfl : name = kind.constName := hname.resolve_left hother
  refine parse_unrecognized h ?_ ?_ rest
  · cases kind <;> rfl
  · cases kind <;> rfl

theorem parse_commandName (h : IsOptionalFormat outer before) (kind : Kind) :
    parse (before ++ [kind.commandName]) = .ok ⟨kind, outer.getD .array, none⟩ :=
  parse_eq_ok_iff_sentence.2 (.mk h (.plain (.formatFirst .absent .absent)))

/-! ## Values of the format option -/

variable {value : String} {output : Option String} {operand : List String}

/-- A value that is taken before the command is the name of a format, and the command line asks for
that format if it asks for none after the command. -/
theorem format_of_value_before (hvalue : GivesValue value words)
    (h : parse (words ++ rest) = .ok run) :
    ∃ (format : Format) (inner : Option Format) (after : List String), value = format.name
      ∧ rest = run.kind.commandName :: after ∧ IsRest inner run.output after
      ∧ run.format = inner.getD format := by
  generalize hline : words ++ rest = line at h
  obtain ⟨hbefore, hrest⟩ := parse_eq_ok_iff_sentence.1 h
  cases hbefore with
  | absent =>
    obtain ⟨word, attached, more, rfl, hword⟩ := hvalue.exists_cons
    obtain ⟨rfl, -⟩ := List.cons_eq_cons.1 hline
    rw [Word.ofString_commandName] at hword
    cases hword
  | present hoption =>
    obtain ⟨hname, hcommand⟩ := eq_of_append_option hvalue hoption hline
    have hformat : ∀ (inner : Option Format) (format : Format),
        (inner <|> some format).getD .array = inner.getD format := by
      intro inner format
      cases inner <;> rfl
    exact ⟨_, _, _, hname, hcommand, hrest, hformat _ _⟩

/-- A value that is taken at the inner level is the name of the format with which the level ends. -/
theorem format_of_scanTable {result : Level} (hvalue : GivesValue value words)
    (h : scanTable kind ⟨none, output, .nothing⟩ (words ++ rest) = .ok result) :
    ∃ format : Format, result.format = some format ∧ value = format.name := by
  obtain ⟨word, attached, more, hwords, hword⟩ := hvalue.exists_cons
  have hline : words ++ rest = word :: (more ++ rest) := by rw [hwords, List.cons_append]
  rw [hline] at h
  rcases scanTable_cons_cases h with ⟨rfl, -⟩ | ⟨-, format, option, after, hoption, hafter, hscan⟩ |
    ⟨-, houtput, -⟩
  · cases hword
  · obtain ⟨hname, -⟩ := eq_of_append_option hvalue hoption (hline.trans hafter)
    obtain ⟨last, final, rfl, htail⟩ := scanTable_eq_ok_iff.1 hscan
    -- The level has its format now, so the rest holds no other one.
    obtain ⟨taken, _, _, _, -, -, -, hlast, htaken, -⟩ := htail.exists_isMixed
    rw [htaken rfl] at hlast
    exact ⟨format, hlast, hname⟩
  · rw [Word.ofString_of_isOutput houtput] at hword
    cases hword

/-- A value that is taken after the command, with or without an output in front of it, is the name
of the format that the command line asks for. -/
theorem eq_name_of_value_after (hbefore : IsOptionalFormat outer before)
    (hoperand : IsOptionalOutput output operand) (hvalue : GivesValue value words)
    (h : parse (before ++ kind.commandName :: (operand ++ (words ++ rest))) = .ok run) :
    value = run.format.name := by
  rw [parse_optionalFormat hbefore, scanOuter_command] at h
  obtain ⟨result, hscan, hrun⟩ := exists_of_bind_eq_ok h
  have hinner : scanTable kind ⟨none, output, .nothing⟩ (words ++ rest) = .ok result := by
    cases hoperand with
    | absent => exact hscan
    | present hword =>
      rw [← scanTable_operand hword]
      exact hscan
  obtain ⟨format, hformat, hname⟩ := format_of_scanTable hvalue hinner
  cases hrun
  rw [hformat]
  exact hname

/-- The name of a format is taken as a value before the command, in every spelling of the option. -/
theorem parse_value_before {format : Format} (hvalue : GivesValue format.name words) (kind : Kind) :
    parse (words ++ [kind.commandName]) = .ok ⟨kind, format, none⟩ :=
  parse_eq_ok_iff_sentence.2
    (.mk (.present hvalue.isFormatOption) (.plain (.formatFirst .absent .absent)))

/-- The name of a format is taken as a value after the command, in every spelling of the option. -/
theorem parse_value_after (hbefore : IsOptionalFormat outer before)
    (hoperand : IsOptionalOutput output operand) {format : Format}
    (hvalue : GivesValue format.name words) (kind : Kind) :
    parse (before ++ kind.commandName :: (operand ++ words)) = .ok ⟨kind, format, output⟩ :=
  parse_eq_ok_iff_sentence.2
    (.mk hbefore (.plain (.outputFirst (.present hvalue.isFormatOption) hoperand)))

end

/-! ## The names of the library and of the command line -/

/-- What is taken as the command of a table after some words, which are a format option or none. -/
structure TakesCommands (outer : Option Format) (before : List String) : Prop where
  /-- A word that is taken is the name by which the library mentions the table. -/
  taken : ∀ (word : String) (rest : List String) (run : Run), word.toList.head? ≠ some '-' →
    parse (before ++ word :: rest) = .ok run →
    Kind.ofName word = .ok run.kind ∧ word = run.kind.commandName
  /-- Each of these names is taken. -/
  mentioned : ∀ kind : Kind,
    parse (before ++ [kind.commandName]) = .ok ⟨kind, outer.getD .array, none⟩
  /-- Every other name that the library knows is refused. -/
  otherNames : ∀ (name : String) (kind : Kind) (rest : List String), Kind.ofName name = .ok kind →
    name ≠ kind.commandName →
    parse (before ++ name :: rest) = .error (.usage (.unrecognizedCommand name))

/-- What is taken of some words that give a value to the format option, where they stand in front of
the command of a table, or after it with or without an output in front of them. -/
structure TakesValue (value : String) (words : List String) : Prop where
  /-- A value that is taken before the command is the name by which the library mentions the format,
  and the format counts unless there is one after the command. -/
  takenBefore : ∀ (rest : List String) (run : Run), parse (words ++ rest) = .ok run →
    ∃ (format : Format) (inner : Option Format) (after : List String),
      Format.ofName value = .ok format ∧ value = format.name
        ∧ rest = run.kind.commandName :: after ∧ IsRest inner run.output after
        ∧ run.format = inner.getD format
  /-- So is a value that is taken after the command, and its format counts. -/
  takenAfter : ∀ (outer : Option Format) (before : List String) (kind : Kind)
    (output : Option String) (operand rest : List String) (run : Run),
    IsOptionalFormat outer before → IsOptionalOutput output operand →
    parse (before ++ kind.commandName :: (operand ++ (words ++ rest))) = .ok run →
    Format.ofName value = .ok run.format ∧ value = run.format.name
  /-- Such a name is taken before the command. -/
  mentionedBefore : ∀ (format : Format) (kind : Kind), value = format.name →
    parse (words ++ [kind.commandName]) = .ok ⟨kind, format, none⟩
  /-- Such a name is taken after the command. -/
  mentionedAfter : ∀ (format : Format) (outer : Option Format) (before : List String) (kind : Kind)
    (output : Option String) (operand : List String), value = format.name →
    IsOptionalFormat outer before → IsOptionalOutput output operand →
    parse (before ++ kind.commandName :: (operand ++ words)) = .ok ⟨kind, format, output⟩
  /-- Every other spelling that the library knows is refused, before the command and after it. -/
  otherSpellings : ∀ format : Format, Format.ofName value = .ok format → value ≠ format.name →
    (∀ (rest : List String) (run : Run), parse (words ++ rest) ≠ .ok run)
      ∧ ∀ (outer : Option Format) (before : List String) (kind : Kind) (output : Option String)
        (operand rest : List String) (run : Run),
        IsOptionalFormat outer before → IsOptionalOutput output operand →
        parse (before ++ kind.commandName :: (operand ++ (words ++ rest))) ≠ .ok run

theorem takesCommands {outer : Option Format} {before : List String}
    (h : IsOptionalFormat outer before) : TakesCommands outer before where
  taken word rest run hword hparse := by
    have hname := eq_commandName_of_parse h hword hparse
    exact ⟨hname ▸ Kind.ofName_commandName run.kind, hname⟩
  mentioned kind := parse_commandName h kind
  otherNames name kind rest hknown hother :=
    parse_of_other_name h (Kind.ofName_eq_ok_iff.1 hknown) hother rest

theorem takesValue {value : String} {words : List String} (h : GivesValue value words) :
    TakesValue value words where
  takenBefore rest run hparse := by
    obtain ⟨format, inner, after, rfl, hrest⟩ := format_of_value_before h hparse
    exact ⟨format, inner, after, Format.ofName_name format, rfl, hrest⟩
  takenAfter outer before kind output operand rest run hbefore hoperand hparse := by
    have hname := eq_name_of_value_after hbefore hoperand h hparse
    exact ⟨hname ▸ Format.ofName_name run.format, hname⟩
  mentionedBefore format kind hname := by
    subst hname
    exact parse_value_before h kind
  mentionedAfter format outer before kind output operand hname hbefore hoperand := by
    subst hname
    exact parse_value_after hbefore hoperand h kind
  otherSpellings format hknown hother := by
    -- A value that is taken is the name of a format, and the library knows that format by it.
    have hrefused : ∀ named : Format, value ≠ named.name := by
      rintro named rfl
      rw [Format.ofName_name, Except.ok.injEq] at hknown
      exact hother (congrArg Format.name hknown)
    constructor
    · intro rest run hparse
      obtain ⟨named, _, _, hname, -⟩ := format_of_value_before h hparse
      exact hrefused named hname
    · intro outer before kind output operand rest run hbefore hoperand hparse
      exact hrefused run.format (eq_name_of_value_after hbefore hoperand h hparse)

/-- Names of tables and formats are read alike by the library and on the command line, whatever text
is given. The library finds a table by its two names, which are no names of another table, and a
format by its name in any case of ASCII letters, which is then the name of no other format; any
other text is told as it is. The name by which a table or a format is mentioned leads back to it. On
the command line only these names are taken, as the command of a table and as a value of the format
option: what is taken is known to the library as the same table or format, and of the names that the
library knows no others are taken. -/
theorem names_agree :
    (∀ (name : String) (kind : Kind), Kind.ofName name = .ok kind
      ↔ (name = kind.commandName ∨ name = kind.constName)
        ∧ ∀ other : Kind, name = other.commandName ∨ name = other.constName → other = kind)
    ∧ (∀ (name : String) (error : Error), Kind.ofName name = .error error
      ↔ error = .unknownTable name
        ∧ ∀ kind : Kind, ¬ (name = kind.commandName ∨ name = kind.constName))
    ∧ (∀ (name : String) (format : Format), Format.ofName name = .ok format
      ↔ DifferOnlyInCase format.name name
        ∧ ∀ other : Format, DifferOnlyInCase other.name name → other = format)
    ∧ (∀ (name : String) (error : Error), Format.ofName name = .error error
      ↔ error = .unknownFormat name ∧ ∀ format : Format, ¬ DifferOnlyInCase format.name name)
    ∧ (∀ kind : Kind, Kind.ofName kind.commandName = .ok kind)
    ∧ (∀ format : Format, Format.ofName format.name = .ok format)
    ∧ (∀ (word : String) (kind : Kind),
      Command.ofWord? word = some (.table kind) ↔ word = kind.commandName)
    ∧ (∀ (value : String) (format : Format),
      formatOfValue? value = some format ↔ value = format.name)
    ∧ (∀ (outer : Option Format) (before : List String), IsOptionalFormat outer before →
      TakesCommands outer before)
    ∧ ∀ (value : String) (words : List String), GivesValue value words →
      TakesValue value words := by
  refine ⟨?_, fun _ _ => Kind.ofName_eq_error_iff, ?_, fun _ _ => Format.ofName_eq_error_iff,
    Kind.ofName_commandName, Format.ofName_name, fun _ _ => Command.ofWord?_eq_table_iff,
    fun _ _ => formatOfValue?_eq_some_iff, fun _ _ => takesCommands, fun _ _ => takesValue⟩
  · intro name kind
    rw [Kind.ofName_eq_ok_iff]
    exact ⟨fun h => ⟨h, fun other hother => Kind.eq_of_isNamed hother h⟩, And.left⟩
  · intro name format
    rw [Format.ofName_eq_ok_iff]
    exact ⟨fun h => ⟨h, fun other hother => Format.eq_of_isNamed hother h⟩, And.left⟩

/-- The name of a constant and a format in capitals are known to the library and refused on the
command line. A word with a long s in place of an s names no format. -/
theorem names_agree_lookAlikes :
    Kind.ofName "CGB_PALETTE_RGB565" = .ok .cgbPalette
    ∧ parse ["-fheader", "CGB_PALETTE_RGB565", "palette.h"]
        = .error (.usage (.unrecognizedCommand "CGB_PALETTE_RGB565"))
    ∧ Format.ofName "RUST" = .ok .rust
    ∧ (∀ run, parse ["tile-rows", "rows.rs", "--format", "RUST"] ≠ .ok run)
    ∧ parse ["tile-rows", "rows.rs", "--format", "rust"] = .ok ⟨.tileRows, .rust, some "rows.rs"⟩
    ∧ Format.ofName "ru\u017ft" = .error (.unknownFormat "ru\u017ft") := by
  obtain ⟨hkind, -, hformat, hunknown, -, -, -, -, hcommands, hvalues⟩ := names_agree
  have hpalette : Kind.ofName "CGB_PALETTE_RGB565" = .ok .cgbPalette :=
    (hkind _ _).2 ⟨Or.inr rfl, fun _ hother => Kind.eq_of_isNamed hother (Or.inr rfl)⟩
  have hrust : Format.ofName "RUST" = .ok .rust := by
    refine (hformat _ _).2 ⟨equalIgnoringCase_iff.1 (by decide), ?_⟩
    intro other hother
    exact Format.eq_of_isNamed hother (equalIgnoringCase_iff.1 (by decide))
  have hoperand : IsOptionalOutput (some "rows.rs") ["rows.rs"] :=
    .present ⟨by decide, Or.inr (by decide)⟩
  refine ⟨hpalette, ?_, hrust, ?_, ?_, ?_⟩
  · exact (hcommands (some .header) ["-fheader"] (.present .shortAttached)).otherNames _ _ _
      hpalette (by decide)
  · intro run
    exact ((hvalues "RUST" _ .long).otherSpellings .rust hrust (by decide)).2 none [] .tileRows
      _ _ [] run .absent hoperand
  · exact (hvalues "rust" _ .long).mentionedAfter .rust none [] .tileRows _ _ rfl .absent hoperand
  · refine (hunknown _ _).2 ⟨rfl, ?_⟩
    intro format hsame
    have hequal := equalIgnoringCase_iff.2 hsame
    revert hequal
    cases format <;> decide

end CommandLine

end PixelTables

import PixelTables.Proofs.CommandLine.Settling

/-!
# The command lines that are accepted

The reader of a command line asks for a run exactly on the sentences of the grammar, and for the
run that the sentence asks for.

## Main Definitions

* `CommandLine.IsEnding` — what may stand after the last option and output of the inner level
* `CommandLine.IsTail` — what may still follow at the inner level, read from left to right

## Main Statements

* `CommandLine.scanTable_eq_ok_iff` — the inner level comes to an end exactly on tails
* `CommandLine.isTail_iff_isRest` — the grammar read from left to right
* `CommandLine.scanOuter_cons_cases` — what a command line that asks for a run begins with
* `CommandLine.parse_accepts_grammar` — the whole command line

## Design Notes

The reader holds a value back until the next word is taken, so the level it goes on with is not
the one that the grammar speaks of. But where a run is asked for in the end, what was held back
has been accepted, and then it makes no difference to accept it at once. So both levels are read
from a level where nothing is pending, one option or output at a time.
-/

namespace PixelTables

namespace CommandLine

/-! ## The inner level -/

/-- What may stand after the last option and the last output before the mark, by the output that
there is before and the one that there is in the end. -/
inductive IsEnding : Option String → Option String → List String → Prop where
  | stop {output : Option String} : IsEnding output output []
  | mark {output : Option String} : IsEnding output output ["--"]
  | afterMark {word : String} : word ≠ "" → IsEnding none (some word) ["--", word]

/-- What may still follow at the inner level, by the format and the output that there are already,
if the level is to end with the format and the output given first. -/
inductive IsTail (format : Option Format) (output : Option String) :
    Option Format → Option String → List String → Prop where
  | ending {before : Option String} {words : List String} :
    IsEnding before output words → IsTail format output format before words
  | option {value : Format} {before : Option String} {option words : List String} :
    IsFormatOption value option → IsTail format output (some value) before words →
      IsTail format output none before (option ++ words)
  | operand {value : Option Format} {word : String} {words : List String} :
    IsOutput word → IsTail format output value (some word) words →
      IsTail format output value none (word :: words)

section Inner

variable {kind : Kind} {value : Option Format} {before : Option String} {words : List String}

theorem settle_formatGiven (format : Format) :
    Level.settle ⟨none, before, .formatGiven format.name⟩ = .ok ⟨some format, before, .nothing⟩ :=
  Level.acceptFormat_eq_ok_iff.2 ⟨rfl, format, rfl, rfl⟩

theorem length_pos_of_isFormatOption {format : Format} {option : List String}
    (h : IsFormatOption format option) : 0 < option.length := by
  cases h <;> exact Nat.succ_pos _

/-- A format option is taken where there is none yet. -/
theorem scanTable_option {format : Format} {option : List String}
    (h : IsFormatOption format option) :
    scanTable kind ⟨none, before, .nothing⟩ (option ++ words)
      = scanTable kind ⟨some format, before, .nothing⟩ words := by
  rcases isFormatOption_iff.1 h with ⟨word, hword, rfl⟩ | ⟨word, hword, rfl⟩
  · -- A value in a word of its own is pending at first, and is settled at once here.
    rw [← scanTable_eq_of_settle (settle_formatGiven format), List.cons_append, scanTable, hword]
    dsimp only [Level.takeFormat, Level.settle, pure, Except.pure, bind, Except.bind]
    rw [List.cons_append, scanTable, Word.ofString_format_name]
    rfl
  · have haccept : Level.acceptFormat ⟨none, before, .nothing⟩ format.name
        = .ok ⟨some format, before, .nothing⟩ :=
      Level.acceptFormat_eq_ok_iff.2 ⟨rfl, format, rfl, rfl⟩
    rw [List.cons_append, scanTable, hword]
    dsimp only [Level.takeFormat, Level.settle, bind, Except.bind]
    rw [haccept]
    rfl

/-- An output is taken where there is none yet. -/
theorem scanTable_operand {word : String} (h : IsOutput word) :
    scanTable kind ⟨value, none, .nothing⟩ (word :: words)
      = scanTable kind ⟨value, some word, .nothing⟩ words := by
  have hsettle : Level.settle ⟨value, none, .outputGiven word⟩
      = .ok ⟨value, some word, .nothing⟩ := if_neg h.1
  rw [← scanTable_eq_of_settle hsettle, scanTable, Word.ofString_of_isOutput h]
  rfl

/-- After the mark there may be one more word, if there is no output yet. -/
theorem scanOperands_eq_ok_iff {result : Level} :
    scanOperands ⟨value, before, .nothing⟩ words = .ok result
      ↔ ∃ output, result = ⟨value, output, .nothing⟩ ∧ IsEnding before output ("--" :: words) := by
  constructor
  · intro h
    cases words with
    | nil =>
      cases h
      exact ⟨before, rfl, .mark⟩
    | cons word words =>
      cases before with
      | some _ => cases h
      | none =>
        cases words with
        | nil =>
          change (if word = "" then _ else _) = _ at h
          split at h
          · cases h
          · next hword =>
            cases h
            exact ⟨some word, rfl, .afterMark hword⟩
        | cons _ _ => cases h
  · rintro ⟨output, rfl, hending⟩
    cases hending with
    | mark => rfl
    | afterMark hword => exact if_neg hword

theorem scanTable_ending {output : Option String} (h : IsEnding before output words) :
    scanTable kind ⟨value, before, .nothing⟩ words = .ok ⟨value, output, .nothing⟩ := by
  cases h with
  | stop => rfl
  | mark => exact scanOperands_eq_ok_iff.2 ⟨_, rfl, .mark⟩
  | afterMark hword => exact scanOperands_eq_ok_iff.2 ⟨_, rfl, .afterMark hword⟩

/-- A value that is awaited at the inner level is the next word. -/
theorem exists_given_of_scanTable {result : Level}
    (h : scanTable kind ⟨value, before, .formatAwaited⟩ words = .ok result) :
    ∃ given rest, words = given :: rest
      ∧ scanTable kind ⟨value, before, .formatGiven given⟩ rest = .ok result := by
  cases words with
  | nil => cases h
  | cons word words =>
    rw [scanTable] at h
    split at h
    · cases words with
      | nil => cases h
      | cons _ _ => cases before <;> cases h
    · cases h
    · cases h
    · cases h
    · split at h <;> cases h
    · cases h
    · exact ⟨word, words, rfl, h⟩

/-- What the first word of the inner level is, if the level comes to an end. -/
theorem scanTable_cons_cases {word : String} {result : Level}
    (h : scanTable kind ⟨value, before, .nothing⟩ (word :: words) = .ok result) :
    (word = "--" ∧ scanOperands ⟨value, before, .nothing⟩ words = .ok result)
      ∨ (value = none ∧ ∃ format option rest, IsFormatOption format option
        ∧ word :: words = option ++ rest
        ∧ scanTable kind ⟨some format, before, .nothing⟩ rest = .ok result)
      ∨ (before = none ∧ IsOutput word
        ∧ scanTable kind ⟨value, some word, .nothing⟩ words = .ok result) := by
  rw [scanTable] at h
  split at h
  · next hword => exact Or.inl ⟨Word.spells_of_ofString hword, h⟩
  · next attached hword =>
    obtain ⟨taken, htake, hscan⟩ := exists_of_bind_eq_ok h
    right; left
    cases attached with
    | some given =>
      obtain ⟨hnone, format, rfl, rfl⟩ := Level.acceptFormat_eq_ok_iff.1 htake
      exact ⟨hnone, format, [word], words, isFormatOption_iff.2 (Or.inr ⟨word, hword, rfl⟩), rfl,
        hscan⟩
    | none =>
      cases htake
      -- The level comes to an end, so the value that is pending after its word is right.
      obtain ⟨given, rest, rfl, hrest⟩ := exists_given_of_scanTable hscan
      obtain ⟨settled, hsettle⟩ := exists_settle_of_scanTable (by simp) hrest
      obtain ⟨hnone, format, rfl, rfl⟩ := Level.acceptFormat_eq_ok_iff.1 hsettle
      rw [scanTable_eq_of_settle hsettle] at hrest
      exact ⟨hnone, format, [word, format.name], rest,
        isFormatOption_iff.2 (Or.inl ⟨word, hword, rfl⟩), rfl, hrest⟩
  · exact absurd h Level.stop_ne_ok
  · cases h
  · split at h <;> cases h
  · cases h
  · next hword =>
    obtain ⟨taken, htake, hscan⟩ := exists_of_bind_eq_ok h
    right; right
    cases before with
    | some _ => cases htake
    | none =>
      cases htake
      obtain ⟨settled, hsettle⟩ := exists_settle_of_scanTable (by simp) hscan
      rw [scanTable_eq_of_settle hsettle] at hscan
      change (if word = "" then _ else _) = _ at hsettle
      split at hsettle
      · cases hsettle
      · next hne =>
        cases hsettle
        exact ⟨rfl, Or.resolve_left (Word.spells_of_ofString hword) hne, hscan⟩

/-- The inner level comes to an end exactly where its words are a tail. The induction is on the
number of words, since the format option may take two of them. -/
theorem scanTable_eq_ok_iff {result : Level} :
    scanTable kind ⟨value, before, .nothing⟩ words = .ok result
      ↔ ∃ format output, result = ⟨format, output, .nothing⟩
        ∧ IsTail format output value before words := by
  constructor
  · intro h
    induction hlength : words.length using Nat.strongRecOn generalizing value before words with
    | ind n ih =>
      cases words with
      | nil =>
        cases h
        exact ⟨value, before, rfl, .ending .stop⟩
      | cons word words =>
        rcases scanTable_cons_cases h with ⟨rfl, hscan⟩ |
          ⟨rfl, given, option, rest, hoption, hwords, hscan⟩ | ⟨rfl, houtput, hscan⟩
        · obtain ⟨output, rfl, hending⟩ := scanOperands_eq_ok_iff.1 hscan
          exact ⟨value, output, rfl, .ending hending⟩
        · have hshorter : rest.length < n := by
            rw [← hlength, hwords, List.length_append]
            have hpositive := length_pos_of_isFormatOption hoption
            omega
          obtain ⟨format, output, hresult, htail⟩ := ih _ hshorter hscan rfl
          exact ⟨format, output, hresult, hwords ▸ .option hoption htail⟩
        · have hshorter : words.length < n := by
            rw [← hlength, List.length_cons]
            omega
          obtain ⟨format, output, hresult, htail⟩ := ih _ hshorter hscan rfl
          exact ⟨format, output, hresult, .operand houtput htail⟩
  · rintro ⟨format, output, rfl, htail⟩
    induction htail with
    | ending hending => exact scanTable_ending hending
    | option hoption _ ih => rw [scanTable_option hoption, ih]
    | operand hword _ ih => rw [scanTable_operand hword, ih]

end Inner

/-! ## The grammar from left to right -/

section Tail

variable {format value : Option Format} {output operand before : Option String}
variable {first words : List String}

theorem IsTail.optionalFormat (h : IsOptionalFormat value first)
    (htail : IsTail format output value before words) :
    IsTail format output none before (first ++ words) := by
  cases h with
  | absent => exact htail
  | present hoption => exact .option hoption htail

theorem IsTail.optionalOutput (h : IsOptionalOutput operand first)
    (htail : IsTail format output value operand words) :
    IsTail format output value none (first ++ words) := by
  cases h with
  | absent => exact htail
  | present hword => exact .operand hword htail

theorem isTail_of_isMixed (h : IsMixed format operand first)
    (hending : IsEnding operand output words) :
    IsTail format output none none (first ++ words) := by
  cases h with
  | formatFirst hformat houtput =>
    rw [List.append_assoc]
    exact .optionalFormat hformat (.optionalOutput houtput (.ending hending))
  | outputFirst hformat houtput =>
    rw [List.append_assoc]
    exact .optionalOutput houtput (.optionalFormat hformat (.ending hending))

theorem isOptionalOutput_of_isMixed (h : IsMixed none operand words) :
    IsOptionalOutput operand words := by
  cases h with
  | formatFirst hformat houtput =>
    cases hformat
    exact houtput
  | outputFirst hformat houtput =>
    cases hformat
    rw [List.append_nil]
    exact houtput

theorem isOptionalFormat_of_isMixed (h : IsMixed value none words) :
    IsOptionalFormat value words := by
  cases h with
  | formatFirst hformat houtput =>
    cases houtput
    rw [List.append_nil]
    exact hformat
  | outputFirst hformat houtput =>
    cases houtput
    exact hformat

/-- A tail is a mixture of what is not yet there, and an ending. -/
theorem IsTail.exists_isMixed (h : IsTail format output value before words) :
    ∃ taken operand mixed ending, words = mixed ++ ending ∧ IsMixed taken operand mixed
      ∧ IsEnding (operand <|> before) output ending ∧ format = (taken <|> value)
      ∧ (value.isSome → taken = none) ∧ (before.isSome → operand = none) := by
  induction h with
  | ending hending =>
    exact ⟨none, none, [], _, rfl, .formatFirst .absent .absent, hending, rfl, fun _ => rfl,
      fun _ => rfl⟩
  | option hoption _ ih =>
    obtain ⟨taken, operand, mixed, ending, rfl, hmixed, hending, hformat, htaken, hoperand⟩ := ih
    -- There is a format now, so the rest holds no other one.
    obtain rfl := htaken rfl
    refine ⟨_, operand, _, ending, (List.append_assoc _ _ _).symm,
      .formatFirst (.present hoption) (isOptionalOutput_of_isMixed hmixed), hending, hformat,
      nofun, hoperand⟩
  | operand hword _ ih =>
    obtain ⟨taken, operand, mixed, ending, rfl, hmixed, hending, hformat, htaken, hoperand⟩ := ih
    -- There is an output now, so the rest holds no other one.
    obtain rfl := hoperand rfl
    refine ⟨taken, _, _, ending, (List.append_assoc [_] _ _).symm,
      .outputFirst (isOptionalFormat_of_isMixed hmixed) (.present hword), hending, hformat,
      htaken, nofun⟩

/-- Read from left to right, what may stand after a command is a tail from the beginning. -/
theorem isTail_iff_isRest : IsTail format output none none words ↔ IsRest format output words := by
  constructor
  · intro h
    obtain ⟨taken, operand, mixed, ending, rfl, hmixed, hending, hformat, -, -⟩ := h.exists_isMixed
    rw [Option.orElse_eq_orElse, Option.orElse_eq_or, Option.or_none] at hending hformat
    subst hformat
    cases hending with
    | stop =>
      rw [List.append_nil]
      exact .plain hmixed
    | mark => exact .marked hmixed
    | afterMark hword => exact .afterMark hmixed hword
  · intro h
    cases h with
    | plain hmixed =>
      rw [← List.append_nil words]
      exact isTail_of_isMixed hmixed .stop
    | marked hmixed => exact isTail_of_isMixed hmixed .mark
    | afterMark hmixed hword => exact isTail_of_isMixed hmixed (.afterMark hword)

end Tail

/-! ## The outer level -/

section Outer

variable {value : Option Format} {words : List String} {run : Run}

/-- A format option before the command is taken where there is none yet. -/
theorem scanOuter_option {format : Format} {option : List String}
    (h : IsFormatOption format option) :
    scanOuter ⟨none, none, .nothing⟩ (option ++ words)
      = scanOuter ⟨some format, none, .nothing⟩ words := by
  have hempty : Level.settle ⟨none, none, .nothing⟩ = .ok ⟨none, none, .nothing⟩ := rfl
  rcases isFormatOption_iff.1 h with ⟨word, hword, rfl⟩ | ⟨word, hword, rfl⟩
  · rw [← scanOuter_eq_of_settle (settle_formatGiven format), List.cons_append, scanOuter,
      command?_eq_of_settle hempty, Command.ofWord?_eq_none hword, hword]
    dsimp only [Level.takeFormat, Level.settle, pure, Except.pure, bind, Except.bind]
    rw [List.cons_append, scanOuter, Word.ofString_format_name]
    rfl
  · have haccept : Level.acceptFormat ⟨none, none, .nothing⟩ format.name
        = .ok ⟨some format, none, .nothing⟩ :=
      Level.acceptFormat_eq_ok_iff.2 ⟨rfl, format, rfl, rfl⟩
    rw [List.cons_append, scanOuter, command?_eq_of_settle hempty,
      Command.ofWord?_eq_none hword, hword]
    dsimp only [Level.takeFormat, Level.settle, bind, Except.bind]
    rw [haccept]
    rfl

/-- The command of a table is taken, and the outer level with it. -/
theorem finishTable_eq_ok_iff {kind : Kind} :
    finishTable ⟨value, none, .nothing⟩ kind words = .ok run
      ↔ ∃ inner output, run = ⟨kind, (inner <|> value).getD .array, output⟩
        ∧ IsRest inner output words := by
  constructor
  · intro h
    obtain ⟨result, hscan, hrun⟩ := exists_of_bind_eq_ok h
    obtain ⟨inner, output, rfl, htail⟩ := scanTable_eq_ok_iff.1 hscan
    cases hrun
    exact ⟨inner, output, rfl, isTail_iff_isRest.1 htail⟩
  · rintro ⟨inner, output, rfl, hrest⟩
    have hscan : scanTable kind Level.empty words = .ok ⟨inner, output, .nothing⟩ :=
      scanTable_eq_ok_iff.2 ⟨inner, output, rfl, isTail_iff_isRest.2 hrest⟩
    rw [finishTable, hscan]
    rfl

/-- A value that is awaited at the outer level is the next word. -/
theorem exists_given_of_scanOuter (h : scanOuter ⟨value, none, .formatAwaited⟩ words = .ok run) :
    ∃ given rest, words = given :: rest
      ∧ scanOuter ⟨value, none, .formatGiven given⟩ rest = .ok run := by
  cases words with
  | nil => cases h
  | cons word words =>
    rw [scanOuter] at h
    dsimp only [Level.command?] at h
    rw [if_pos rfl] at h
    dsimp only at h
    split at h
    · exact absurd h scanOuterOperands_ne_ok
    · cases h
    · cases h
    · cases h
    · cases h
    · cases h
    · exact ⟨word, words, rfl, h⟩

/-- What the first word of a command line is, if it asks for a run. -/
theorem scanOuter_cons_cases {word : String}
    (h : scanOuter ⟨value, none, .nothing⟩ (word :: words) = .ok run) :
    (∃ kind, word = kind.commandName ∧ finishTable ⟨value, none, .nothing⟩ kind words = .ok run)
      ∨ (value = none ∧ ∃ format option rest, IsFormatOption format option
        ∧ word :: words = option ++ rest
        ∧ scanOuter ⟨some format, none, .nothing⟩ rest = .ok run) := by
  have hsettled : Level.settle ⟨value, none, .nothing⟩ = .ok ⟨value, none, .nothing⟩ := rfl
  rw [scanOuter, command?_eq_of_settle hsettled] at h
  split at h
  · next kind hcommand => exact Or.inl ⟨kind, Command.ofWord?_eq_table_iff.1 hcommand, h⟩
  · exact absurd h stopForHelp_ne_ok
  · right
    split at h
    · exact absurd h scanOuterOperands_ne_ok
    · next attached hword =>
      obtain ⟨taken, htake, hscan⟩ := exists_of_bind_eq_ok h
      cases attached with
      | some given =>
        obtain ⟨hnone, format, rfl, rfl⟩ := Level.acceptFormat_eq_ok_iff.1 htake
        exact ⟨hnone, format, [word], words, isFormatOption_iff.2 (Or.inr ⟨word, hword, rfl⟩),
          rfl, hscan⟩
      | none =>
        cases htake
        obtain ⟨given, rest, rfl, hrest⟩ := exists_given_of_scanOuter hscan
        obtain ⟨settled, hsettle⟩ := exists_settle_of_scanOuter (by simp) hrest
        obtain ⟨hnone, format, rfl, rfl⟩ := Level.acceptFormat_eq_ok_iff.1 hsettle
        rw [scanOuter_eq_of_settle hsettle] at hrest
        exact ⟨hnone, format, [word, format.name], rest,
          isFormatOption_iff.2 (Or.inl ⟨word, hword, rfl⟩), rfl, hrest⟩
    · exact absurd h Level.stop_ne_ok
    · exact absurd h Level.stop_ne_ok
    · cases h
    · cases h
    · cases h

theorem scanOuter_command {kind : Kind} :
    scanOuter ⟨value, none, .nothing⟩ (kind.commandName :: words)
      = finishTable ⟨value, none, .nothing⟩ kind words := by
  have hsettled : Level.settle ⟨value, none, .nothing⟩ = .ok ⟨value, none, .nothing⟩ := rfl
  rw [scanOuter, command?_eq_of_settle hsettled, Command.ofWord?_eq_table_iff.2 rfl]

/-- A command line asks for a run exactly where it is a sentence of the grammar, and then for the
run of that sentence. -/
theorem parse_eq_ok_iff_sentence : parse words = .ok run ↔ Sentence run words := by
  rw [parse, Level.empty]
  constructor
  · intro h
    cases words with
    | nil => exact absurd h endWithoutCommand_ne_ok
    | cons word words =>
      rcases scanOuter_cons_cases h with ⟨kind, rfl, hfinish⟩ |
        ⟨-, format, option, rest, hoption, hwords, hscan⟩
      · obtain ⟨inner, output, rfl, hrest⟩ := finishTable_eq_ok_iff.1 hfinish
        exact .mk .absent hrest
      · rw [hwords]
        cases rest with
        | nil => exact absurd hscan endWithoutCommand_ne_ok
        | cons next rest =>
          -- The outer level has its format, so the next word is the command.
          rcases scanOuter_cons_cases hscan with ⟨kind, rfl, hfinish⟩ | ⟨hnone, -⟩
          · obtain ⟨inner, output, rfl, hrest⟩ := finishTable_eq_ok_iff.1 hfinish
            exact .mk (.present hoption) hrest
          · cases hnone
  · rintro ⟨hbefore, hrest⟩
    cases hbefore with
    | absent =>
      rw [List.nil_append, scanOuter_command]
      exact finishTable_eq_ok_iff.2 ⟨_, _, rfl, hrest⟩
    | present hoption =>
      rw [scanOuter_option hoption, scanOuter_command]
      exact finishTable_eq_ok_iff.2 ⟨_, _, rfl, hrest⟩

/-- A command line asks for a run exactly where it is a sentence of the grammar. The run does not
depend on how its format option is spelled, on whether that option stands before the command or
after it, or on where it stands among the words after it. -/
theorem parse_accepts_grammar :
    (∀ (words : List String) (run : Run), parse words = .ok run ↔ Sentence run words)
    ∧ ∀ (kind : Kind) (format : Format) (output : Option String)
      (option after mixed : List String), IsFormatOption format option →
      IsRest none output after → IsRest (some format) output mixed →
      parse (option ++ kind.commandName :: after) = .ok ⟨kind, format, output⟩
        ∧ parse (kind.commandName :: mixed) = .ok ⟨kind, format, output⟩ := by
  refine ⟨fun words run => parse_eq_ok_iff_sentence, ?_⟩
  intro kind format output option after mixed hoption hafter hmixed
  constructor
  · exact parse_eq_ok_iff_sentence.2 (.mk (.present hoption) hafter)
  · exact parse_eq_ok_iff_sentence.2 (.mk .absent hmixed)

/-- An output that looks like an option, with the format before the command and after it. -/
theorem parse_accepts_grammar_marked :
    parse ["-fheader", "tile-rows", "--", "-f"] = .ok ⟨.tileRows, .header, some "-f"⟩
    ∧ parse ["tile-rows", "--format", "header", "--", "-f"]
        = .ok ⟨.tileRows, .header, some "-f"⟩ :=
  parse_accepts_grammar.2 .tileRows .header (some "-f") ["-fheader"] ["--", "-f"]
    ["--format", "header", "--", "-f"] .shortAttached
    (.afterMark (.formatFirst .absent .absent) (by decide))
    (.afterMark (.formatFirst (.present .long) .absent) (by decide))

end Outer

end CommandLine

end PixelTables

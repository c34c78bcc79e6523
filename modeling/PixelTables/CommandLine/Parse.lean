import PixelTables.CommandLine.Usage
import PixelTables.CommandLine.Word

/-!
# Parsing a command line

A command line has an outer level, before the command, and an inner level after it. The format
option may stand at both and the inner one counts; an output operand stands only at the inner
level.

## Main Definitions

* `CommandLine.Run` — what a command line asks to generate
* `CommandLine.Halt` — why there is nothing to generate
* `CommandLine.Level` — what has been read at one level
* `CommandLine.parse` — the run that words ask for

## Design Notes

A value in a word of its own is held back as pending when it is read. It is settled, that is
checked and accepted, only when the next option or operand is taken or the level ends; a value
attached to its option is checked at once. So of two faults in one command line it is not always
the first one that is reported: an unknown option or an operand too many is found while an earlier
value is still pending. The outer level is settled last, after the whole inner level.
-/

namespace PixelTables

namespace CommandLine

/-- What a command line asks to generate. -/
structure Run where
  /-- Which table. -/
  kind : Kind
  /-- In which format. -/
  format : Format
  /-- To which path; with none, to standard output. -/
  output : Option String
  deriving DecidableEq, Repr

/-- Why a command line asks to generate nothing. -/
inductive Halt where
  | help (topic : Topic)
  | version
  | usage (error : UsageError)
  deriving DecidableEq, Repr

/-- What is read but not yet accepted. -/
inductive Pending where
  | nothing
  /-- The format option was read, and the next word is its value. -/
  | formatAwaited
  /-- The format option was read and its value after it. -/
  | formatGiven (value : String)
  /-- An output operand was read. -/
  | outputGiven (word : String)
  deriving DecidableEq, Repr

/-- What has been read at one level. -/
structure Level where
  /-- The format accepted. -/
  format : Option Format
  /-- The output accepted. -/
  output : Option String
  /-- What is not yet accepted. -/
  pending : Pending
  deriving DecidableEq, Repr

namespace Level

/-- A level of which nothing has been read. -/
def empty : Level := ⟨none, none, .nothing⟩

/-- Accept a value of the format option. That there is one already is found before its own
fault. -/
def acceptFormat (level : Level) (value : String) : Except Halt Level :=
  if level.format.isSome then .error (.usage .formatRepeated)
  else
    match formatOfValue? value with
    | some format => .ok ⟨some format, level.output, .nothing⟩
    | none =>
      if value = "" then .error (.usage .formatMissing)
      else .error (.usage (.formatInvalid value))

/-- Check and accept what is pending. -/
def settle (level : Level) : Except Halt Level :=
  match level.pending with
  | .nothing => .ok level
  | .formatAwaited => .error (.usage .formatMissing)
  | .formatGiven value => level.acceptFormat value
  | .outputGiven word =>
    if word = "" then .error (.usage .outputEmpty)
    else .ok ⟨level.format, some word, .nothing⟩

/-- Take the format option. -/
def takeFormat (level : Level) (attached : Option String) : Except Halt Level := do
  let level ← level.settle
  match attached with
  | none => return ⟨level.format, level.output, .formatAwaited⟩
  | some value => level.acceptFormat value

/-- Stop for something that was asked for instead of a run. What is pending must be right. -/
def stop {α : Type} (level : Level) (halt : Halt) : Except Halt α := do
  let _ ← level.settle
  throw halt

/-- Whether an output operand has been read. -/
def hasOutput (level : Level) : Bool :=
  level.output.isSome ||
    match level.pending with
    | .outputGiven _ => true
    | _ => false

/-- Take an operand of the inner level, which has room for one. -/
def takeOutput (level : Level) (word : String) : Except Halt Level :=
  if level.hasOutput then .error (.usage (.unexpectedWord word))
  else do
    let level ← level.settle
    return ⟨level.format, level.output, .outputGiven word⟩

/-- Take a word that is no option: the value that is awaited, or an operand of the inner level. -/
def takeWord (level : Level) (word : String) : Except Halt Level :=
  if level.pending = .formatAwaited then
    .ok ⟨level.format, level.output, .formatGiven word⟩
  else level.takeOutput word

end Level

/-- The words after the mark that ends the options of the inner level. -/
def scanOperands (level : Level) : List String → Except Halt Level
  | [] => level.settle
  | word :: words => do scanOperands (← level.takeOutput word) words

/-- The words of the inner level, after the command of a table. -/
def scanTable (kind : Kind) (level : Level) : List String → Except Halt Level
  | [] => level.settle
  | word :: words =>
    match Word.ofString word with
    | .endOfOptions => scanOperands level words
    | .format attached => do scanTable kind (← level.takeFormat attached) words
    | .help => level.stop (.help (.table kind))
    | .version spelling => .error (.usage (.unknownOption spelling true))
    | .flagWithValue flag value =>
      if flag = "--help" then .error (.usage (.unexpectedValue value flag))
      else .error (.usage (.unknownOption flag true))
    | .unknownOption name => .error (.usage (.unknownOption name true))
    | .operand => do scanTable kind (← level.takeWord word) words

/-- What help is asked for by the words after the command for help. Each word must be a command,
and the help about a command has no commands of its own. -/
def helpTopic : List String → Except Halt Topic
  | [] => .ok .program
  | word :: words =>
    match Command.ofWord? word, words with
    | some (.table kind), [] => .ok (.table kind)
    | some .help, [] => .ok .help
    | some _, next :: _ => .error (.usage (.unrecognizedCommand next))
    | none, _ => .error (.usage (.unrecognizedCommand word))

/-- Stop for help about what the words ask. -/
def stopForHelp {α : Type} (words : List String) : Except Halt α := do
  throw (.help (← helpTopic words))

/-- The end of a command line without a command. -/
def endWithoutCommand {α : Type} (level : Level) : Except Halt α := do
  let level ← level.settle
  if level.format.isSome then throw (.usage .noCommand) else throw (.usage .noWords)

/-- The words after the mark that ends the options of the outer level, which has no operands. -/
def scanOuterOperands {α : Type} (level : Level) : List String → Except Halt α
  | [] => endWithoutCommand level
  | word :: _ =>
    match Command.ofWord? word with
    | some _ => .error (.usage (.unexpectedWord word))
    | none => .error (.usage (.unrecognizedCommand word))

/-- The command that a word is at the outer level. A word that is awaited as a value is none. -/
def Level.command? (level : Level) (word : String) : Option Command :=
  if level.pending = .formatAwaited then none else Command.ofWord? word

/-- Take a word of the outer level that is neither a command nor an option. -/
def Level.takeOuterWord (level : Level) (word : String) : Except Halt Level :=
  if level.pending = .formatAwaited then
    .ok ⟨level.format, level.output, .formatGiven word⟩
  else .error (.usage (.unrecognizedCommand word))

/-- The run for a table from the words after its command, the outer level being read. -/
def finishTable (outer : Level) (kind : Kind) (words : List String) : Except Halt Run := do
  let inner ← scanTable kind Level.empty words
  let outer ← outer.settle
  return ⟨kind, (inner.format <|> outer.format).getD default, inner.output⟩

/-- The words of the outer level. -/
def scanOuter (level : Level) : List String → Except Halt Run
  | [] => endWithoutCommand level
  | word :: words =>
    match level.command? word with
    | some (.table kind) => finishTable level kind words
    | some .help => stopForHelp words
    | none =>
      match Word.ofString word with
      | .endOfOptions => scanOuterOperands level words
      | .format attached => do scanOuter (← level.takeFormat attached) words
      | .help => level.stop (.help .program)
      | .version _ => level.stop .version
      | .flagWithValue flag value => .error (.usage (.unexpectedValue value flag))
      | .unknownOption name => .error (.usage (.unknownOption name false))
      | .operand => do scanOuter (← level.takeOuterWord word) words

/-- The run that the words of a command line ask for, the program's own name left out. -/
def parse (words : List String) : Except Halt Run :=
  scanOuter Level.empty words

end CommandLine

end PixelTables

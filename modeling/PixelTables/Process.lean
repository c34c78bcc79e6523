import PixelTables.Catalogue.Destination
import PixelTables.CommandLine.Parse
import PixelTables.Report

/-!
# The process

One run of the program: it reads its command line, generates a table to a path or to standard
output, and ends with an exit code, what it wrote to its two outputs and the records it showed.

## Main Definitions

* `Invocation` — what a process is started with
* `Outcome` — what a process leaves behind
* `Ending`, `Kind.ending`, `CommandLine.Halt.ending` — what a process says when it ends
* `Invocation.run` — the process

## Design Notes

Standard output is written through a buffer, which is flushed at the end. A file is written whole,
and so are the standard streams of the process where it is given one of their names as a path. What
reached an output is read off the host that the process leaves. The process logs one record of its
own after a table has reached its destination.
-/

namespace PixelTables

/-- What a process is started with, besides the file tree. -/
structure Invocation where
  /-- The command line, the program's own name left out. -/
  words : List String
  /-- Which log records are shown. -/
  threshold : Log.Threshold
  /-- Standard output has no space for a single byte. -/
  outputIsFull : Bool
  deriving DecidableEq, Repr

/-- What a process leaves behind. -/
structure Outcome where
  /-- The exit code. -/
  exitCode : Nat
  /-- The bytes that reached standard output. -/
  output : ByteArray
  /-- The table that reached standard error, where the path was a name of it. -/
  errorOutput : ByteArray
  /-- What the process itself wrote to standard error besides log records, without a line end
  after it. -/
  complaint : String
  /-- The log records shown on standard error. -/
  log : List Log.Record
  /-- The file tree afterwards. -/
  tree : FileTree

/-- What a process says when it ends. -/
structure Ending where
  /-- The exit code. -/
  exitCode : Nat
  /-- What it writes to standard error, without a line end after it. -/
  complaint : String
  /-- What it has logged, shown or not. -/
  log : List Log.Record

namespace Kind

/-- The record of a table that has reached its destination. -/
def generated (kind : Kind) : Log.Record where
  level := .info
  target := "gbtables"
  message := "generated " ++ kind.commandName

/-- The report of a table that could not be generated or written. -/
def failureReport (kind : Kind) (error : Error) : Report :=
  ⟨"failed to generate " ++ kind.commandName, error.causes⟩

/-- The end of a process that was to generate a table. A broken invariant aborts it with a code of
its own. -/
def ending (kind : Kind) (result : Except Error Unit) (log : List Log.Record) : Ending :=
  match result with
  | .ok _ => ⟨0, "", log ++ [kind.generated]⟩
  | .error (.invariant broken) => ⟨101, broken.message, log⟩
  | .error error => ⟨1, (kind.failureReport error).text, log⟩

end Kind

namespace CommandLine.Halt

/-- What is printed instead of a table. -/
def printed : Halt → String
  | .help topic => topic.text
  | .version => versionText
  | .usage _ => ""

/-- The end of a process that has no table to generate. -/
def ending : Halt → Ending
  | .help _ | .version => ⟨0, "", []⟩
  | .usage error => ⟨2, error.text, []⟩

end CommandLine.Halt

namespace Outcome

/-- The report of a table that stayed in the buffer of standard output. -/
def flushReport (fault : WriteFault) : Report :=
  ⟨"failed to flush standard output", [fault.message]⟩

/-- The lines on standard error that are not log lines: those of a table, those of a record's
message after its first, and those of the complaint. A table has reached standard error before
the first record that has more than one line. -/
def errorLines (outcome : Outcome) : List String :=
  linesOf (Utf8.decodeLossy outcome.errorOutput)
    ++ (outcome.log.flatMap fun record => record.lines.drop 1)
    ++ linesOf outcome.complaint

end Outcome

namespace Invocation

/-- Whether a process can be started with the words: none of them has a NUL character in it. -/
def isStartable (invocation : Invocation) : Bool :=
  invocation.words.all fun word => !word.toList.contains '\x00'

/-- The records that are shown. -/
def shown (invocation : Invocation) (log : List Log.Record) : List Log.Record :=
  log.filter fun record => invocation.threshold.shows record.level

/-- What the process acts on, on a file tree. -/
def host (invocation : Invocation) (tree : FileTree) : Host :=
  ⟨tree, .fresh invocation.outputIsFull, .fresh false⟩

/-- What is left behind by a process that ends on a host. -/
def outcome (invocation : Invocation) (ending : Ending) (host : Host) : Outcome where
  exitCode := ending.exitCode
  output := host.output.received
  errorOutput := host.errorOutput.received
  complaint := ending.complaint
  log := invocation.shown ending.log
  tree := host.tree

/-- Generate a table to a path. -/
def runToPath (invocation : Invocation) (kind : Kind) (format : Format) (path : String)
    (tree : FileTree) : Outcome :=
  let written := kind.writeToPath format path (invocation.host tree)
  invocation.outcome (kind.ending written.result written.log) written.state

/-- Generate a table to standard output. -/
def runToOutput (invocation : Invocation) (kind : Kind) (format : Format) (tree : FileTree) :
    Outcome :=
  let host := invocation.host tree
  let written := kind.write format (BufferedOutput.ofDevice host.output)
  match written.result with
  | .error error =>
    invocation.outcome (kind.ending (.error error) written.log)
      { host with output := written.state.device }
  | .ok _ =>
    match BufferedOutput.flush written.state with
    | .ok _ buffer =>
      invocation.outcome (kind.ending (.ok ()) written.log) { host with output := buffer.device }
    | .error fault buffer =>
      invocation.outcome ⟨1, (Outcome.flushReport fault).text, written.log⟩
        { host with output := buffer.device }

/-- Generate what a command line asks for. -/
def runTable (invocation : Invocation) (run : CommandLine.Run) (tree : FileTree) : Outcome :=
  match run.output with
  | some path => invocation.runToPath run.kind run.format path tree
  | none => invocation.runToOutput run.kind run.format tree

/-- Print a text to standard output, as far as it goes. -/
def runToPrint (invocation : Invocation) (halt : CommandLine.Halt) (tree : FileTree) : Outcome :=
  let host := invocation.host tree
  match Receiver.writeAll halt.printed.toUTF8 host.output with
  | .ok _ output | .error _ output => invocation.outcome halt.ending { host with output }

/-- The process on a file tree. -/
def run (invocation : Invocation) (tree : FileTree) : Outcome :=
  match CommandLine.parse invocation.words with
  | .ok run => invocation.runTable run tree
  | .error halt => invocation.runToPrint halt tree

end Invocation

end PixelTables

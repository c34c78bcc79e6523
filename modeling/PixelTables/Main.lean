import PixelTables.Process

/-!
# The program

The command line as a program of its own. It does to the system what `Invocation.run` does to a
host. What a process reports is settled there, by `Kind.settle`, `Kind.ending` and
`CommandLine.Halt.ending`; here the system is asked and its answer handed on.

## Main Definitions

* `Program.refusal` — the system's answer to an operation that failed
* `Program.generate` — a table to its destination
* `main` — the program
-/

namespace PixelTables

namespace Program

/-- The refusal that an operation of the system failed with, in the system's own words. -/
def refusal : IO.Error → OsError
  | .interrupted _ number words | .noFileOrDirectory _ number words
  | .alreadyExists _ number words | .invalidArgument _ number words
  | .permissionDenied _ number words | .resourceExhausted _ number words
  | .inappropriateType _ number words | .noSuchThing _ number words
  | .otherError number words | .resourceBusy number words | .resourceVanished number words
  | .unsupportedOperation number words | .hardwareFault number words
  | .unsatisfiedConstraints number words | .illegalOperation number words
  | .protocolError number words | .timeExpired number words => .other number.toNat words
  | .unexpectedEof => .inputOutput
  | .userError words => .other 0 words

/-- Write bytes to a path, or to standard output. -/
def deliver (output : Option String) (bytes : ByteArray) : IO (Except OsError Unit) := do
  let deed : IO Unit :=
    match output with
    | some path => IO.FS.writeBinFile path bytes
    | none => do
      let stdout ← IO.getStdout
      stdout.write bytes
      stdout.flush
  return (← deed.toBaseIO).mapError refusal

/-- Show the records that a threshold admits. -/
def showLog (threshold : Log.Threshold) (log : List Log.Record) : IO Unit := do
  for record in log do
    if threshold.shows record.level then
      IO.eprintln record.text

/-- Say what a process says when it ends, and end. -/
def finish (threshold : Log.Threshold) (ending : Ending) : IO UInt32 := do
  showLog threshold ending.log
  if ending.complaint ≠ "" then
    IO.eprintln ending.complaint
  return ending.exitCode.toUInt32

/-- Generate a table to its destination. -/
def generate (threshold : Log.Threshold) (run : CommandLine.Run) : IO UInt32 := do
  match run.kind.render run.format with
  | (.error error, log) => finish threshold (run.kind.ending (.error error) log)
  | (.ok text, log) =>
    showLog threshold log
    let answer ← deliver run.output text.toUTF8
    let (result, more) :=
      match run.output with
      | some path => run.kind.settle run.format path answer
      | none => (answer.mapError fun reason => .write (.os reason), [])
    finish threshold (run.kind.ending result more)

end Program

end PixelTables

open PixelTables in
/-- The program on its command line. Log records are shown from the severity on that the
environment asks for. -/
def main (words : List String) : IO UInt32 := do
  let asked ← IO.getEnv "RUST_LOG"
  let threshold := (asked.bind Log.Threshold.ofName?).getD default
  match CommandLine.parse words with
  | .ok run => Program.generate threshold run
  | .error halt => do
    let _ ← Program.deliver none halt.printed.toUTF8
    Program.finish threshold halt.ending

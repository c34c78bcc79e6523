import PixelTables.FileTree.Standard
import PixelTables.Process
import PixelTables.Proofs.Catalogue.Generation
import PixelTables.Proofs.Host
import PixelTables.Proofs.Source.Buffering

/-!
# What a process reports

A process does what its command line asks for, and its exit code, its outputs and its log tell
whether it has done it.

## Main Definitions

* `Outcome.Follows` — a process tells of a table for a path what the library does with it

## Main Statements

* `Kind.text_failureReport_io`, `Kind.text_failureReport_storageFull` — what is said of failures
* `Kind.writeToPath_with_output`, `Kind.writeToPath_of_standardOutput` — a table for a path that is
  no name of standard output, or is one
* `Invocation.runToOutput_of_works`, `Invocation.runToOutput_of_isFull` — a table for standard
  output, which works or is full
* `Invocation.runToPath_follows` — a table for a path
* `Invocation.run_reports` — the whole process
-/

namespace PixelTables

/-! ## What is said of failures -/

/-- A failure that has one cause of its own is told in numbered lines. -/
theorem Report.text_pair (headline first second : String) :
    Report.text ⟨headline, [first, second]⟩
      = "Error: " ++ headline ++ "\n\nCaused by:\n" ++ indent "    0: " "       " first
        ++ "\n" ++ indent "    1: " "       " second := by
  have hfirst : place 0 ++ ": " = "    0: " := by decide
  have hsecond : place 1 ++ ": " = "    1: " := by decide
  have hbelow : "\n\nCaused by:\n" = "\n\nCaused by:" ++ "\n" := by decide
  rw [text]
  simp only [causeTexts, numbered, Nat.zero_add, hfirst, hsecond, hbelow, List.map_cons,
    List.map_nil, String.join_cons, String.join_nil, String.append_assoc, String.append_empty]

/-- The failure of a table for a path is told with the path and the reason of the system. -/
theorem Kind.text_failureReport_io (kind : Kind) (path : String) (reason : OsError) :
    (kind.failureReport (.io path reason)).text
      = "Error: failed to generate " ++ kind.commandName ++ "\n\nCaused by:\n"
        ++ Report.indent "    0: " "       " ("could not write table to '" ++ path ++ "'")
        ++ "\n" ++ Report.indent "    1: " "       " reason.message := by
  have hheadline : "Error: " ++ ("failed to generate " ++ kind.commandName)
      = "Error: failed to generate " ++ kind.commandName := by
    cases kind <;> rfl
  rw [← hheadline]
  exact Report.text_pair _ _ _

/-- The failure of a table for standard output that is full is told with that. -/
theorem Kind.text_failureReport_storageFull (kind : Kind) :
    (kind.failureReport (.write (.os .storageFull))).text
      = "Error: failed to generate " ++ kind.commandName ++ "\n\nCaused by:"
        ++ "\n    0: could not write table: No space left on device (os error 28)"
        ++ "\n    1: No space left on device (os error 28)" := by
  cases kind <;> rfl

/-! ## Paths and standard output -/

namespace Kind

variable (kind : Kind) (format : Format) (host : Host) {path : String}

/-- A table for a path that is no name of standard output is written whatever has become of
standard output, and leaves it as it is. -/
theorem writeToPath_with_output (h : host.tree.device? path ≠ some .standardOutput)
    (output : OutputDevice) :
    kind.writeToPath format path { host with output }
      = ⟨(kind.writeToPath format path host).result,
        { (kind.writeToPath format path host).state with output },
        (kind.writeToPath format path host).log⟩ := by
  rw [writeToPath_eq, writeToPath_eq, Host.write_with_output h]
  cases host.write path (kind.generatedTable.text format).toUTF8 with
  | mk answer after => cases answer <;> rfl

/-- Standard output receives nothing of a table for any other path. -/
theorem output_writeToPath (h : host.tree.device? path ≠ some .standardOutput) :
    (kind.writeToPath format path host).state.output = host.output :=
  congrArg (fun written => written.state.output)
    (writeToPath_with_output kind format host h host.output)

/-- A table for a path that is a name of standard output is there whole, or nothing of it is. -/
theorem writeToPath_of_standardOutput (h : host.tree.device? path = some .standardOutput) :
    kind.writeToPath format path host
      = match host.output.take (kind.generatedTable.text format).toUTF8 with
        | (.error reason, output) =>
          ⟨.error (.io path reason), { host with output }, (kind.render format).2⟩
        | (.ok _, output) =>
          ⟨.ok (), { host with output }, (kind.render format).2 ++ [kind.wrote format path]⟩ := by
  rw [writeToPath_eq, Host.write_of_standardOutput h (kind.size_text_ne_zero format)]
  cases host.output.take (kind.generatedTable.text format).toUTF8 with
  | mk answer after => cases answer <;> rfl

end Kind

/-! ## Processes -/

/-- What is left behind by a process that has written a table to a path, if it tells no more and no
less than the library does. -/
structure Outcome.Follows (outcome : Outcome) (invocation : Invocation) (kind : Kind)
    (path : String) (written : Logged Host) : Prop where
  /-- The tree is the one that the library leaves. -/
  tree : outcome.tree = written.state.tree
  /-- Standard error has of the table what the library has passed to it. -/
  errorOutput : outcome.errorOutput = written.state.errorOutput.received
  /-- The exit code tells success. -/
  exitCode : outcome.exitCode = 0 ↔ written.result = .ok ()
  /-- A success is logged as such, and nothing is complained of. -/
  success : written.result = .ok () →
    outcome.complaint = "" ∧ outcome.log = invocation.shown
      (written.log ++ [⟨.info, "gbtables", "generated " ++ kind.commandName⟩])
  /-- A failure is reported as the library's own, down to what the system said. -/
  failure : ∀ error, written.result = .error error →
    outcome.exitCode = 1 ∧ outcome.log = invocation.shown written.log
      ∧ ∃ reason, error = .io path reason
        ∧ outcome.complaint
          = "Error: failed to generate " ++ kind.commandName ++ "\n\nCaused by:\n"
            ++ Report.indent "    0: " "       " ("could not write table to '" ++ path ++ "'")
            ++ "\n" ++ Report.indent "    1: " "       " reason.message

namespace Invocation

variable (invocation : Invocation) (kind : Kind) (format : Format) (tree : FileTree)

/-- Where standard output works it receives the text. -/
theorem runToOutput_of_works (h : invocation.outputIsFull = false) :
    invocation.runToOutput kind format tree
      = ⟨0, (kind.generatedTable.text format).toUTF8, ByteArray.empty, "",
          invocation.shown ((kind.render format).2 ++ [kind.generated]), tree⟩ := by
  have hworks : (BufferedOutput.ofDevice (OutputDevice.fresh false)).device.isFull = false := rfl
  obtain ⟨next, hput, hnext, htaken⟩ :=
    BufferedOutput.putAll_of_works hworks (kind.generatedTable.pieces format)
  have hflush := BufferedOutput.flush_of_works hnext
  have htext : next.taken = (kind.generatedTable.text format).toUTF8 := by
    rw [htaken, Table.join_pieces]
    rfl
  rw [runToOutput, host, h]
  dsimp only
  rw [Kind.write_eq, hput, Kind.render_eq]
  dsimp only
  rw [hflush, htext]
  rfl

/-- Where standard output is full, the refusal ends the writing before the text does. -/
theorem runToOutput_of_isFull (h : invocation.outputIsFull = true) :
    invocation.runToOutput kind format tree
      = ⟨1, ByteArray.empty, ByteArray.empty,
          (kind.failureReport (.write (.os .storageFull))).text,
          invocation.shown (kind.render format).2, tree⟩ := by
  have hstuck : (BufferedOutput.ofDevice (OutputDevice.fresh true)).IsStuck :=
    ⟨rfl, Nat.zero_le _⟩
  rw [runToOutput, host, h]
  dsimp only
  rcases BufferedOutput.putAll_of_isStuck hstuck (kind.generatedTable.pieces format) with
    ⟨next, -, hnext, hpending⟩ | ⟨next, hput, hdevice⟩
  · -- The text does not fit into the buffer.
    have htext : next.pending = (kind.generatedTable.text format).toUTF8 := by
      rw [hpending, Table.join_pieces]
      exact ByteArray.empty_append
    have hsize := kind.capacity_lt_size_text format
    have hroom := hnext.2
    rw [htext] at hroom
    omega
  · rw [Kind.write_eq, hput, Kind.render_eq]
    dsimp only
    rw [hdevice]
    rfl

/-- A process with a table for a path tells what the library does with it, wherever the path leads
to. -/
theorem runToPath_follows (path : String) :
    (invocation.runToPath kind format path tree).Follows invocation kind path
      (kind.writeToPath format path (invocation.host tree)) := by
  rw [runToPath, Kind.writeToPath_eq]
  cases (invocation.host tree).write path (kind.generatedTable.text format).toUTF8 with
  | mk answer after =>
    cases answer with
    | ok _ =>
      refine ⟨rfl, rfl, ⟨fun _ => rfl, fun _ => rfl⟩, fun _ => ⟨rfl, rfl⟩, ?_⟩
      intro error herror
      cases herror
    | error reason =>
      refine ⟨rfl, rfl, ⟨nofun, nofun⟩, nofun, ?_⟩
      intro error herror
      cases herror
      exact ⟨rfl, rfl, reason, rfl, kind.text_failureReport_io path reason⟩

/-- Where the path is no name of standard output, the library writes the table to it whatever has
become of standard output, and nothing reaches that. -/
theorem runToPath_of_other {path : String} (h : tree.device? path ≠ some .standardOutput) :
    (invocation.runToPath kind format path tree).output = ByteArray.empty
      ∧ ∀ output : OutputDevice, (invocation.runToPath kind format path tree).Follows invocation
        kind path (kind.writeToPath format path ⟨tree, output, .fresh false⟩) := by
  have hfollows := runToPath_follows invocation kind format tree path
  constructor
  · have houtput := kind.output_writeToPath format (invocation.host tree) h
    exact congrArg OutputDevice.received houtput
  · intro output
    have hwritten := kind.writeToPath_with_output format (invocation.host tree) h output
    have hsame : (⟨tree, output, .fresh false⟩ : Host) = { invocation.host tree with output } := rfl
    rw [hsame, hwritten]
    exact ⟨hfollows.tree, hfollows.errorOutput, hfollows.exitCode, hfollows.success,
      hfollows.failure⟩

/-- Where the path is a name of standard output, the text goes there if it can. -/
theorem runToPath_of_standardOutput {path : String}
    (h : tree.device? path = some .standardOutput) :
    (invocation.runToPath kind format path tree).tree = tree
      ∧ if invocation.outputIsFull then
          (kind.writeToPath format path (invocation.host tree)).result
              = .error (.io path .storageFull)
            ∧ (invocation.runToPath kind format path tree).output = ByteArray.empty
        else
          (kind.writeToPath format path (invocation.host tree)).result = .ok ()
            ∧ (invocation.runToPath kind format path tree).output
              = (kind.generatedTable.text format).toUTF8 := by
  have hwritten := kind.writeToPath_of_standardOutput format (invocation.host tree) h
  rw [runToPath]
  cases hfull : invocation.outputIsFull with
  | true =>
    have htake : (invocation.host tree).output.take (kind.generatedTable.text format).toUTF8
        = (.error .storageFull, .fresh true) := by
      rw [host, hfull]
      rfl
    rw [htake] at hwritten
    rw [hwritten]
    exact ⟨rfl, rfl, rfl⟩
  | false =>
    have htake : (invocation.host tree).output.take (kind.generatedTable.text format).toUTF8
        = (.ok (), ⟨false, (kind.generatedTable.text format).toUTF8⟩) := by
      rw [host, hfull]
      exact congrArg (fun received => (Except.ok (), (⟨false, received⟩ : OutputDevice)))
        ByteArray.empty_append
    rw [htake] at hwritten
    rw [hwritten]
    exact ⟨rfl, rfl, rfl⟩

theorem run_eq_of_parse {run : CommandLine.Run}
    (h : CommandLine.parse invocation.words = .ok run) :
    invocation.run tree = invocation.runTable run tree := by
  rw [Invocation.run, h]

/-- A command line that asks for no table leaves the tree and the log alone, and a fault in it
leaves standard output alone too. -/
theorem run_of_halt {halt : CommandLine.Halt}
    (h : CommandLine.parse invocation.words = .error halt) :
    (invocation.run tree).tree = tree ∧ (invocation.run tree).log = []
      ∧ ((invocation.run tree).exitCode ≠ 0 →
        (invocation.run tree).output = ByteArray.empty) := by
  rw [run, h]
  dsimp only
  rw [runToPrint]
  cases halt with
  | help topic =>
    cases Receiver.writeAll (CommandLine.Halt.printed (.help topic)).toUTF8
        (invocation.host tree).output <;>
      exact ⟨rfl, rfl, fun hcode => absurd rfl hcode⟩
  | version =>
    cases Receiver.writeAll (CommandLine.Halt.printed .version).toUTF8
        (invocation.host tree).output <;>
      exact ⟨rfl, rfl, fun hcode => absurd rfl hcode⟩
  | usage error =>
    have hnothing : Receiver.writeAll (CommandLine.Halt.printed (.usage error)).toUTF8
        (invocation.host tree).output = .ok () (invocation.host tree).output := by
      rw [Receiver.writeAll]
      exact if_pos rfl
    rw [hnothing]
    exact ⟨rfl, rfl, fun _ => rfl⟩

/-- A process does what its command line asks for and reports it, whatever the command line, the
file tree, the log threshold and standard output are. A table for standard output is there whole,
or the process fails with the refusal of standard output. A table for a path is written as the
library writes it to the same tree, whatever standard output is there, and nothing else is told of
it. Only where the path is a name of standard output itself does the library find the output of the
process behind it; then the text goes there whole, or is refused there. Without a table to generate
the tree stays as it is and nothing is logged. -/
theorem run_reports (invocation : Invocation) (tree : FileTree) :
    (∀ kind format, CommandLine.parse invocation.words = .ok ⟨kind, format, none⟩ →
      invocation.outputIsFull = false →
      ∃ text, (kind.render format).1 = .ok text
        ∧ invocation.run tree = ⟨0, text.toUTF8, ByteArray.empty, "",
          invocation.shown ((kind.render format).2
            ++ [⟨.info, "gbtables", "generated " ++ kind.commandName⟩]), tree⟩)
    ∧ (∀ kind format, CommandLine.parse invocation.words = .ok ⟨kind, format, none⟩ →
      invocation.outputIsFull = true →
      invocation.run tree = ⟨1, ByteArray.empty, ByteArray.empty,
        "Error: failed to generate " ++ kind.commandName ++ "\n\nCaused by:"
          ++ "\n    0: could not write table: No space left on device (os error 28)"
          ++ "\n    1: No space left on device (os error 28)",
        invocation.shown (kind.render format).2, tree⟩)
    ∧ (∀ kind format path, CommandLine.parse invocation.words = .ok ⟨kind, format, some path⟩ →
      tree.device? path ≠ some .standardOutput →
      (invocation.run tree).output = ByteArray.empty
        ∧ ∀ output : OutputDevice, (invocation.run tree).Follows invocation kind path
          (kind.writeToPath format path ⟨tree, output, .fresh false⟩))
    ∧ (∀ kind format path, CommandLine.parse invocation.words = .ok ⟨kind, format, some path⟩ →
      tree.device? path = some .standardOutput →
      ∃ text written, (kind.render format).1 = .ok text
        ∧ kind.writeToPath format path ⟨tree, .fresh invocation.outputIsFull, .fresh false⟩
          = written
        ∧ (invocation.run tree).Follows invocation kind path written
        ∧ (invocation.run tree).output = written.state.output.received
        ∧ (invocation.run tree).tree = tree
        ∧ if invocation.outputIsFull then
            written.result = .error (.io path .storageFull)
              ∧ (invocation.run tree).output = ByteArray.empty
          else
            written.result = .ok () ∧ (invocation.run tree).output = text.toUTF8)
    ∧ ∀ halt, CommandLine.parse invocation.words = .error halt →
      (invocation.run tree).tree = tree ∧ (invocation.run tree).log = []
        ∧ ((invocation.run tree).exitCode ≠ 0 →
          (invocation.run tree).output = ByteArray.empty) := by
  refine ⟨?_, ?_, ?_, ?_, ?_⟩
  · intro kind format hparse hworks
    refine ⟨kind.generatedTable.text format, by rw [Kind.render_eq], ?_⟩
    rw [run_eq_of_parse invocation tree hparse]
    exact runToOutput_of_works invocation kind format tree hworks
  · intro kind format hparse hfull
    rw [run_eq_of_parse invocation tree hparse, ← Kind.text_failureReport_storageFull]
    exact runToOutput_of_isFull invocation kind format tree hfull
  · intro kind format path hparse hpath
    rw [run_eq_of_parse invocation tree hparse]
    exact runToPath_of_other invocation kind format tree hpath
  · intro kind format path hparse hpath
    rw [run_eq_of_parse invocation tree hparse]
    exact ⟨kind.generatedTable.text format, _, by rw [Kind.render_eq], rfl,
      runToPath_follows invocation kind format tree path, rfl,
      runToPath_of_standardOutput invocation kind format tree hpath⟩
  · intro halt hparse
    exact run_of_halt invocation tree hparse

/-- A table for standard output that works or is full, for a file, for a name of standard output
that works or is full, and a command line that asks for no table. -/
theorem run_reports_fresh :
    (∃ text, (Kind.cgbPalette.render .array).1 = .ok text
      ∧ (run ⟨["cgb-palette"], .upTo .info, false⟩ FileTree.fresh).output = text.toUTF8)
    ∧ (run ⟨["cgb-palette"], .off, true⟩ FileTree.fresh).exitCode = 1
    ∧ (run ⟨["tile-rows", "rows.h", "-fheader"], .off, true⟩ FileTree.fresh).Follows
        ⟨["tile-rows", "rows.h", "-fheader"], .off, true⟩ .tileRows "rows.h"
        (Kind.tileRows.writeToPath .header "rows.h" (Host.ofTree FileTree.fresh))
    ∧ (∃ text, (Kind.cgbPalette.render .array).1 = .ok text
      ∧ (run ⟨["cgb-palette", "/dev/stdout"], .off, false⟩ FileTree.fresh).output = text.toUTF8)
    ∧ (run ⟨["cgb-palette", "/dev/stdout"], .off, true⟩ FileTree.fresh).output = ByteArray.empty
    ∧ (run ⟨["sprites"], .off, false⟩ FileTree.fresh).tree = FileTree.fresh := by
  have hfile : FileTree.fresh.device? "rows.h" ≠ some .standardOutput := by decide +kernel
  have houtput : FileTree.fresh.device? "/dev/stdout" = some .standardOutput := by decide +kernel
  refine ⟨?_, ?_, ?_, ?_, ?_, ?_⟩
  · obtain ⟨text, htext, hrun⟩ := (run_reports ⟨["cgb-palette"], .upTo .info, false⟩
      FileTree.fresh).1 .cgbPalette .array rfl rfl
    exact ⟨text, htext, by rw [hrun]⟩
  · rw [(run_reports ⟨["cgb-palette"], .off, true⟩ FileTree.fresh).2.1 .cgbPalette .array rfl rfl]
  · exact ((run_reports ⟨["tile-rows", "rows.h", "-fheader"], .off, true⟩
      FileTree.fresh).2.2.1 .tileRows .header "rows.h" rfl hfile).2 (.fresh false)
  · obtain ⟨text, _, htext, -, -, -, -, -, hreceived⟩ :=
      (run_reports ⟨["cgb-palette", "/dev/stdout"], .off, false⟩
        FileTree.fresh).2.2.2.1 .cgbPalette .array "/dev/stdout" rfl houtput
    exact ⟨text, htext, hreceived⟩
  · obtain ⟨_, _, -, -, -, -, -, -, hreceived⟩ :=
      (run_reports ⟨["cgb-palette", "/dev/stdout"], .off, true⟩
        FileTree.fresh).2.2.2.1 .cgbPalette .array "/dev/stdout" rfl houtput
    exact hreceived
  · exact ((run_reports ⟨["sprites"], .off, false⟩
      FileTree.fresh).2.2.2.2 (.usage (.unrecognizedCommand "sprites")) rfl).1

/-- A table for a path reaches standard output where the path is one of its names. -/
theorem output_ne_empty_of_devStdout :
    CommandLine.parse ["cgb-palette", "/dev/stdout"]
        = .ok ⟨.cgbPalette, .array, some "/dev/stdout"⟩
    ∧ (run ⟨["cgb-palette", "/dev/stdout"], .off, false⟩ FileTree.fresh).output
        ≠ ByteArray.empty := by
  have hparse : CommandLine.parse ["cgb-palette", "/dev/stdout"]
      = .ok ⟨.cgbPalette, .array, some "/dev/stdout"⟩ := rfl
  have hdevice : FileTree.fresh.device? "/dev/stdout" = some .standardOutput := by decide +kernel
  refine ⟨hparse, ?_⟩
  intro houtput
  rw [run_eq_of_parse _ _ hparse] at houtput
  have hreceived := runToPath_of_standardOutput ⟨["cgb-palette", "/dev/stdout"], .off, false⟩
    .cgbPalette .array FileTree.fresh hdevice
  have htext := hreceived.2.2.symm.trans houtput
  exact Kind.size_text_ne_zero .cgbPalette .array (congrArg ByteArray.size htext)

end Invocation

end PixelTables

import PixelTables.Catalogue.Kind
import PixelTables.Log
import PixelTables.Text.Utf8

/-!
# Writing a table

A table of the catalogue is generated and then emitted to a sink, or rendered as a text. Either
way one log record tells what is being emitted.

## Main Definitions

* `Logged` — the result of an operation, the state it leaves and the records it logged
* `Kind.write` — a table to a sink
* `Kind.render` — a table as text
-/

namespace PixelTables

/-- What an operation on a state leaves behind. -/
structure Logged (σ : Type) where
  /-- Success, or why it failed. -/
  result : Except Error Unit
  /-- The state after the operation, which may have failed half way. -/
  state : σ
  /-- The records logged, first to last. -/
  log : List Log.Record

namespace Kind

/-- The part of the program that reports about tables. -/
def logTarget : String := "gbtables::table"

/-- The record of an emission that begins. -/
def emitting (kind : Kind) (format : Format) (count : Nat) : Log.Record where
  level := .debug
  target := logTarget
  message :=
    "emitting " ++ Nat.repr count ++ " entries of " ++ kind.constName ++ " as " ++ format.name

/-- Generate a table and emit it to a sink. -/
def write {σ : Type} [Sink σ] (kind : Kind) (format : Format) (sink : σ) : Logged σ :=
  match kind.table with
  | .error broken => ⟨.error (.invariant broken), sink, []⟩
  | .ok table =>
    let log := [emitting kind format table.entries.length]
    match table.emit format sink with
    | .ok _ sink => ⟨.ok (), sink, log⟩
    | .error fault sink => ⟨.error (.write fault), sink, log⟩

/-- A table as text, with the records logged. -/
def render (kind : Kind) (format : Format) : Except Error String × List Log.Record :=
  let written := kind.write format ByteArray.empty
  (written.result.map fun _ => Utf8.decodeLossy written.state, written.log)

end Kind

end PixelTables

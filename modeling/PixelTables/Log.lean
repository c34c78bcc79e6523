import PixelTables.Text.Split

/-!
# Log records

Operations report what they do as log records. A record has a severity, the part of the program
it comes from and a message. A threshold decides which records are shown.

## Main Definitions

* `Log.Level` — severities
* `Log.Record` — one record
* `Log.Threshold.shows` — whether records of a severity are shown
* `Log.Record.lines`, `Log.Record.text` — a record as it is shown
-/

namespace PixelTables

namespace Log

/-- How severe a record is. -/
inductive Level where
  | error
  | warn
  | info
  | debug
  | trace
  deriving DecidableEq, Repr

/-- The word for a severity. -/
def Level.name : Level → String
  | .error => "ERROR"
  | .warn => "WARN"
  | .info => "INFO"
  | .debug => "DEBUG"
  | .trace => "TRACE"

/-- How much a threshold must admit for a severity to be shown. -/
def Level.verbosity : Level → Nat
  | .error => 1
  | .warn => 2
  | .info => 3
  | .debug => 4
  | .trace => 5

/-- The least severe records that are shown; with `off` none are. -/
inductive Threshold where
  | off
  | upTo (level : Level)
  deriving DecidableEq, Repr

namespace Threshold

/-- Only errors are shown unless something else is asked for. -/
instance : Inhabited Threshold := ⟨.upTo .error⟩

/-- The threshold with a name. -/
def ofName? : String → Option Threshold
  | "off" => some .off
  | "error" => some (.upTo .error)
  | "warn" => some (.upTo .warn)
  | "info" => some (.upTo .info)
  | "debug" => some (.upTo .debug)
  | "trace" => some (.upTo .trace)
  | _ => none

/-- Whether records of a severity are shown. -/
def shows : Threshold → Level → Bool
  | .off, _ => false
  | .upTo least, level => level.verbosity ≤ least.verbosity

end Threshold

/-- One report of an operation. -/
structure Record where
  /-- How severe it is. -/
  level : Level
  /-- The part of the program that reports. -/
  target : String
  /-- What it reports. -/
  message : String
  deriving DecidableEq, Repr

namespace Record

/-- The lines of a message as shown: those after the first are indented by four spaces. -/
def lines (record : Record) : List String :=
  match splitAtChar '\n' record.message.toList with
  | [] => []
  | first :: rest => String.ofList first :: rest.map fun line => "    " ++ String.ofList line

/-- A record as it is shown, its severity filled up to five places. -/
def text (record : Record) : String :=
  let level := record.level.name
  let fill := String.ofList (List.replicate (5 - level.length) ' ')
  "[" ++ level ++ fill ++ " " ++ record.target ++ "] " ++ String.intercalate "\n" record.lines

end Record

end Log

end PixelTables

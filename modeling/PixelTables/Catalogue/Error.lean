import PixelTables.Invariant
import PixelTables.Source.Sink

/-!
# Failures of table operations

What can go wrong when a table is looked up by name, generated and written.

## Main Definitions

* `Error` — the causes
* `Error.message` — their wording
* `Error.causes` — the chain of wordings from a failure down to what the system said
-/

namespace PixelTables

/-- Why an operation on a table failed. -/
inductive Error where
  /-- No table has the name. -/
  | unknownTable (name : String)
  /-- No format has the name. -/
  | unknownFormat (name : String)
  /-- The system refused the path. -/
  | io (path : String) (source : OsError)
  /-- The sink ended with a fault. -/
  | write (source : WriteFault)
  /-- Generation found one of its own rules broken. -/
  | invariant (broken : InvariantError)
  deriving DecidableEq, Repr

namespace Error

/-- The wording of a failure. -/
def message : Error → String
  | unknownTable name =>
    "unknown table '" ++ name
      ++ "' (expected one of: tile-rows, tile-rows-flipped, cgb-palette)"
  | unknownFormat name =>
    "unknown output format '" ++ name ++ "' (expected one of: array, header, rust)"
  | io path _ => "could not write table to '" ++ path ++ "'"
  | write source => "could not write table: " ++ source.message
  | invariant broken => broken.message

/-- The wording of a failure, then that of what caused it. -/
def causes (error : Error) : List String :=
  match error with
  | io _ source => [error.message, source.message]
  | write source => [error.message, source.message]
  | _ => [error.message]

end Error

end PixelTables

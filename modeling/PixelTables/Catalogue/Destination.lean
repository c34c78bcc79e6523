import PixelTables.Catalogue.Write
import PixelTables.Host

/-!
# Writing a table to a path

The whole table is rendered before the path is opened, so a generation that fails leaves no part
of a file behind.

## Main Definitions

* `Kind.settle` — what comes of the system's answer
* `Kind.writeToPath` — a table as the content of the file at a path
-/

namespace PixelTables

namespace Kind

/-- The record of a file that has been written. -/
def wrote (kind : Kind) (format : Format) (path : String) : Log.Record where
  level := .info
  target := logTarget
  message := "wrote " ++ kind.constName ++ " (" ++ format.name ++ ") to " ++ path

/-- What comes of the system's answer to the writing of a table to a path: the result, and what is
logged of it. -/
def settle (kind : Kind) (format : Format) (path : String) :
    Except OsError Unit → Except Error Unit × List Log.Record
  | .error source => (.error (.io path source), [])
  | .ok _ => (.ok (), [wrote kind format path])

/-- Generate a table and make its text the content of the file at a path. -/
def writeToPath (kind : Kind) (format : Format) (path : String) (host : Host) : Logged Host :=
  match kind.render format with
  | (.error e, log) => ⟨.error e, host, log⟩
  | (.ok text, log) =>
    let (answer, host) := host.write path text.toUTF8
    let (result, more) := kind.settle format path answer
    ⟨result, host, log ++ more⟩

end Kind

end PixelTables

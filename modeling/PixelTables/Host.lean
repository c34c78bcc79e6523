import PixelTables.FileTree.Operations
import PixelTables.Source.Sink

/-!
# Hosts

What a process acts on: a file tree, and its own standard streams. A path can lead to a stream too,
so bytes that are written to a path are either in the tree afterwards or with a stream, or a device
has forgotten them.

## Main Definitions

* `Host` — a file tree and the standard streams of a process
* `Host.ofTree` — a file tree for a process whose streams work
* `Host.pass` — write bytes to a device
* `Host.write` — write bytes to a path
-/

namespace PixelTables

/-- What a process acts on. -/
structure Host where
  /-- The file tree. -/
  tree : FileTree
  /-- The standard output of the process. -/
  output : OutputDevice
  /-- Its standard error, as far as tables are written to it. -/
  errorOutput : OutputDevice

namespace Host

/-- A file tree for a process whose streams work. -/
def ofTree (tree : FileTree) : Host := ⟨tree, .fresh false, .fresh false⟩

/-- Write bytes to a device. Where there are none nothing is refused. -/
def pass (host : Host) (device : FileTree.Device) (bytes : ByteArray) :
    Except OsError Unit × Host :=
  if bytes.size = 0 then (.ok (), host)
  else
    match device with
    | .null => (.ok (), host)
    | .failing reason | .locked reason => (.error reason, host)
    | .standardOutput =>
      let (answer, output) := host.output.take bytes
      (answer, { host with output })
    | .standardError =>
      let (answer, errorOutput) := host.errorOutput.take bytes
      (answer, { host with errorOutput })

/-- Write bytes to a path. They become the whole content of a file, which is made if it is missing;
a device gets them as they are. -/
def write (host : Host) (path : String) (bytes : ByteArray) : Except OsError Unit × Host :=
  match host.tree.openForWriting path with
  | .error reason => (.error reason, host)
  | .ok location =>
    match host.tree.lookup location with
    | some (.device device) => host.pass device bytes
    | _ =>
      let (answer, tree) := host.tree.fill location bytes
      (answer, { host with tree })

end Host

end PixelTables

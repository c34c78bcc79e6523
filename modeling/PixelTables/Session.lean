import PixelTables.FileTree.Standard
import PixelTables.Process

/-!
# Sessions

A session is a sequence of steps on one file tree: tables written to paths, processes run, and
files and directories handled by hand. A step that fails does not end the session.

## Main Definitions

* `Session.Step` — one step
* `Session.Answer` — what a step answers
* `Session.Step.run`, `Session.run` — the answers and the tree that steps leave
-/

namespace PixelTables

namespace Session

/-- One step of a session. -/
inductive Step where
  /-- Write a table to a path. -/
  | writeTable (kind : Kind) (format : Format) (path : String)
  /-- Run the program. -/
  | process (invocation : Invocation)
  /-- Make a directory. -/
  | makeDirectory (path : String)
  /-- Write a text to a file. -/
  | writeText (path text : String)
  /-- Remove a file. -/
  | remove (path : String)
  /-- Read a file. -/
  | read (path : String)
  /-- List everything below the working directory. -/
  | list
  deriving DecidableEq, Repr

/-- What a step answers. -/
inductive Answer where
  /-- A table was written or not, with the records logged. -/
  | wrote (result : Except Error Unit) (log : List Log.Record)
  /-- A process ended. -/
  | ended (outcome : Outcome)
  /-- A file or directory was handled or not; or a process could not be started. -/
  | handled (result : Except OsError Unit)
  /-- The content of a file, or why it cannot be read. -/
  | content (result : Except OsError ByteArray)
  /-- What is below the working directory. -/
  | listing (entries : List String)

/-- The answer to an operation on the tree, and the tree it leaves. -/
def handle (result : Except OsError FileTree) (tree : FileTree) : Answer × FileTree :=
  match result with
  | .ok tree => (.handled (.ok ()), tree)
  | .error error => (.handled (.error error), tree)

/-- Take one step. -/
def Step.run (step : Step) (tree : FileTree) : Answer × FileTree :=
  match step with
  | writeTable kind format path =>
    let written := kind.writeToPath format path (Host.ofTree tree)
    (.wrote written.result written.log, written.state.tree)
  | process invocation =>
    if invocation.isStartable then
      let outcome := invocation.run tree
      (.ended outcome, outcome.tree)
    else (.handled (.error .invalidInput), tree)
  | makeDirectory path => handle (tree.makeDirectory path) tree
  | writeText path text =>
    let (answer, host) := (Host.ofTree tree).write path text.toUTF8
    (.handled answer, host.tree)
  | remove path => handle (tree.remove path) tree
  | read path => (.content (tree.read path), tree)
  | list => (.listing tree.listing, tree)

/-- Take steps one after another. -/
def run (tree : FileTree) : List Step → List Answer × FileTree
  | [] => ([], tree)
  | step :: steps =>
    let (answer, tree) := step.run tree
    let (answers, tree) := run tree steps
    (answer :: answers, tree)

end Session

end PixelTables

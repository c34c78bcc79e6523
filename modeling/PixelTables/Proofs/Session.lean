import PixelTables.Proofs.Catalogue.Refusals
import PixelTables.Proofs.FileTree.Rewriting
import PixelTables.Proofs.Process
import PixelTables.Session

/-!
# What sessions leave behind

In a session in which tables are generated, by the library or by processes, a file holds the whole
of the table that was last written to it, as long as no file runs out of space, and all else is as
it was. A step that fails changes nothing then.

## Main Definitions

* `Session.Step.IsGeneration` — a step that generates a table
* `Session.Answer.isSuccess` — whether a step has done what it was asked for
* `Session.Step.request?` — the table and the path that a step asks for
* `Session.Write`, `Session.Step.write?` — a table that a step has put into a file
* `Session.writes` — the tables that steps put into files, first to last
* `Session.Step.put?`, `Session.puts` — the bytes that steps put into files, also those of a table
  for which a file has not space enough
* `Session.HasRoom` — no file of a session runs out of space

## Main Statements

* `Session.Step.run_of_request`, `Session.Step.tree_run` — one step
* `Session.filesWritten_run`, `Session.lookup_run_of_not_put`, `Session.lookup_run_of_last_put` — a
  whole session
* `Session.map_put_writes` — with room enough the bytes are those of whole tables
* `Session.run_keepsFiles` — what a session leaves behind, in full

## Design Notes

A write is told by the location that its path leads to in the tree that the step finds, so different
spellings of a path make no difference. A device keeps nothing, and a table that is written to one
is no write to a file. Files that are written do not change where a path leads, so what a step puts
where is settled by the tree that the session begins with.
-/

namespace PixelTables

namespace Session

/-! ## Requests, successes and writes -/

/-- The step generates a table, as an operation of the library or as a process. -/
def Step.IsGeneration : Step → Prop
  | .writeTable _ _ _ | .process _ => True
  | .makeDirectory _ | .writeText _ _ | .remove _ | .read _ | .list => False

/-- Whether the step has done what it was asked for. -/
def Answer.isSuccess : Answer → Bool
  | .wrote (.ok _) _ | .handled (.ok _) | .content (.ok _) | .listing _ => true
  | .wrote (.error _) _ | .handled (.error _) | .content (.error _) => false
  | .ended outcome => outcome.exitCode = 0

/-- The table, its format and the path that the step asks for. A process that writes to standard
output asks for no path, nor does one that cannot be started. -/
def Step.request? : Step → Option (Kind × Format × String)
  | .writeTable kind format path => some (kind, format, path)
  | .process invocation =>
    if invocation.isStartable then
      match CommandLine.parse invocation.words with
      | .ok ⟨kind, format, some path⟩ => some (kind, format, path)
      | .ok ⟨_, _, none⟩ | .error _ => none
    else none
  | .makeDirectory _ | .writeText _ _ | .remove _ | .read _ | .list => none

/-- A table in a file. -/
structure Write where
  /-- Where the file is. -/
  location : Location
  /-- The table. -/
  kind : Kind
  /-- Its format. -/
  format : Format
  deriving DecidableEq

/-- The bytes of the table, as a writer receives them that never fails. -/
def Write.bytes (write : Write) : ByteArray :=
  (write.kind.write write.format ByteArray.empty).state

/-- The table that the step has put into a file, if it was asked for one and has succeeded. -/
def Step.write? (step : Step) (tree : FileTree) : Option Write :=
  match step.request? with
  | none => none
  | some (kind, format, path) =>
    if (step.run tree).1.isSuccess ∧ tree.device? path = none then
      match tree.openForWriting path with
      | .ok location => some ⟨location, kind, format⟩
      | .error _ => none
    else none

/-- The tables that steps put into files, first to last. -/
def writes (tree : FileTree) : List Step → List Write
  | [] => []
  | step :: steps => (step.write? tree).toList ++ writes (step.run tree).2 steps

/-- No file that a step leads to runs out of space: it can hold the table that the step asks for. -/
def HasRoom (tree : FileTree) (steps : List Step) : Prop :=
  ∀ step ∈ steps, ∀ kind format path location,
    step.request? = some (kind, format, path) → tree.file? path = some location →
    tree.shortage? location (kind.write format ByteArray.empty).state = none

/-! ## One step -/

theorem Answer.isSuccess_wrote_iff {result : Except Error Unit} {log : List Log.Record} :
    (Answer.wrote result log).isSuccess = true ↔ result = .ok () := by
  cases result with
  | error _ => simp [isSuccess]
  | ok _ => simp [isSuccess]

namespace Step

variable {step : Step} {kind : Kind} {format : Format} {path : String}

/-- The file that the step leads to, with the bytes that it leaves there: the table, as far as the
file can hold it. -/
def put? (step : Step) (tree : FileTree) : Option (Location × ByteArray) :=
  match step.request? with
  | none => none
  | some (kind, format, path) =>
    (tree.file? path).map fun location =>
      (location, tree.fitting location (kind.generatedTable.text format).toUTF8)

theorem put?_eq_some_iff {tree : FileTree} {location : Location} {content : ByteArray} :
    step.put? tree = some (location, content)
      ↔ ∃ kind format path, step.request? = some (kind, format, path)
        ∧ tree.file? path = some location
        ∧ content = tree.fitting location (kind.generatedTable.text format).toUTF8 := by
  rw [put?]
  cases hrequest : step.request? with
  | none => simp
  | some request =>
    obtain ⟨kind, format, path⟩ := request
    dsimp only
    rw [Option.map_eq_some_iff]
    constructor
    · rintro ⟨other, hfile, hput⟩
      cases hput
      exact ⟨kind, format, path, rfl, hfile, rfl⟩
    · rintro ⟨_, _, _, hsame, hfile, rfl⟩
      cases hsame
      exact ⟨location, hfile, rfl⟩

theorem write?_eq_some_iff {tree : FileTree} {location : Location} :
    step.write? tree = some ⟨location, kind, format⟩
      ↔ ∃ path, step.request? = some (kind, format, path) ∧ tree.file? path = some location
        ∧ (step.run tree).1.isSuccess = true := by
  rw [write?]
  cases hrequest : step.request? with
  | none => simp
  | some request =>
    obtain ⟨kind', format', path⟩ := request
    dsimp only
    constructor
    · intro h
      split at h
      · next hsuccess =>
        cases hopen : tree.openForWriting path with
        | error _ =>
          rw [hopen] at h
          cases h
        | ok other =>
          rw [hopen] at h
          cases h
          exact ⟨path, rfl, FileTree.file?_eq_some_iff.2 ⟨hopen, hsuccess.2⟩, hsuccess.1⟩
      · cases h
    · rintro ⟨_, hsame, hfile, hsuccess⟩
      cases hsame
      obtain ⟨hopen, hdevice⟩ := FileTree.file?_eq_some_iff.1 hfile
      rw [if_pos ⟨hsuccess, hdevice⟩, hopen]

theorem parse_of_request {invocation : Invocation}
    (h : (Step.process invocation).request? = some (kind, format, path)) :
    invocation.isStartable = true
      ∧ CommandLine.parse invocation.words = .ok ⟨kind, format, some path⟩ := by
  rw [request?] at h
  split at h
  · next hstartable =>
    refine ⟨hstartable, ?_⟩
    split at h
    · next hparse =>
      cases h
      exact hparse
    · cases h
    · cases h
  · cases h

/-- A step that asks for a table at a path succeeds if the bytes of the table are taken there, and
they are all that it writes. -/
theorem run_of_request (h : step.request? = some (kind, format, path)) (tree : FileTree) :
    ∃ host : Host, host.tree = tree
      ∧ ((step.run tree).1.isSuccess = true
        ↔ (host.write path (kind.generatedTable.text format).toUTF8).1 = .ok ())
      ∧ (step.run tree).2 = tree.filled path (kind.generatedTable.text format).toUTF8 := by
  cases step with
  | writeTable kind' format' path' =>
    cases h
    refine ⟨Host.ofTree tree, rfl, ?_, kind.tree_writeToPath format path (Host.ofTree tree)⟩
    rw [Host.write_eq_ok_iff, ← Kind.result_writeToPath_eq_ok_iff]
    exact Answer.isSuccess_wrote_iff
  | process invocation =>
    obtain ⟨hstartable, hparse⟩ := parse_of_request h
    have hrun : invocation.run tree = invocation.runToPath kind format path tree :=
      Invocation.run_eq_of_parse invocation tree hparse
    have hfollows := invocation.runToPath_follows kind format tree path
    refine ⟨invocation.host tree, rfl, ?_, ?_⟩
    · rw [Host.write_eq_ok_iff, ← Kind.result_writeToPath_eq_ok_iff, Step.run, if_pos hstartable,
        hrun, ← hfollows.exitCode]
      exact decide_eq_true_iff
    · rw [Step.run, if_pos hstartable, hrun]
      exact hfollows.tree.trans (kind.tree_writeToPath format path (invocation.host tree))
  | makeDirectory _ | writeText _ _ | remove _ | read _ | list => cases h

/-- A process that is asked for no path leaves the tree as it is. -/
theorem tree_run_of_no_request (h : step.IsGeneration) (hrequest : step.request? = none)
    (tree : FileTree) : (step.run tree).2 = tree := by
  cases step with
  | writeTable kind format path => cases hrequest
  | process invocation =>
    rw [Step.run]
    split
    · next hstartable =>
      dsimp only
      cases hparse : CommandLine.parse invocation.words with
      | error halt => exact (Invocation.run_of_halt invocation tree hparse).1
      | ok run =>
        obtain ⟨kind, format, output⟩ := run
        cases output with
        | some path => simp [request?, hstartable, hparse] at hrequest
        | none =>
          have hrun : invocation.run tree = invocation.runToOutput kind format tree :=
            Invocation.run_eq_of_parse invocation tree hparse
          rw [hrun]
          cases hfull : invocation.outputIsFull with
          | true => rw [Invocation.runToOutput_of_isFull invocation kind format tree hfull]
          | false => rw [Invocation.runToOutput_of_works invocation kind format tree hfull]
    · rfl
  | makeDirectory _ | writeText _ _ | remove _ | read _ | list => exact absurd h id

/-- A step that generates a table puts its bytes into a file, or it leaves the tree as it is. -/
theorem tree_run (h : step.IsGeneration) (tree : FileTree) :
    (step.run tree).2
      = match step.put? tree with
        | some (location, content) => tree.insert location (.file content)
        | none => tree := by
  rw [put?]
  cases hrequest : step.request? with
  | none => exact tree_run_of_no_request h hrequest tree
  | some request =>
    obtain ⟨kind, format, path⟩ := request
    obtain ⟨-, -, -, htree⟩ := run_of_request hrequest tree
    rw [htree, FileTree.filled]
    dsimp only
    cases tree.file? path <;> rfl

variable {earlier tree : FileTree} {location : Location} {content : ByteArray}

/-- What a step puts where is not changed by files that have been written. -/
theorem put?_congr (h : FileTree.FilesWritten earlier tree) (step : Step) :
    step.put? tree = step.put? earlier := by
  rw [put?, put?]
  cases step.request? with
  | none => rfl
  | some request =>
    dsimp only
    rw [h.file?_eq]
    simp only [h.fitting_eq]

theorem canHoldFile_of_put (h : step.put? tree = some (location, content)) :
    tree.IsPlace location ∧ tree.CanHoldFile location := by
  obtain ⟨_, _, path, -, hfile, -⟩ := put?_eq_some_iff.1 h
  obtain ⟨hopen, hdevice⟩ := FileTree.file?_eq_some_iff.1 hfile
  exact ⟨FileTree.isPlace_of_opened hopen, FileTree.canHoldFile_of_opened hopen hdevice⟩

/-- A step writes a file at most. -/
theorem filesWritten_run (hstep : step.IsGeneration) (h : FileTree.FilesWritten earlier tree) :
    FileTree.FilesWritten earlier (step.run tree).2 := by
  rw [tree_run hstep]
  cases hput : step.put? tree with
  | none => exact h
  | some put =>
    obtain ⟨location, content⟩ := put
    obtain ⟨hplace, hcan⟩ := canHoldFile_of_put hput
    exact h.insert hplace ((h.canHoldFile_iff location).1 hcan) content

end Step

/-! ## Whole sessions -/

/-- What steps put into files, first to last. -/
def puts (tree : FileTree) (steps : List Step) : List (Location × ByteArray) :=
  steps.filterMap fun step => step.put? tree

variable {earlier tree : FileTree} {steps : List Step} {location : Location} {content : ByteArray}

theorem isGeneration_of_cons {step : Step} (h : ∀ other ∈ step :: steps, other.IsGeneration) :
    step.IsGeneration ∧ ∀ other ∈ steps, other.IsGeneration :=
  ⟨h step List.mem_cons_self, fun other hother => h other (List.mem_cons_of_mem _ hother)⟩

theorem run_cons (tree : FileTree) (step : Step) (steps : List Step) :
    (run tree (step :: steps)).2 = (run (step.run tree).2 steps).2 := rfl

theorem puts_cons_of_none {step : Step} (h : step.put? tree = none) (steps : List Step) :
    puts tree (step :: steps) = puts tree steps :=
  List.filterMap_cons_none h

theorem puts_cons_of_some {step : Step} {put : Location × ByteArray}
    (h : step.put? tree = some put) (steps : List Step) :
    puts tree (step :: steps) = put :: puts tree steps :=
  List.filterMap_cons_some h

/-- A session writes files at most. -/
theorem filesWritten_run (h : ∀ step ∈ steps, step.IsGeneration)
    (hfiles : FileTree.FilesWritten earlier tree) :
    FileTree.FilesWritten earlier (run tree steps).2 := by
  induction steps generalizing tree with
  | nil => exact hfiles
  | cons step steps ih =>
    obtain ⟨hstep, hsteps⟩ := isGeneration_of_cons h
    exact ih hsteps (step.filesWritten_run hstep hfiles)

/-- A location at which nothing is put is as it was. -/
theorem lookup_run_of_not_put (h : ∀ step ∈ steps, step.IsGeneration)
    (hfiles : FileTree.FilesWritten earlier tree)
    (hputs : ∀ put ∈ puts earlier steps, put.1 ≠ location) :
    (run tree steps).2.lookup location = tree.lookup location := by
  induction steps generalizing tree with
  | nil => rfl
  | cons step steps ih =>
    obtain ⟨hstep, hsteps⟩ := isGeneration_of_cons h
    have hnext := step.filesWritten_run hstep hfiles
    have hput := step.put?_congr hfiles
    rw [run_cons]
    cases hfirst : step.put? earlier with
    | none =>
      rw [puts_cons_of_none hfirst] at hputs
      rw [ih hsteps hnext hputs, step.tree_run hstep, hput, hfirst]
    | some put =>
      rw [hfirst] at hput
      rw [puts_cons_of_some hfirst] at hputs
      have hother := hputs put List.mem_cons_self
      have hplace := (Step.canHoldFile_of_put hput).1
      rw [ih hsteps hnext fun other hmem => hputs other (List.mem_cons_of_mem _ hmem),
        step.tree_run hstep, hput]
      dsimp only
      rw [tree.lookup_insert hplace, if_neg (Ne.symm hother)]

/-- A file holds what was last put there. The induction is on the steps: the last put is that of the
first step or of one of the others. -/
theorem lookup_run_of_last_put (h : ∀ step ∈ steps, step.IsGeneration)
    (hfiles : FileTree.FilesWritten earlier tree) {before later : List (Location × ByteArray)}
    (hputs : puts earlier steps = before ++ (location, content) :: later)
    (hlater : ∀ put ∈ later, put.1 ≠ location) :
    (run tree steps).2.lookup location = some (.file content) := by
  induction steps generalizing tree before with
  | nil => simp [puts] at hputs
  | cons step steps ih =>
    obtain ⟨hstep, hsteps⟩ := isGeneration_of_cons h
    have hnext := step.filesWritten_run hstep hfiles
    have hput := step.put?_congr hfiles
    rw [run_cons]
    cases hfirst : step.put? earlier with
    | none =>
      rw [puts_cons_of_none hfirst] at hputs
      exact ih hsteps hnext hputs
    | some put =>
      rw [hfirst] at hput
      rw [puts_cons_of_some hfirst] at hputs
      cases before with
      | nil =>
        obtain ⟨rfl, rfl⟩ := List.cons_eq_cons.1 hputs
        have hplace := (Step.canHoldFile_of_put hput).1
        rw [lookup_run_of_not_put hsteps hnext hlater, step.tree_run hstep, hput]
        dsimp only
        rw [tree.lookup_insert hplace, if_pos rfl]
      | cons other before => exact ih hsteps hnext (List.cons_eq_cons.1 hputs).2

/-! ## Sessions in which no file runs out of space -/

/-- What a write puts into its file. -/
def Write.put (write : Write) : Location × ByteArray := (write.location, write.bytes)

/-- A step that leads to a file with room enough succeeds. -/
theorem Step.write?_of_file {step : Step} {kind : Kind} {format : Format} {path : String}
    (h : step.request? = some (kind, format, path)) (hfile : tree.file? path = some location)
    (hspace : tree.shortage? location (kind.generatedTable.text format).toUTF8 = none) :
    step.write? tree = some ⟨location, kind, format⟩ := by
  refine write?_eq_some_iff.2 ⟨path, h, hfile, ?_⟩
  obtain ⟨host, rfl, hsuccess, -⟩ := run_of_request h tree
  rw [hsuccess, Host.write_of_file hfile, FileTree.fill, hspace]

/-- With room enough a step leaves the whole of its table. -/
theorem Step.map_put_write? {step : Step} (hroom : HasRoom earlier [step])
    (hfiles : FileTree.FilesWritten earlier tree) :
    (step.write? tree).map Write.put = step.put? tree := by
  have hwhole : ∀ kind format path location, step.request? = some (kind, format, path) →
      tree.file? path = some location →
      tree.shortage? location (kind.generatedTable.text format).toUTF8 = none := by
    intro kind format path location hrequest hfile
    rw [hfiles.file?_eq] at hfile
    rw [hfiles.shortage?_eq, ← Kind.state_write_memory]
    exact hroom step List.mem_cons_self kind format path location hrequest hfile
  apply Option.ext
  rintro ⟨location, content⟩
  rw [Option.map_eq_some_iff, put?_eq_some_iff]
  constructor
  · rintro ⟨⟨_, kind, format⟩, hwrite, hput⟩
    obtain ⟨path, hrequest, hfile, -⟩ := write?_eq_some_iff.1 hwrite
    cases hput
    refine ⟨kind, format, path, hrequest, hfile, ?_⟩
    rw [FileTree.fitting_eq_of_shortage? (hwhole kind format path _ hrequest hfile)]
    exact kind.state_write_memory format
  · rintro ⟨kind, format, path, hrequest, hfile, rfl⟩
    have hspace := hwhole kind format path location hrequest hfile
    refine ⟨⟨location, kind, format⟩, write?_of_file hrequest hfile hspace, ?_⟩
    rw [FileTree.fitting_eq_of_shortage? hspace, ← Kind.state_write_memory]
    rfl

theorem HasRoom.of_cons {step : Step} (h : HasRoom tree (step :: steps)) :
    HasRoom tree [step] ∧ HasRoom tree steps := by
  refine ⟨?_, fun other hother => h other (List.mem_cons_of_mem _ hother)⟩
  intro other hother
  cases List.mem_singleton.1 hother
  exact h step List.mem_cons_self

/-- The tables that steps put into files are all that they put there. -/
theorem map_put_writes (h : ∀ step ∈ steps, step.IsGeneration) (hroom : HasRoom earlier steps)
    (hfiles : FileTree.FilesWritten earlier tree) :
    (writes tree steps).map Write.put = puts earlier steps := by
  induction steps generalizing tree with
  | nil => rfl
  | cons step steps ih =>
    obtain ⟨hstep, hsteps⟩ := isGeneration_of_cons h
    obtain ⟨hfirst, hrest⟩ := hroom.of_cons
    have hput := (step.map_put_write? hfirst hfiles).trans (step.put?_congr hfiles)
    rw [writes, List.map_append, ih hsteps hrest (step.filesWritten_run hstep hfiles)]
    cases hwrite : step.write? tree with
    | none =>
      rw [hwrite] at hput
      rw [puts_cons_of_none hput.symm]
      rfl
    | some write =>
      rw [hwrite] at hput
      rw [puts_cons_of_some hput.symm]
      rfl

/-- A step that fails although files have room enough leaves the tree as it is. -/
theorem Step.tree_run_of_failure {step : Step} (h : step.IsGeneration)
    (hroom : HasRoom earlier [step]) (hfiles : FileTree.FilesWritten earlier tree)
    (hfailure : (step.run tree).1.isSuccess = false) : (step.run tree).2 = tree := by
  rw [step.tree_run h]
  have hput := step.map_put_write? hroom hfiles
  cases hwrite : step.write? tree with
  | none =>
    rw [hwrite] at hput
    rw [← hput]
    rfl
  | some write =>
    obtain ⟨_, -, -, hsuccess⟩ := write?_eq_some_iff.1 hwrite
    rw [hfailure] at hsuccess
    cases hsuccess

/-- Tables are generated on a file tree, by the library and by processes, as often as you like, and
no file runs out of space. No directory is made or removed, and the tree is set up as before. A file
that a table was put into holds the whole of the last one and nothing else, whatever it held before,
and every other location is as it was. A step that fails leaves the tree as it finds it. -/
theorem run_keepsFiles (tree : FileTree) (steps : List Step)
    (h : ∀ step ∈ steps, step.IsGeneration) (hroom : HasRoom tree steps) :
    ((run tree steps).2.workingDirectory = tree.workingDirectory
      ∧ (run tree steps).2.links = tree.links ∧ (run tree steps).2.closed = tree.closed
      ∧ (run tree steps).2.limits = tree.limits)
    ∧ (∀ location, (run tree steps).2.lookup location = some .directory
      ↔ tree.lookup location = some .directory)
    ∧ (∀ before write later, writes tree steps = before ++ write :: later →
      (∀ other ∈ later, other.location ≠ write.location) →
      (run tree steps).2.lookup write.location
        = some (.file (write.kind.write write.format ByteArray.empty).state))
    ∧ (∀ location, (∀ write ∈ writes tree steps, write.location ≠ location) →
      (run tree steps).2.lookup location = tree.lookup location)
    ∧ ∀ earlier step later, steps = earlier ++ step :: later →
      (step.run (run tree earlier).2).1.isSuccess = false →
      (step.run (run tree earlier).2).2 = (run tree earlier).2 := by
  have hfiles := filesWritten_run h (.refl tree)
  have hputs := map_put_writes h hroom (.refl tree)
  refine ⟨⟨hfiles.workingDirectory, hfiles.links, hfiles.closed, hfiles.limits⟩,
    hfiles.lookup_eq_directory_iff, ?_, ?_, ?_⟩
  · intro before write later hwrites hlater
    rw [hwrites, List.map_append, List.map_cons] at hputs
    refine lookup_run_of_last_put h (.refl tree) hputs.symm ?_
    intro put hput
    obtain ⟨other, hother, rfl⟩ := List.mem_map.1 hput
    exact hlater other hother
  · intro location hwrites
    refine lookup_run_of_not_put h (.refl tree) ?_
    intro put hput
    rw [← hputs] at hput
    obtain ⟨write, hwrite, rfl⟩ := List.mem_map.1 hput
    exact hwrites write hwrite
  · intro earlier step later hsteps hfailure
    have hearlier : ∀ other ∈ earlier, other.IsGeneration := by
      intro other hother
      exact h other (hsteps ▸ List.mem_append_left _ hother)
    have hmem : step ∈ steps := hsteps ▸ List.mem_append_right _ List.mem_cons_self
    have hspace : HasRoom tree [step] := by
      intro other hother
      cases List.mem_singleton.1 hother
      exact hroom step hmem
    exact step.tree_run_of_failure (h step hmem) hspace (filesWritten_run hearlier (.refl tree))
      hfailure

/-- A process puts a table in the place of one that the library wrote under another spelling of the
path, although its standard output is full. -/
theorem run_keepsFiles_twoSpellings :
    (run FileTree.fresh
        [.writeTable .cgbPalette .array "palette.h",
          .process ⟨["tile-rows", "./palette.h", "-frust"], .off, true⟩]).2.lookup
        ["tmp", "/", "palette.h"]
      = some (.file (Kind.tileRows.write .rust ByteArray.empty).state) := by
  let first : Step := .writeTable .cgbPalette .array "palette.h"
  let second : Step := .process ⟨["tile-rows", "./palette.h", "-frust"], .off, true⟩
  have hgeneration : ∀ step ∈ [first, second], step.IsGeneration := by
    intro step hstep
    simp only [first, second, List.mem_cons, List.not_mem_nil, or_false] at hstep
    rcases hstep with rfl | rfl <;> trivial
  -- No file of this tree can run out of space.
  have hroom : HasRoom FileTree.fresh [first, second] := fun _ _ _ _ _ _ _ _ => rfl
  have hfirst : first.write? FileTree.fresh
      = some ⟨["tmp", "/", "palette.h"], .cgbPalette, .array⟩ :=
    Step.write?_of_file rfl rfl rfl
  -- The second spelling leads to the same file, whatever that holds.
  have hfiles := first.filesWritten_run (hgeneration first List.mem_cons_self)
    (.refl FileTree.fresh)
  have hsecond : second.write? (first.run FileTree.fresh).2
      = some ⟨["tmp", "/", "palette.h"], .tileRows, .rust⟩ := by
    have hpath : FileTree.fresh.file? "./palette.h" = some ["tmp", "/", "palette.h"] := rfl
    refine Step.write?_of_file rfl ((hfiles.file?_eq "./palette.h").trans hpath) ?_
    rw [hfiles.shortage?_eq]
    rfl
  have hwrites : writes FileTree.fresh [first, second]
      = [⟨["tmp", "/", "palette.h"], .cgbPalette, .array⟩,
        ⟨["tmp", "/", "palette.h"], .tileRows, .rust⟩] := by
    rw [writes, writes, hfirst, hsecond]
    rfl
  exact (run_keepsFiles FileTree.fresh [first, second] hgeneration hroom).2.2.1 [_]
    ⟨_, .tileRows, .rust⟩ [] hwrites nofun

end Session

end PixelTables

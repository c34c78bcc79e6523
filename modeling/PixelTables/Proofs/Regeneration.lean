import PixelTables.Proofs.FileTree.Rewriting
import PixelTables.Proofs.Session

/-!
# Tables written in any order

Tables that are written to different files can be written in any order, and written again, without
any change to what is there in the end. Whether a table reaches its path is settled by the tree that
the first one finds, so the same ones reach theirs in every order.

## Main Definitions

* `Session.Request` — a table, its format and the path that it is to be written to
* `Session.Request.Succeeds` — the table is written to its path
* `Session.performAll` — the tree that requests leave

## Main Statements

* `Session.same_run_of_mem_puts_iff` — sessions that put the same into files leave the same tree
* `Session.Request.put?_eq_some_iff` — when a request puts bytes into a file
* `Session.eq_of_mem_puts` — where requests agree on their tables they put one thing into a file
* `Session.regenerations_commute` — requests in two orders, and requests made again

## Design Notes

Requests are not independent as they stand: one can make a file where the path of another one looks
for a directory, and two can spell one file in different ways. The first does no harm, because
nothing was there before and no path led through it. The second is asked of the tree that the
requests begin with, as a path that is refused there is refused ever after. A file that cannot hold
a table keeps the first part of it, and it is the same part every time.
-/

namespace PixelTables

namespace Session

/-! ## What the puts tell of a tree -/

theorem run_append (tree : FileTree) (steps others : List Step) :
    (run tree (steps ++ others)).2 = (run (run tree steps).2 others).2 := by
  induction steps generalizing tree with
  | nil => rfl
  | cons step steps ih => exact ih (step.run tree).2

/-- Where nothing else is put into a file, it holds that. -/
theorem lookup_run_of_only_put {steps : List Step} (h : ∀ step ∈ steps, step.IsGeneration)
    {tree : FileTree} {location : Location} {content : ByteArray}
    (hmem : (location, content) ∈ puts tree steps)
    (honly : ∀ put ∈ puts tree steps, put.1 = location → put = (location, content)) :
    (run tree steps).2.lookup location = some (.file content) := by
  -- After the last occurrence of the put nothing is put into the same file.
  obtain ⟨later, before, hreverse, hlast⟩ :=
    List.eq_append_cons_of_mem (List.mem_reverse.2 hmem)
  have hputs : puts tree steps = before.reverse ++ (location, content) :: later.reverse := by
    rw [List.reverse_eq_iff] at hreverse
    simpa using hreverse
  refine lookup_run_of_last_put h (.refl tree) hputs ?_
  intro put hput hlocation
  have hlater : put ∈ later := List.mem_reverse.1 hput
  have hall : put ∈ puts tree steps := by
    rw [hputs]
    exact List.mem_append_right _ (List.mem_cons_of_mem _ hput)
  exact hlast (honly put hall hlocation ▸ hlater)

/-- Sessions that put the same into the same files, one thing into each, leave the same tree. -/
theorem same_run_of_mem_puts_iff {steps others : List Step}
    (hsteps : ∀ step ∈ steps, step.IsGeneration) (hothers : ∀ step ∈ others, step.IsGeneration)
    {tree : FileTree} (hmem : ∀ put, put ∈ puts tree steps ↔ put ∈ puts tree others)
    (hagree : ∀ a ∈ puts tree steps, ∀ b ∈ puts tree steps, a.1 = b.1 → a = b) :
    (run tree steps).2.Same (run tree others).2 := by
  have hleft := filesWritten_run hsteps (.refl tree)
  have hright := filesWritten_run hothers (.refl tree)
  refine ⟨hleft.workingDirectory.trans hright.workingDirectory.symm,
    hleft.links.trans hright.links.symm, hleft.closed.trans hright.closed.symm,
    hleft.limits.trans hright.limits.symm, ?_⟩
  intro location
  by_cases hput : ∃ content, (location, content) ∈ puts tree steps
  · obtain ⟨content, hput⟩ := hput
    rw [lookup_run_of_only_put hsteps hput fun other hother => hagree other hother _ hput,
      lookup_run_of_only_put hothers ((hmem _).1 hput) fun other hother =>
        hagree other ((hmem other).2 hother) _ hput]
  · have hnot : ∀ put ∈ puts tree steps, put.1 ≠ location := by
      rintro ⟨_, content⟩ hmemPut rfl
      exact hput ⟨content, hmemPut⟩
    rw [lookup_run_of_not_put hsteps (.refl tree) hnot,
      lookup_run_of_not_put hothers (.refl tree) fun put hother => hnot put ((hmem put).2 hother)]

/-! ## One request -/

/-- A table that is to be written to a path. -/
structure Request where
  /-- The table. -/
  kind : Kind
  /-- Its format. -/
  format : Format
  /-- The path. -/
  path : String
  deriving DecidableEq, Repr

namespace Request

/-- The step of a session that the request asks for. -/
def step (request : Request) : Step :=
  .writeTable request.kind request.format request.path

/-- The table is written to its path. -/
def Succeeds (request : Request) (tree : FileTree) : Prop :=
  (request.step.run tree).1.isSuccess = true

variable {request : Request} {earlier tree : FileTree}

/-- A request succeeds where the path takes the bytes of the table. -/
theorem succeeds_iff :
    request.Succeeds tree
      ↔ ((Host.ofTree tree).write request.path
        (request.kind.generatedTable.text request.format).toUTF8).1 = .ok () := by
  rw [Host.write_eq_ok_iff, ← Kind.result_writeToPath_eq_ok_iff]
  exact Answer.isSuccess_wrote_iff

/-- A request succeeds as it would have before files were written. -/
theorem succeeds_congr (h : FileTree.FilesWritten earlier tree) :
    request.Succeeds tree ↔ request.Succeeds earlier := by
  rw [succeeds_iff, succeeds_iff, h.write_eq_ok_iff]

/-- Bytes are put into a file if and only if the path leads to one. -/
theorem put?_eq_some_iff {put : Location × ByteArray} :
    request.step.put? tree = some put
      ↔ tree.file? request.path = some put.1
        ∧ put.2 = tree.fitting put.1 (request.kind.generatedTable.text request.format).toUTF8 := by
  rw [Step.put?_eq_some_iff]
  constructor
  · rintro ⟨_, _, _, hrequest, hfile, hcontent⟩
    cases hrequest
    exact ⟨hfile, hcontent⟩
  · rintro ⟨hfile, hcontent⟩
    exact ⟨_, _, _, rfl, hfile, hcontent⟩

end Request

/-! ## Many requests -/

/-- The tree that requests leave, made one after another. -/
def performAll (tree : FileTree) (requests : List Request) : FileTree :=
  (run tree (requests.map Request.step)).2

variable {tree : FileTree} {requests : List Request}

theorem performAll_append (tree : FileTree) (requests others : List Request) :
    performAll tree (requests ++ others) = performAll (performAll tree requests) others := by
  rw [performAll, List.map_append, run_append]
  rfl

theorem isGeneration_of_mem_requests {step : Step} (h : step ∈ requests.map Request.step) :
    step.IsGeneration := by
  obtain ⟨request, -, rfl⟩ := List.mem_map.1 h
  trivial

/-- Requests write files at most. -/
theorem filesWritten_performAll (tree : FileTree) (requests : List Request) :
    FileTree.FilesWritten tree (performAll tree requests) :=
  filesWritten_run (fun _ => isGeneration_of_mem_requests) (.refl tree)

theorem mem_puts_iff {put : Location × ByteArray} :
    put ∈ puts tree (requests.map Request.step)
      ↔ ∃ request ∈ requests, request.step.put? tree = some put := by
  simp [puts]

/-- Where requests that lead to one file ask for one table, they put one thing into it. -/
theorem eq_of_mem_puts
    (h : ∀ a ∈ requests, ∀ b ∈ requests, tree.LeadToSameFile a.path b.path →
      a.kind = b.kind ∧ a.format = b.format)
    {v w : Location × ByteArray} (hv : v ∈ puts tree (requests.map Request.step))
    (hw : w ∈ puts tree (requests.map Request.step)) (hlocation : v.1 = w.1) : v = w := by
  obtain ⟨a, ha, hput⟩ := mem_puts_iff.1 hv
  obtain ⟨b, hb, hput'⟩ := mem_puts_iff.1 hw
  obtain ⟨hfile, hcontent⟩ := Request.put?_eq_some_iff.1 hput
  obtain ⟨hfile', hcontent'⟩ := Request.put?_eq_some_iff.1 hput'
  rw [← hlocation] at hfile' hcontent'
  obtain ⟨hopen, hdevice⟩ := FileTree.file?_eq_some_iff.1 hfile
  obtain ⟨hopen', -⟩ := FileTree.file?_eq_some_iff.1 hfile'
  obtain ⟨hkind, hformat⟩ := h a ha b hb
    ⟨v.1, hopen, hopen', FileTree.canHoldFile_of_opened hopen hdevice⟩
  refine Prod.ext hlocation ?_
  rw [hcontent, hcontent', hkind, hformat]

/-- The same requests in another order, or made more often, leave the same tree. -/
theorem same_performAll (tree : FileTree) {order others : List Request}
    (hmem : ∀ request, request ∈ order ↔ request ∈ others)
    (h : ∀ a ∈ order, ∀ b ∈ order, tree.LeadToSameFile a.path b.path →
      a.kind = b.kind ∧ a.format = b.format) :
    (performAll tree order).Same (performAll tree others) := by
  refine same_run_of_mem_puts_iff (fun _ => isGeneration_of_mem_requests)
    (fun _ => isGeneration_of_mem_requests) ?_ fun v hv w hw => eq_of_mem_puts h hv hw
  intro put
  simp only [mem_puts_iff, hmem]

/-- Regenerations to different files need no coordination. Where requests that lead to one file ask
for the same table in the same format, any two orders of them leave the same tree, a request
succeeds in both orders or in neither, and nothing changes when all are made once more. -/
theorem regenerations_commute {tree : FileTree} {requests : List Request}
    (h : ∀ a ∈ requests, ∀ b ∈ requests, tree.LeadToSameFile a.path b.path →
      a.kind = b.kind ∧ a.format = b.format)
    {order order' : List Request} (horder : order.Perm requests) (horder' : order'.Perm requests) :
    (performAll tree order).Same (performAll tree order')
      ∧ (∀ request before after before' after', order = before ++ request :: after →
        order' = before' ++ request :: after' →
        (request.Succeeds (performAll tree before) ↔ request.Succeeds (performAll tree before')))
      ∧ (performAll (performAll tree order) order').Same (performAll tree order) := by
  have hmem : ∀ request, request ∈ order ↔ request ∈ order' := by
    intro request
    rw [horder.mem_iff, horder'.mem_iff]
  have hagree : ∀ a ∈ order, ∀ b ∈ order, tree.LeadToSameFile a.path b.path →
      a.kind = b.kind ∧ a.format = b.format := by
    intro a ha b hb
    exact h a (horder.mem_iff.1 ha) b (horder.mem_iff.1 hb)
  refine ⟨same_performAll tree hmem hagree, ?_, ?_⟩
  · intro request before after before' after' _ _
    rw [Request.succeeds_congr (filesWritten_performAll tree before),
      Request.succeeds_congr (filesWritten_performAll tree before')]
  · rw [← performAll_append]
    have hboth : ∀ request, request ∈ order ++ order' ↔ request ∈ order := by
      intro request
      rw [List.mem_append, ← hmem, or_self]
    refine same_performAll tree hboth ?_
    intro a ha b hb
    exact hagree a ((hboth a).1 ha) b ((hboth b).1 hb)

/-- Of four requests two spell one file in different ways, one looks for a directory where they make
the file, and one writes another file. In the opposite order they leave the same tree. -/
theorem regenerations_commute_opposite :
    let requests : List Request :=
      [⟨.cgbPalette, .array, "palette.h"⟩, ⟨.tileRows, .rust, "palette.h/../rows.rs"⟩,
        ⟨.cgbPalette, .array, "./palette.h"⟩, ⟨.tileRowsFlipped, .header, "flipped.h"⟩]
    (∀ a ∈ requests, ∀ b ∈ requests, FileTree.fresh.LeadToSameFile a.path b.path →
        a.kind = b.kind ∧ a.format = b.format)
      ∧ (performAll FileTree.fresh requests).Same (performAll FileTree.fresh requests.reverse) := by
  intro requests
  have hrefused : FileTree.fresh.openForWriting "palette.h/../rows.rs" = .error .notFound := rfl
  have hpalette : FileTree.fresh.openForWriting "palette.h" = .ok ["tmp", "/", "palette.h"] := rfl
  have hspelled : FileTree.fresh.openForWriting "./palette.h" = .ok ["tmp", "/", "palette.h"] := rfl
  have hflipped : FileTree.fresh.openForWriting "flipped.h" = .ok ["tmp", "/", "flipped.h"] := rfl
  have hagree : ∀ a ∈ requests, ∀ b ∈ requests, FileTree.fresh.LeadToSameFile a.path b.path →
      a.kind = b.kind ∧ a.format = b.format := by
    intro a ha b hb
    rintro ⟨location, hopen, hopen', -⟩
    simp only [requests, List.mem_cons, List.not_mem_nil, or_false] at ha hb
    rcases ha with rfl | rfl | rfl | rfl <;> rcases hb with rfl | rfl | rfl | rfl <;>
      simp_all
  exact ⟨hagree, (regenerations_commute hagree (.refl _) (List.reverse_perm _)).1⟩

end Session

end PixelTables

import PixelTables.Proofs.Host

/-!
# Trees in which files have been written

Files that are written, or made where they can be, change neither where a path leads nor whether it
can be written to. What has been made is no directory, so no path leads through it, and none led
through its place before. Only the reason that is given for a refusal can change.

## Main Definitions

* `FileTree.CanHoldFile` — a file is at a location, or can be made there
* `FileTree.LeadToSameFile` — two paths lead to one file, which may not be there yet
* `FileTree.FilesWritten` — a tree is an earlier one with files written

## Main Statements

* `FileTree.FilesWritten.parent_eq_ok_iff` — a path leads to the same directory
* `FileTree.FilesWritten.openForWriting_eq_ok_iff` — a path opens the same location
* `FileTree.FilesWritten.file?_eq` — a path leads to the same file
* `FileTree.FilesWritten.write_eq_ok_iff` — a path takes bytes if and only if it did before
* `FileTree.FilesWritten.insert` — one more file can be written
-/

namespace PixelTables

/-- Computations that succeed alike, and go on alike from there, succeed alike as a whole. -/
theorem bind_eq_ok_congr {ε α β : Type} {x y : Except ε α} {f g : α → Except ε β} {b : β}
    (hxy : ∀ a, x = .ok a ↔ y = .ok a) (hfg : ∀ a, f a = .ok b ↔ g a = .ok b) :
    x >>= f = .ok b ↔ y >>= g = .ok b := by
  cases x with
  | ok a =>
    rw [(hxy a).1 rfl]
    exact hfg a
  | error _ =>
    cases y with
    | ok a => cases (hxy a).2 rfl
    | error _ => exact ⟨nofun, nofun⟩

namespace FileTree

/-- A file is at the location, or there is nothing and a file can be made. -/
def CanHoldFile (tree : FileTree) (location : Location) : Prop :=
  tree.IsWritable location ∧ ∀ device, tree.lookup location ≠ some (.device device)

/-- Both paths lead to one file, which may not be there yet. -/
def LeadToSameFile (tree : FileTree) (path other : String) : Prop :=
  ∃ location, tree.openForWriting path = .ok location
    ∧ tree.openForWriting other = .ok location ∧ tree.CanHoldFile location

theorem canHoldFile_of_opened {tree : FileTree} {path : String} {location : Location}
    (hopen : tree.openForWriting path = .ok location) (hfile : tree.device? path = none) :
    tree.CanHoldFile location := by
  obtain ⟨_, _, _, _, -, -, -, -, -, hwritable⟩ := FileTree.openForWriting_eq_ok_iff.1 hopen
  exact ⟨hwritable, (device?_eq_none_iff hopen).1 hfile⟩

/-- The tree is the earlier one with files written, or made where they can be. -/
structure FilesWritten (earlier tree : FileTree) : Prop where
  workingDirectory : tree.workingDirectory = earlier.workingDirectory
  links : tree.links = earlier.links
  closed : tree.closed = earlier.closed
  limits : tree.limits = earlier.limits
  /-- Where something else is than before, it is a file, and one could be there before. -/
  lookup : ∀ location, tree.lookup location = earlier.lookup location
    ∨ earlier.CanHoldFile location ∧ ∃ content, tree.lookup location = some (.file content)

namespace FilesWritten

variable {earlier tree : FileTree}

theorem refl (tree : FileTree) : FilesWritten tree tree :=
  ⟨rfl, rfl, rfl, rfl, fun _ => Or.inl rfl⟩

/-- A node that is no file is at a location if and only if it was there before. -/
theorem lookup_eq_iff (h : FilesWritten earlier tree) {location : Location} {node : Node}
    (hnode : ∀ content, node ≠ .file content)
    (hearlier : earlier.CanHoldFile location → earlier.lookup location ≠ some node) :
    tree.lookup location = some node ↔ earlier.lookup location = some node := by
  rcases h.lookup location with hsame | ⟨hcan, content, hfile⟩
  · rw [hsame]
  · constructor
    · intro hlookup
      rw [hfile, Option.some_inj] at hlookup
      exact absurd hlookup.symm (hnode content)
    · intro hlookup
      exact absurd hlookup (hearlier hcan)

theorem lookup_eq_directory_iff (h : FilesWritten earlier tree) (location : Location) :
    tree.lookup location = some .directory ↔ earlier.lookup location = some .directory := by
  refine h.lookup_eq_iff nofun ?_
  rintro ⟨hwritable, -⟩ hlookup
  rw [IsWritable, hlookup] at hwritable
  exact hwritable

theorem lookup_eq_device_iff (h : FilesWritten earlier tree) (location : Location)
    (device : Device) :
    tree.lookup location = some (.device device)
      ↔ earlier.lookup location = some (.device device) :=
  h.lookup_eq_iff nofun fun hcan => hcan.2 device

/-! ## Where paths lead -/

theorem closure?_eq (h : FilesWritten earlier tree) (directory : Location) :
    tree.closure? directory = earlier.closure? directory := by
  rw [closure?, closure?, h.closed]

theorem resolve_eq_ok_iff (h : FilesWritten earlier tree) {walk next : Walk} :
    tree.resolve walk = .ok next ↔ earlier.resolve walk = .ok next := by
  simp only [FileTree.resolve_eq_ok_iff, h.links, h.lookup_eq_directory_iff]

/-- An entry of a directory stands for the same as before. -/
theorem entry_eq_ok_iff (h : FilesWritten earlier tree) {directory next : Walk} {name : String} :
    tree.entry directory name = .ok next ↔ earlier.entry directory name = .ok next := by
  have hchild : tree.child directory.location name = earlier.child directory.location name := by
    rw [child, child, h.closure?_eq]
  rw [entry, entry, hchild]
  exact bind_eq_ok_congr (fun _ => Iff.rfl) fun _ => h.resolve_eq_ok_iff

/-- A path leads to the same directory as before. The induction is on the names that lead there. -/
theorem parent_eq_ok_iff (h : FilesWritten earlier tree) {path : Path} {directory : Walk} :
    tree.parent path = .ok directory ↔ earlier.parent path = .ok directory := by
  have hfollow : ∀ here name next,
      tree.follow here name = .ok next ↔ earlier.follow here name = .ok next := by
    intro here name next
    rw [follow, follow]
    split
    · exact Iff.rfl
    · split
      · exact Iff.rfl
      · rw [subdirectory_eq_ok_iff, subdirectory_eq_ok_iff, h.entry_eq_ok_iff,
          h.lookup_eq_directory_iff]
  have hstart : tree.start path = earlier.start path := by
    rw [start, start, h.workingDirectory]
  rw [parent, parent, hstart, walk, walk]
  generalize earlier.start path = here
  induction path.leading generalizing here with
  | nil => exact Iff.rfl
  | cons name names ih =>
    rw [List.foldlM_cons, List.foldlM_cons]
    exact bind_eq_ok_congr (hfollow here name) ih

/-- A location can be written to if and only if it could be before. -/
theorem isWritable_iff (h : FilesWritten earlier tree) (location : Location) :
    tree.IsWritable location ↔ earlier.IsWritable location := by
  rcases h.lookup location with hsame | ⟨hcan, content, hfile⟩
  · rw [IsWritable, IsWritable, hsame, h.closure?_eq]
  · refine iff_of_true ?_ hcan.1
    rw [IsWritable, hfile]
    trivial

/-- A file can be at a location if and only if one could be there before. -/
theorem canHoldFile_iff (h : FilesWritten earlier tree) (location : Location) :
    tree.CanHoldFile location ↔ earlier.CanHoldFile location := by
  simp only [CanHoldFile, h.isWritable_iff, ne_eq, h.lookup_eq_device_iff]

variable {path : String} {location : Location} {bytes : ByteArray}

/-- A path opens the same location as before. -/
theorem openForWriting_eq_ok_iff (h : FilesWritten earlier tree) :
    tree.openForWriting path = .ok location ↔ earlier.openForWriting path = .ok location := by
  simp only [FileTree.openForWriting_eq_ok_iff, h.parent_eq_ok_iff, h.isWritable_iff,
    h.entry_eq_ok_iff]

/-- A path leads to the same file as before. -/
theorem file?_eq (h : FilesWritten earlier tree) (path : String) :
    tree.file? path = earlier.file? path := by
  apply Option.ext
  intro location
  rw [file?_eq_some_iff, file?_eq_some_iff, h.openForWriting_eq_ok_iff]
  refine and_congr_right ?_
  intro hopen
  have hlater := h.openForWriting_eq_ok_iff.2 hopen
  simp only [device?_eq_none_iff hopen, device?_eq_none_iff hlater, ne_eq, h.lookup_eq_device_iff]

theorem fitting_eq (h : FilesWritten earlier tree) (location : Location) (bytes : ByteArray) :
    tree.fitting location bytes = earlier.fitting location bytes := by
  rw [fitting, fitting, limit?, limit?, h.limits]

theorem shortage?_eq (h : FilesWritten earlier tree) (location : Location) (bytes : ByteArray) :
    tree.shortage? location bytes = earlier.shortage? location bytes := by
  rw [shortage?, shortage?, limit?, limit?, h.limits]

/-- A path takes bytes if and only if it did before. -/
theorem write_eq_ok_iff (h : FilesWritten earlier tree) :
    ((Host.ofTree tree).write path bytes).1 = .ok ()
      ↔ ((Host.ofTree earlier).write path bytes).1 = .ok () := by
  have htree : (Host.ofTree tree).tree = tree := rfl
  have hearlier : (Host.ofTree earlier).tree = earlier := rfl
  rcases Host.path_cases earlier path with ⟨reason, hopen, -⟩ |
    ⟨location, device, hopen, hlookup, -⟩ | ⟨location, hfile⟩
  · -- A path that was refused is refused, maybe for another reason.
    cases hlater : tree.openForWriting path with
    | error other =>
      rw [Host.write_of_error (htree ▸ hlater), Host.write_of_error (hearlier ▸ hopen)]
      exact iff_of_false nofun nofun
    | ok location =>
      rw [h.openForWriting_eq_ok_iff.1 hlater] at hopen
      cases hopen
  · have hlater := h.openForWriting_eq_ok_iff.2 hopen
    have hdevice := (h.lookup_eq_device_iff location device).2 hlookup
    rw [Host.write_of_device (htree ▸ hlater) (htree ▸ hdevice),
      Host.write_of_device (hearlier ▸ hopen) (hearlier ▸ hlookup)]
    unfold Host.pass
    split
    · exact Iff.rfl
    · cases device <;> exact Iff.rfl
  · have hlater := (h.file?_eq path).trans hfile
    rw [Host.write_of_file (htree ▸ hlater), Host.write_of_file (hearlier ▸ hfile), fill, fill,
      htree, hearlier, h.shortage?_eq]

/-- One more file can be written where there could be one before. -/
theorem insert (h : FilesWritten earlier tree) (hplace : tree.IsPlace location)
    (hcan : earlier.CanHoldFile location) (content : ByteArray) :
    FilesWritten earlier (tree.insert location (.file content)) := by
  refine ⟨?_, ?_, ?_, ?_, ?_⟩
  · rw [workingDirectory_insert, h.workingDirectory]
  · rw [links_insert, h.links]
  · rw [closed_insert, h.closed]
  · rw [limits_insert, h.limits]
  · intro other
    rw [tree.lookup_insert hplace]
    split
    · next hother =>
      rw [hother]
      exact Or.inr ⟨hcan, content, rfl⟩
    · exact h.lookup other

end FilesWritten

end FileTree

end PixelTables

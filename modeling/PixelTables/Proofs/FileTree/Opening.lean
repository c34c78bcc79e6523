import PixelTables.FileTree.Operations

/-!
# Opening a path

A path that is followed to its end has led through directories of the tree, and links only along the
way. So what is opened for writing is a place for a file, or a file or a device that is there.

## Main Definitions

* `FileTree.IsWritable` — a location is there for writing, or can be made

## Main Statements

* `FileTree.descend_eq_ok_iff` — going down to a location asks whether that is a directory
* `FileTree.resolve_eq_ok_iff` — where a link leads
* `FileTree.lookup_parent`, `FileTree.isPlaced_of_entry` — where a walk ends
* `FileTree.openForWriting_eq_ok_iff` — when a location is opened
* `FileTree.isPlace_of_opened` — an opened location is a place for a file
-/

namespace PixelTables

namespace FileTree

variable {tree : FileTree}

/-! ## Walks -/

/-- Going down from a directory succeeds where it ends at a directory, as all that lies between is
one too. -/
theorem descend_eq_ok_iff {here : Location} (hhere : tree.lookup here = some .directory)
    (names : List String) :
    tree.descend here names = .ok () ↔ tree.lookup (here ++ names) = some .directory := by
  induction names generalizing here with
  | nil =>
    rw [descend, List.append_nil]
    exact ⟨fun _ => hhere, fun _ => rfl⟩
  | cons name names ih =>
    rw [descend, List.append_cons here name names]
    -- Where the next one is no directory there is nothing below it.
    have hnone : tree.lookup (here ++ [name]) ≠ some .directory →
        tree.lookup (here ++ [name] ++ names) ≠ some .directory := by
      intro hnext hend
      by_cases hnames : names = []
      · rw [hnames, List.append_nil] at hend
        exact hnext hend
      · exact hnext (tree.lookup_of_append hnames hend)
    cases hnext : tree.lookup (here ++ [name]) with
    | none => exact iff_of_false nofun (hnone (by simp [hnext]))
    | some node =>
      cases node with
      | directory => exact ih hnext
      | file _ => exact iff_of_false nofun (hnone (by simp [hnext]))
      | device _ => exact iff_of_false nofun (hnone (by simp [hnext]))

/-- A link is followed to a location in a directory, if the walk has not followed too many. -/
theorem resolve_eq_ok_iff {walk next : Walk} :
    tree.resolve walk = .ok next
      ↔ tree.links.lookup walk.location = none ∧ next = walk
        ∨ ∃ link, tree.links.lookup walk.location = some link
          ∧ walk.followed + link.length ≤ maxLinks
          ∧ tree.lookup link.target.dropLast = some .directory
          ∧ next = ⟨link.target, walk.followed + link.length⟩ := by
  rw [resolve]
  cases tree.links.lookup walk.location with
  | none => simp [eq_comm]
  | some link =>
    have hdescend := descend_eq_ok_iff tree.lookup_nil link.target.dropLast
    rw [List.nil_append] at hdescend
    dsimp only
    by_cases hmany : maxLinks < walk.followed + link.length
    · have hnot : ¬ walk.followed + link.length ≤ maxLinks := Nat.not_le.2 hmany
      simp [hmany, hnot]
    · have hfew : walk.followed + link.length ≤ maxLinks := Nat.not_lt.1 hmany
      cases hdown : tree.descend [] link.target.dropLast with
      | error reason =>
        have hnot : tree.lookup link.target.dropLast ≠ some .directory := by
          intro hdirectory
          rw [hdescend.2 hdirectory] at hdown
          cases hdown
        simp [hmany, hnot]
      | ok _ => simp [hmany, hfew, hdescend.1 hdown, eq_comm]

/-- What a walk reaches is no link. -/
theorem links_lookup_of_resolve {walk next : Walk} (h : tree.resolve walk = .ok next) :
    tree.links.lookup next.location = none := by
  rcases resolve_eq_ok_iff.1 h with ⟨hnone, rfl⟩ | ⟨link, hlink, -, -, rfl⟩
  · exact hnone
  · obtain ⟨before, after, hlinks, -⟩ := List.lookup_eq_some_iff.1 hlink
    exact tree.wellFormed.resolved (walk.location, link) (by simp [hlinks])

/-- An entry of a directory stands for what lies in a directory and is no link. -/
theorem isPlaced_of_entry {directory next : Walk} {name : String}
    (hdirectory : tree.lookup directory.location = some .directory)
    (h : tree.entry directory name = .ok next) :
    tree.lookup next.location.dropLast = some .directory
      ∧ tree.links.lookup next.location = none := by
  rw [entry, child] at h
  split at h
  · cases h
  · have hresolve : tree.resolve ⟨directory.location ++ [name], directory.followed⟩ = .ok next := h
    refine ⟨?_, links_lookup_of_resolve hresolve⟩
    rcases resolve_eq_ok_iff.1 hresolve with ⟨-, rfl⟩ | ⟨link, -, -, hparent, rfl⟩
    · rwa [List.dropLast_concat]
    · exact hparent

/-- A step into a directory succeeds where the entry stands for one. -/
theorem subdirectory_eq_ok_iff {directory next : Walk} {name : String} :
    tree.subdirectory directory name = .ok next
      ↔ tree.entry directory name = .ok next ∧ tree.lookup next.location = some .directory := by
  rw [subdirectory]
  cases tree.entry directory name with
  | error _ =>
    constructor
    · intro h
      cases h
    · rintro ⟨h, -⟩
      cases h
  | ok walk =>
    simp only [bind, Except.bind, Except.ok.injEq]
    constructor
    · intro h
      split at h
      · next hlookup =>
        cases h
        exact ⟨rfl, hlookup⟩
      · cases h
      · cases h
    · rintro ⟨rfl, hlookup⟩
      rw [hlookup]
      rfl

/-- One name leads from a directory to a directory. -/
theorem lookup_follow {here next : Walk} {name : String}
    (hhere : tree.lookup here.location = some .directory) (h : tree.follow here name = .ok next) :
    tree.lookup next.location = some .directory := by
  rw [follow] at h
  split at h
  · cases h
    exact hhere
  · split at h
    · cases h
      exact tree.lookup_dropLast hhere
    · exact (subdirectory_eq_ok_iff.1 h).2

/-- Names lead from a directory to a directory. -/
theorem lookup_walk {here directory : Walk} {names : List String}
    (hhere : tree.lookup here.location = some .directory)
    (h : tree.walk here names = .ok directory) :
    tree.lookup directory.location = some .directory := by
  induction names generalizing here with
  | nil =>
    cases h
    exact hhere
  | cons name names ih =>
    rw [walk, List.foldlM_cons] at h
    cases hfollow : tree.follow here name with
    | error _ =>
      rw [hfollow] at h
      cases h
    | ok next =>
      rw [hfollow] at h
      exact ih (lookup_follow hhere hfollow) h

/-- A path leads to a directory. -/
theorem lookup_parent {path : Path} {directory : Walk} (h : tree.parent path = .ok directory) :
    tree.lookup directory.location = some .directory := by
  refine lookup_walk ?_ h
  rw [start]
  split
  · rfl
  · exact tree.wellFormed.working

/-! ## Opening -/

/-- What is at a location is written to, or made there in its directory. -/
def IsWritable (tree : FileTree) (location : Location) : Prop :=
  match tree.lookup location with
  | some .directory | some (.device (.locked _)) => False
  | some _ => True
  | none => tree.closure? location.dropLast = none

theorem checkWritable_eq_ok_iff {reached location : Location} :
    tree.checkWritable reached = .ok location
      ↔ reached = location ∧ tree.IsWritable location := by
  have hok : tree.checkWritable reached = .ok reached ↔ tree.IsWritable reached := by
    unfold checkWritable IsWritable
    cases tree.lookup reached with
    | none =>
      cases tree.closure? reached.dropLast with
      | some closure => exact ⟨nofun, nofun⟩
      | none => exact ⟨fun _ => rfl, fun _ => rfl⟩
    | some node =>
      cases node with
      | directory => exact ⟨nofun, False.elim⟩
      | file _ => exact ⟨fun _ => trivial, fun _ => rfl⟩
      | device device =>
        cases device with
        | locked _ => exact ⟨nofun, False.elim⟩
        | null | failing _ | standardOutput | standardError =>
          exact ⟨fun _ => trivial, fun _ => rfl⟩
  constructor
  · intro h
    have hreached : reached = location := by
      unfold checkWritable at h
      split at h
      · cases h
      · cases h
      · cases h
        rfl
      · split at h <;> cases h
        rfl
    subst hreached
    exact ⟨rfl, hok.1 h⟩
  · rintro ⟨rfl, h⟩
    exact hok.2 h

variable {path : String} {location : Location}

/-- A location is opened for a path that ends with a name, where that name leads there. -/
theorem openForWriting_eq_ok_iff :
    tree.openForWriting path = .ok location
      ↔ ∃ parsed directory name walk, Path.ofString path = .ok parsed
        ∧ tree.parent parsed = .ok directory ∧ parsed.last = .entry name false
        ∧ tree.entry directory name = .ok walk ∧ walk.location = location
        ∧ tree.IsWritable location := by
  constructor
  · intro h
    rw [openForWriting] at h
    cases hparsed : Path.ofString path with
    | error _ =>
      rw [hparsed] at h
      cases h
    | ok parsed =>
      rw [hparsed] at h
      simp only [bind, Except.bind] at h
      cases hparent : tree.parent parsed with
      | error _ =>
        rw [hparent] at h
        cases h
      | ok directory =>
        rw [hparent] at h
        dsimp only at h
        split at h
        · cases h
        · cases h
        · next name hlast =>
          cases hentry : tree.entry directory name with
          | error _ =>
            rw [hentry] at h
            cases h
          | ok walk =>
            rw [hentry] at h
            dsimp only at h
            exact ⟨parsed, directory, name, walk, rfl, hparent, hlast, hentry,
              checkWritable_eq_ok_iff.1 h⟩
  · rintro ⟨parsed, directory, name, walk, hparsed, hparent, hlast, hentry, hreached⟩
    rw [openForWriting, hparsed]
    simp only [bind, Except.bind, hparent, hlast, hentry]
    exact checkWritable_eq_ok_iff.2 hreached

/-- No directory is opened for writing. -/
theorem lookup_ne_directory_of_opened (h : tree.openForWriting path = .ok location) :
    tree.lookup location ≠ some .directory := by
  obtain ⟨_, _, _, _, -, -, -, -, -, hwritable⟩ := openForWriting_eq_ok_iff.1 h
  intro hlookup
  rw [IsWritable, hlookup] at hwritable
  exact hwritable

/-- What is opened for writing is a place for a file. -/
theorem isPlace_of_opened (h : tree.openForWriting path = .ok location) :
    tree.IsPlace location := by
  have hdirectory := lookup_ne_directory_of_opened h
  obtain ⟨_, _, _, _, -, hparent, -, hentry, rfl, -⟩ := openForWriting_eq_ok_iff.1 h
  obtain ⟨hnested, hlink⟩ := isPlaced_of_entry (lookup_parent hparent) hentry
  exact ⟨hdirectory, hnested, hlink⟩

/-! ## Devices -/

theorem device?_eq_some_iff {device : Device} :
    tree.device? path = some device
      ↔ ∃ location, tree.openForWriting path = .ok location
        ∧ tree.lookup location = some (.device device) := by
  rw [device?]
  cases tree.openForWriting path with
  | error _ => simp
  | ok location =>
    cases hnode : tree.lookup location with
    | none => simp [hnode]
    | some node => cases node <;> simp [hnode]

theorem device?_eq_none_iff (h : tree.openForWriting path = .ok location) :
    tree.device? path = none ↔ ∀ device, tree.lookup location ≠ some (.device device) := by
  rw [device?, h]
  dsimp only
  cases tree.lookup location with
  | none => simp
  | some node => cases node <;> simp

end FileTree

end PixelTables

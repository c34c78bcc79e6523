import PixelTables.FileTree.Path

/-!
# File trees

A file tree holds directories, files and devices, each at a location: the names that lead to it
from the root. A link is a location that stands for another one.

## Main Definitions

* `FileTree.Device` — what becomes of bytes written to a device
* `FileTree.Node` — a directory, a file with its bytes, or a device
* `FileTree.WellFormed` — nodes lie in directories, and links apart from them
* `FileTree` — the nodes by location, and how the tree is set up
* `FileTree.lookup`, `FileTree.insert`, `FileTree.erase` — the node at a location
* `FileTree.IsPlace` — a location for a file
* `FileTree.Same` — two trees hold the same nodes

## Main Statements

* `FileTree.lookup_dropLast` — what is in the tree is in one of its directories
* `FileTree.lookup_insert` — an inserted node is at its location, and all others stay
* `FileTree.lookup_erase` — nothing is at an erased location, and all others stay

## Design Notes

The links, the closed directories and the room for files are how a tree is set up. No operation
changes them, so what a location stands for does not depend on what has been written. A tree carries
the proof that it is well formed. Insertion asks first whether the location is a place for a node,
so that no tree is built in which a file lies in a file or nowhere.
-/

namespace PixelTables

/-- Where a node is: the names that lead to it from the root. -/
abbrev Location := List String

namespace FileTree

/-- What becomes of the bytes that are written to a device. -/
inductive Device where
  /-- They are forgotten. -/
  | null
  /-- They are refused. -/
  | failing (reason : OsError)
  /-- There are none, because it cannot be opened for writing. -/
  | locked (reason : OsError)
  /-- They are passed on to the standard output of the process that writes them. -/
  | standardOutput
  /-- They are passed on to the standard error of the process that writes them. -/
  | standardError
  deriving DecidableEq, Repr

/-- How the contents of files are compared, whatever else is imported. -/
local instance (priority := high) decidableEqContent : DecidableEq ByteArray :=
  ByteArray.instDecidableEq

/-- What can be at a location. -/
inductive Node where
  | directory
  | file (content : ByteArray)
  | device (device : Device)
  deriving DecidableEq

/-- What a location stands for that is a link. -/
structure Link where
  /-- The location that it leads to, where there may be nothing. -/
  target : Location
  /-- How many links are followed on the way there, the link itself among them. -/
  length : Nat
  deriving DecidableEq, Repr

/-- A directory in and below which nothing can be made or removed. -/
structure Closure where
  /-- Where the directory is. -/
  directory : Location
  /-- Why nothing is made there. -/
  creation : OsError
  /-- Why nothing is removed there. -/
  removal : OsError
  /-- What is said of a name there that is too long. -/
  longName : OsError
  deriving DecidableEq, Repr

/-- How much a file can hold. -/
structure Limit where
  /-- The number of bytes. -/
  size : Nat
  /-- Why further bytes are refused. -/
  reason : OsError
  deriving DecidableEq, Repr

/-! ## Nodes by location -/

/-- The node at a location, the first one in a list. The root is a directory. -/
def nodeAt (nodes : List (Location × Node)) (location : Location) : Option Node :=
  if location = [] then some .directory else nodes.lookup location

/-- The nodes with one more, in place of what is at its location. -/
def putNode (nodes : List (Location × Node)) (location : Location) (node : Node) :
    List (Location × Node) :=
  (location, node) :: nodes.filter fun entry => entry.1 != location

/-- The nodes without what is at a location. -/
def dropNode (nodes : List (Location × Node)) (location : Location) : List (Location × Node) :=
  nodes.filter fun entry => entry.1 != location

theorem nodeAt_nil (nodes : List (Location × Node)) : nodeAt nodes [] = some .directory := rfl

/-- The first entry of a list answers for its key. -/
theorem lookup_cons_eq (key other : Location) (node : Node) (nodes : List (Location × Node)) :
    ((key, node) :: nodes).lookup other =
      if other = key then some node else nodes.lookup other := by
  by_cases h : other = key
  · simp [h]
  · have hbeq : (other == key) = false := by simpa using h
    simp [List.lookup_cons, hbeq, h]

/-- Without the entries of one key, the others answer as before. -/
theorem lookup_filter_ne (nodes : List (Location × Node)) (location other : Location) :
    (nodes.filter fun entry => entry.1 != location).lookup other =
      if other = location then none else nodes.lookup other := by
  induction nodes with
  | nil => simp
  | cons entry nodes ih =>
    obtain ⟨key, node⟩ := entry
    by_cases hkey : key = location
    · subst hkey
      rw [List.filter_cons_of_neg (by simp), ih, lookup_cons_eq]
      split <;> rfl
    · rw [List.filter_cons_of_pos (by simpa using hkey), lookup_cons_eq, lookup_cons_eq, ih]
      by_cases hother : other = key
      · subst hother
        simp [hkey]
      · simp [hother]

theorem nodeAt_putNode {location : Location} (h : location ≠ []) (nodes : List (Location × Node))
    (node : Node) (other : Location) :
    nodeAt (putNode nodes location node) other =
      if other = location then some node else nodeAt nodes other := by
  by_cases hroot : other = []
  · subst hroot
    simp [nodeAt, Ne.symm h]
  · simp only [nodeAt, putNode, hroot, if_false, lookup_cons_eq, lookup_filter_ne]
    split <;> rfl

theorem nodeAt_dropNode {location : Location} (h : location ≠ []) (nodes : List (Location × Node))
    (other : Location) :
    nodeAt (dropNode nodes location) other =
      if other = location then none else nodeAt nodes other := by
  by_cases hroot : other = []
  · subst hroot
    simp [nodeAt, Ne.symm h]
  · simp [nodeAt, dropNode, hroot, lookup_filter_ne]

/-! ## Well-formed trees -/

/-- Nodes, a working directory and links that make up a tree. -/
structure WellFormed (nodes : List (Location × Node)) (workingDirectory : Location)
    (links : List (Location × Link)) : Prop where
  /-- Each node is in a directory. -/
  nested : ∀ entry ∈ nodes, nodeAt nodes entry.1.dropLast = some .directory
  /-- The working directory is one. -/
  working : nodeAt nodes workingDirectory = some .directory
  /-- Where a link is there is nothing else. -/
  apart : ∀ entry ∈ links, nodeAt nodes entry.1 = none
  /-- No link leads to another one. -/
  resolved : ∀ entry ∈ links, links.lookup entry.2.target = none

instance (nodes : List (Location × Node)) (workingDirectory : Location)
    (links : List (Location × Link)) : Decidable (WellFormed nodes workingDirectory links) :=
  decidable_of_iff
    ((∀ entry ∈ nodes, nodeAt nodes entry.1.dropLast = some .directory)
      ∧ nodeAt nodes workingDirectory = some .directory
      ∧ (∀ entry ∈ links, nodeAt nodes entry.1 = none)
      ∧ ∀ entry ∈ links, links.lookup entry.2.target = none)
    ⟨fun ⟨nested, working, apart, resolved⟩ => ⟨nested, working, apart, resolved⟩,
      fun ⟨nested, working, apart, resolved⟩ => ⟨nested, working, apart, resolved⟩⟩

namespace WellFormed

variable {nodes : List (Location × Node)} {workingDirectory location : Location}
  {links : List (Location × Link)}

/-- A node in a directory leaves a tree well formed, if no directory and no link is in its place. -/
theorem putNode (h : WellFormed nodes workingDirectory links)
    (hnode : nodeAt nodes location ≠ some .directory)
    (hparent : nodeAt nodes location.dropLast = some .directory)
    (hlink : links.lookup location = none) (node : Node) :
    WellFormed (FileTree.putNode nodes location node) workingDirectory links := by
  have hroot : location ≠ [] := by
    rintro rfl
    exact hnode rfl
  -- What was a directory is at another location and stays.
  have hkeep : ∀ other, nodeAt nodes other = some .directory →
      nodeAt (FileTree.putNode nodes location node) other = some .directory := by
    intro other hother
    have hne : other ≠ location := by
      rintro rfl
      exact hnode hother
    rw [nodeAt_putNode hroot, if_neg hne, hother]
  refine ⟨?_, hkeep _ h.working, ?_, h.resolved⟩
  · intro entry hentry
    rcases List.mem_cons.1 hentry with rfl | hold
    · exact hkeep _ hparent
    · exact hkeep _ (h.nested entry (List.mem_filter.1 hold).1)
  · intro entry hentry
    have hne : entry.1 ≠ location := by
      rintro rfl
      have hkey := List.lookup_eq_none_iff.1 hlink entry hentry
      simp at hkey
    rw [nodeAt_putNode hroot, if_neg hne]
    exact h.apart entry hentry

/-- A node that is no directory can be taken out of a well-formed tree. -/
theorem dropNode (h : WellFormed nodes workingDirectory links)
    (hnode : nodeAt nodes location ≠ some .directory) :
    WellFormed (FileTree.dropNode nodes location) workingDirectory links := by
  have hroot : location ≠ [] := by
    rintro rfl
    exact hnode rfl
  have hkeep : ∀ other, nodeAt nodes other = some .directory →
      nodeAt (FileTree.dropNode nodes location) other = some .directory := by
    intro other hother
    have hne : other ≠ location := by
      rintro rfl
      exact hnode hother
    rw [nodeAt_dropNode hroot, if_neg hne, hother]
  refine ⟨?_, hkeep _ h.working, ?_, h.resolved⟩
  · intro entry hentry
    exact hkeep _ (h.nested entry (List.mem_filter.1 hentry).1)
  · intro entry hentry
    rw [nodeAt_dropNode hroot, h.apart entry hentry]
    split <;> rfl

end WellFormed

end FileTree

/-- Directories, files and devices, and how the tree is set up. -/
structure FileTree where
  /-- The nodes below the root. The first one at a location counts. -/
  nodes : List (Location × FileTree.Node)
  /-- The directory that paths start from. -/
  workingDirectory : Location
  /-- The locations that stand for others. The first link of a location counts. -/
  links : List (Location × FileTree.Link)
  /-- The directories that nothing can be made in. The first one around a location counts. -/
  closed : List FileTree.Closure
  /-- How much the files at some locations can hold. The first limit of a location counts. -/
  limits : List (Location × FileTree.Limit)
  /-- Nodes lie in directories, and links apart from them. -/
  wellFormed : FileTree.WellFormed nodes workingDirectory links

namespace FileTree

/-- The node at a location. The root is a directory. -/
def lookup (tree : FileTree) (location : Location) : Option Node :=
  nodeAt tree.nodes location

/-- A node other than a directory can be put at a location: it lies in a directory, and no directory
and no link is there. -/
def IsPlace (tree : FileTree) (location : Location) : Prop :=
  tree.lookup location ≠ some .directory ∧ tree.lookup location.dropLast = some .directory
    ∧ tree.links.lookup location = none

instance (tree : FileTree) (location : Location) : Decidable (tree.IsPlace location) :=
  inferInstanceAs (Decidable (_ ∧ _ ∧ _))

/-- Put a node at a location, in place of what is there, if it is a place for one. -/
def insert (tree : FileTree) (location : Location) (node : Node) : FileTree :=
  if h : tree.IsPlace location then
    { tree with
      nodes := putNode tree.nodes location node
      wellFormed := tree.wellFormed.putNode h.1 h.2.1 h.2.2 node }
  else tree

/-- Remove what is at a location, unless it is a directory. -/
def erase (tree : FileTree) (location : Location) : FileTree :=
  if h : tree.lookup location = some .directory then tree
  else
    { tree with
      nodes := dropNode tree.nodes location
      wellFormed := tree.wellFormed.dropNode h }

/-- The bytes that a file at a location can hold and why it takes no more, unless it can hold any
number. -/
def limit? (tree : FileTree) (location : Location) : Option Limit :=
  tree.limits.lookup location

/-- What lets nothing be made in a directory, if there is such a thing. -/
def closure? (tree : FileTree) (directory : Location) : Option Closure :=
  tree.closed.find? fun closure => closure.directory.isPrefixOf directory

/-- Whether a location is a link. -/
def isLink (tree : FileTree) (location : Location) : Bool :=
  (tree.links.lookup location).isSome

/-- Two trees are set up alike and hold the same nodes. -/
def Same (a b : FileTree) : Prop :=
  a.workingDirectory = b.workingDirectory ∧ a.links = b.links ∧ a.closed = b.closed
    ∧ a.limits = b.limits ∧ ∀ location, a.lookup location = b.lookup location

variable (tree : FileTree) {location : Location}

@[simp] theorem lookup_nil : tree.lookup [] = some .directory := rfl

theorem IsPlace.ne_nil {tree : FileTree} (h : tree.IsPlace location) : location ≠ [] := by
  rintro rfl
  exact h.1 rfl

/-- What is in the tree is in one of its directories. -/
theorem lookup_dropLast {node : Node} (h : tree.lookup location = some node) :
    tree.lookup location.dropLast = some .directory := by
  by_cases hroot : location = []
  · rw [hroot]
    rfl
  · rw [lookup, nodeAt, if_neg hroot] at h
    obtain ⟨before, after, hnodes, -⟩ := List.lookup_eq_some_iff.1 h
    exact tree.wellFormed.nested (location, node) (by simp [hnodes])

/-- All that leads to what is in the tree are directories. The induction is on the names that lead
from a directory to a node, the first of which leads to a directory or to the node itself. -/
theorem lookup_of_append {node : Node} {names : List String} (hnames : names ≠ [])
    (h : tree.lookup (location ++ names) = some node) : tree.lookup location = some .directory := by
  induction names generalizing location with
  | nil => exact absurd rfl hnames
  | cons name names ih =>
    have hnext : ∃ next, tree.lookup (location ++ [name]) = some next := by
      cases names with
      | nil => exact ⟨node, h⟩
      | cons other names =>
        rw [List.append_cons] at h
        exact ⟨_, ih (List.cons_ne_nil other names) h⟩
    obtain ⟨next, hnext⟩ := hnext
    have hparent := tree.lookup_dropLast hnext
    rwa [List.dropLast_concat] at hparent

/-- An inserted node is at its location, and all others stay. -/
theorem lookup_insert (h : tree.IsPlace location) (node : Node) (other : Location) :
    (tree.insert location node).lookup other =
      if other = location then some node else tree.lookup other := by
  rw [insert, dif_pos h]
  exact nodeAt_putNode h.ne_nil tree.nodes node other

/-- Nothing is at an erased location, and all others stay. -/
theorem lookup_erase (h : tree.lookup location ≠ some .directory) (other : Location) :
    (tree.erase location).lookup other =
      if other = location then none else tree.lookup other := by
  have hroot : location ≠ [] := by
    rintro rfl
    exact h rfl
  rw [erase, dif_neg h]
  exact nodeAt_dropNode hroot tree.nodes other

@[simp] theorem workingDirectory_insert (location : Location) (node : Node) :
    (tree.insert location node).workingDirectory = tree.workingDirectory := by
  rw [insert]
  split <;> rfl

@[simp] theorem links_insert (location : Location) (node : Node) :
    (tree.insert location node).links = tree.links := by
  rw [insert]
  split <;> rfl

@[simp] theorem closed_insert (location : Location) (node : Node) :
    (tree.insert location node).closed = tree.closed := by
  rw [insert]
  split <;> rfl

@[simp] theorem limits_insert (location : Location) (node : Node) :
    (tree.insert location node).limits = tree.limits := by
  rw [insert]
  split <;> rfl

end FileTree

end PixelTables

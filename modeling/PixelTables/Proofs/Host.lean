import PixelTables.Host
import PixelTables.Proofs.FileTree.Opening

/-!
# Writing to a path of a host

What is written to a path that leads to a file, or to nothing, becomes the file's content and
changes no other location. What is written to a device leaves the tree alone. Bytes are refused when
nothing is opened for them, when a device takes none, and when a file cannot hold them all; in the
last case the file keeps the first ones.

## Main Definitions

* `Host.DeviceRefuses` — a device takes no bytes
* `Host.Refuses` — the system refuses bytes for a path
* `FileTree.file?`, `FileTree.filled` — the file that a write to a path would reach, and the tree
  that the write would leave

## Main Statements

* `Host.write_of_file`, `Host.write_of_device` — what becomes of bytes for a path
* `Host.write_eq_error_iff`, `Host.write_eq_ok_iff` — when bytes are refused
* `Host.tree_write` — what a write has done to the tree
* `Host.write_of_standardOutput`, `Host.write_with_output` — standard output and other paths
-/

namespace PixelTables

namespace FileTree

variable {tree : FileTree} {path : String} {location : Location} {bytes : ByteArray}
  {reason : OsError}

/-- The place of the file that a write to a path would reach or make. -/
def file? (tree : FileTree) (path : String) : Option Location :=
  match tree.openForWriting path with
  | .error _ => none
  | .ok location => if tree.device? path = none then some location else none

/-- The tree with bytes in the file that a write to a path would reach, as far as the file can hold
them. -/
def filled (tree : FileTree) (path : String) (bytes : ByteArray) : FileTree :=
  match tree.file? path with
  | some location => tree.insert location (.file (tree.fitting location bytes))
  | none => tree

theorem file?_eq_some_iff :
    tree.file? path = some location
      ↔ tree.openForWriting path = .ok location ∧ tree.device? path = none := by
  rw [file?]
  cases tree.openForWriting path with
  | error _ => simp
  | ok other =>
    dsimp only
    split
    · next hfile => simp [hfile]
    · next hdevice => simp [hdevice]

/-- A file that lacks no space for bytes holds all of them. -/
theorem fitting_eq_of_shortage? (h : tree.shortage? location bytes = none) :
    tree.fitting location bytes = bytes := by
  rw [shortage?] at h
  rw [fitting]
  cases hlimit : tree.limit? location with
  | none => rfl
  | some limit =>
    rw [hlimit] at h
    dsimp only at h ⊢
    split at h
    · cases h
    · next hsize => exact extract_zero_of_size_le (Nat.not_lt.1 hsize)

/-- A file lacks space where its limit is below the number of bytes. -/
theorem shortage?_eq_some_iff :
    tree.shortage? location bytes = some reason
      ↔ ∃ size, tree.limit? location = some ⟨size, reason⟩ ∧ size < bytes.size := by
  rw [shortage?]
  cases tree.limit? location with
  | none => simp
  | some limit =>
    obtain ⟨size, other⟩ := limit
    dsimp only
    split
    · next hsize =>
      constructor
      · intro h
        cases h
        exact ⟨size, rfl, hsize⟩
      · rintro ⟨_, hlimit, -⟩
        cases hlimit
        rfl
    · next hsize =>
      constructor
      · intro h
        cases h
      · rintro ⟨_, hlimit, hshort⟩
        cases hlimit
        exact absurd hshort hsize

end FileTree

namespace Host

/-- A device takes no bytes. -/
inductive DeviceRefuses (host : Host) : FileTree.Device → OsError → Prop where
  /-- It refuses all bytes. -/
  | failing (reason : OsError) : host.DeviceRefuses (.failing reason) reason
  /-- It is not for writing. -/
  | locked (reason : OsError) : host.DeviceRefuses (.locked reason) reason
  /-- It stands for standard output, and that is full. -/
  | output : host.output.isFull = true → host.DeviceRefuses .standardOutput .storageFull
  /-- It stands for standard error, and that is full. -/
  | errorOutput : host.errorOutput.isFull = true → host.DeviceRefuses .standardError .storageFull

/-- The system refuses to open the path, or to write the bytes to what it has opened. -/
inductive Refuses (host : Host) (path : String) (bytes : ByteArray) (reason : OsError) : Prop where
  /-- Nothing is opened. -/
  | opening : host.tree.openForWriting path = .error reason → host.Refuses path bytes reason
  /-- A device is opened that takes no bytes. -/
  | device {location : Location} {device : FileTree.Device} :
    host.tree.openForWriting path = .ok location →
    host.tree.lookup location = some (.device device) → host.DeviceRefuses device reason →
    bytes.size ≠ 0 → host.Refuses path bytes reason
  /-- A file is opened or made that cannot hold all the bytes. -/
  | space {location : Location} {size : Nat} :
    host.tree.openForWriting path = .ok location → host.tree.device? path = none →
    host.tree.limit? location = some ⟨size, reason⟩ → size < bytes.size →
    host.Refuses path bytes reason

variable {host : Host} {path : String} {location : Location} {device : FileTree.Device}
  {bytes : ByteArray} {reason : OsError}

/-! ## Devices -/

theorem take_eq_error_iff {output : OutputDevice} :
    (output.take bytes).1 = .error reason ↔ output.isFull = true ∧ reason = .storageFull := by
  obtain ⟨isFull, received⟩ := output
  cases isFull with
  | false => simp [OutputDevice.take]
  | true => simp [OutputDevice.take, eq_comm]

/-- A device refuses bytes where it takes none, for its own reason. -/
theorem pass_eq_error_iff :
    (host.pass device bytes).1 = .error reason
      ↔ host.DeviceRefuses device reason ∧ bytes.size ≠ 0 := by
  unfold pass
  split
  · next hsize => simp [hsize]
  · next hsize =>
    simp only [ne_eq, hsize, not_false_eq_true, and_true]
    cases device with
    | null => exact ⟨nofun, nofun⟩
    | failing other =>
      constructor
      · rintro ⟨⟩
        exact .failing reason
      · rintro ⟨⟩
        rfl
    | locked other =>
      constructor
      · rintro ⟨⟩
        exact .locked reason
      · rintro ⟨⟩
        rfl
    | standardOutput =>
      dsimp only
      rw [take_eq_error_iff]
      constructor
      · rintro ⟨hfull, rfl⟩
        exact .output hfull
      · intro h
        cases h with
        | output hfull => exact ⟨hfull, rfl⟩
    | standardError =>
      dsimp only
      rw [take_eq_error_iff]
      constructor
      · rintro ⟨hfull, rfl⟩
        exact .errorOutput hfull
      · intro h
        cases h with
        | errorOutput hfull => exact ⟨hfull, rfl⟩

/-- What is written to a device leaves the tree alone. -/
theorem tree_pass (host : Host) (device : FileTree.Device) (bytes : ByteArray) :
    (host.pass device bytes).2.tree = host.tree := by
  unfold pass
  split
  · rfl
  · cases device <;> rfl

/-! ## Paths -/

theorem write_of_error (h : host.tree.openForWriting path = .error reason) (bytes : ByteArray) :
    host.write path bytes = (.error reason, host) := by
  rw [write, h]

/-- Bytes for a path that leads to a device are passed to it. -/
theorem write_of_device (hopen : host.tree.openForWriting path = .ok location)
    (hdevice : host.tree.lookup location = some (.device device)) (bytes : ByteArray) :
    host.write path bytes = host.pass device bytes := by
  rw [write, hopen]
  simp only [hdevice]

/-- Bytes for a path that leads to a file, or to nothing, are filled in there. -/
theorem write_of_file (h : host.tree.file? path = some location) (bytes : ByteArray) :
    host.write path bytes
      = ((host.tree.fill location bytes).1,
        { host with tree := (host.tree.fill location bytes).2 }) := by
  obtain ⟨hopen, hfile⟩ := FileTree.file?_eq_some_iff.1 h
  have hdevice := (FileTree.device?_eq_none_iff hopen).1 hfile
  rw [write, hopen]
  dsimp only
  cases hlookup : host.tree.lookup location with
  | none => rfl
  | some node =>
    cases node with
    | directory => rfl
    | file _ => rfl
    | device device => exact absurd hlookup (hdevice device)

/-- A path is not opened, or it leads to a device, or to a file. -/
theorem path_cases (tree : FileTree) (path : String) :
    (∃ reason, tree.openForWriting path = .error reason ∧ tree.file? path = none)
      ∨ (∃ location device, tree.openForWriting path = .ok location
        ∧ tree.lookup location = some (.device device) ∧ tree.file? path = none)
      ∨ ∃ location, tree.file? path = some location := by
  cases hopen : tree.openForWriting path with
  | error reason => exact .inl ⟨reason, rfl, by rw [FileTree.file?, hopen]⟩
  | ok location =>
    cases hdevice : tree.device? path with
    | none => exact .inr (.inr ⟨location, FileTree.file?_eq_some_iff.2 ⟨hopen, hdevice⟩⟩)
    | some device =>
      obtain ⟨other, hother, hlookup⟩ := FileTree.device?_eq_some_iff.1 hdevice
      cases hopen.symm.trans hother
      refine .inr (.inl ⟨location, device, rfl, hlookup, ?_⟩)
      rw [FileTree.file?, hopen, hdevice]
      rfl

/-- Bytes are refused where the path is, for the reason that it is refused for. -/
theorem write_eq_error_iff :
    (host.write path bytes).1 = .error reason ↔ host.Refuses path bytes reason := by
  constructor
  · intro h
    rcases path_cases host.tree path with ⟨other, hopen, -⟩ |
      ⟨location, device, hopen, hlookup, -⟩ | ⟨location, hfile⟩
    · rw [write_of_error hopen] at h
      cases h
      exact .opening hopen
    · rw [write_of_device hopen hlookup, pass_eq_error_iff] at h
      exact .device hopen hlookup h.1 h.2
    · obtain ⟨hopen, hnone⟩ := FileTree.file?_eq_some_iff.1 hfile
      rw [write_of_file hfile, FileTree.fill] at h
      cases hshortage : host.tree.shortage? location bytes with
      | none =>
        rw [hshortage] at h
        cases h
      | some other =>
        rw [hshortage] at h
        cases h
        obtain ⟨size, hlimit, hsize⟩ := FileTree.shortage?_eq_some_iff.1 hshortage
        exact .space hopen hnone hlimit hsize
  · intro h
    cases h with
    | opening hopen => rw [write_of_error hopen]
    | device hopen hlookup hrefuses hsize =>
      rw [write_of_device hopen hlookup]
      exact pass_eq_error_iff.2 ⟨hrefuses, hsize⟩
    | space hopen hnone hlimit hsize =>
      rw [write_of_file (FileTree.file?_eq_some_iff.2 ⟨hopen, hnone⟩), FileTree.fill,
        FileTree.shortage?_eq_some_iff.2 ⟨_, hlimit, hsize⟩]

/-- Bytes are taken where the path is not refused. -/
theorem write_eq_ok_iff :
    (host.write path bytes).1 = .ok () ↔ ∀ reason, ¬ host.Refuses path bytes reason := by
  cases hwrite : (host.write path bytes).1 with
  | error reason => exact iff_of_false nofun fun h => h reason (write_eq_error_iff.1 hwrite)
  | ok _ =>
    refine iff_of_true rfl ?_
    intro reason h
    rw [write_eq_error_iff.2 h] at hwrite
    cases hwrite

/-- A write fills the file that its path leads to, and does nothing else to the tree. -/
theorem tree_write (host : Host) (path : String) (bytes : ByteArray) :
    (host.write path bytes).2.tree = host.tree.filled path bytes := by
  rw [FileTree.filled]
  rcases path_cases host.tree path with ⟨reason, hopen, hnone⟩ |
    ⟨location, device, hopen, hlookup, hnone⟩ | ⟨location, hfile⟩
  · rw [write_of_error hopen, hnone]
  · rw [write_of_device hopen hlookup, tree_pass, hnone]
  · rw [write_of_file hfile, hfile]
    rfl

/-! ## Standard output -/

/-- A path that is a name of standard output passes bytes on to it. -/
theorem write_of_standardOutput (h : host.tree.device? path = some .standardOutput)
    (hsize : bytes.size ≠ 0) :
    host.write path bytes
      = ((host.output.take bytes).1, { host with output := (host.output.take bytes).2 }) := by
  obtain ⟨location, hopen, hlookup⟩ := FileTree.device?_eq_some_iff.1 h
  rw [write_of_device hopen hlookup, pass, if_neg hsize]

/-- What is written to any other path makes no difference to standard output, nor does standard
output make any to it. -/
theorem write_with_output (h : host.tree.device? path ≠ some .standardOutput)
    (bytes : ByteArray) (output : OutputDevice) :
    ({ host with output } : Host).write path bytes
      = ((host.write path bytes).1, { (host.write path bytes).2 with output }) := by
  let other : Host := { host with output }
  change other.write path bytes = _
  rcases path_cases host.tree path with ⟨reason, hopen, -⟩ |
    ⟨location, device, hopen, hlookup, -⟩ | ⟨location, hfile⟩
  · have hother : other.tree.openForWriting path = .error reason := hopen
    rw [write_of_error hother, write_of_error hopen]
  · have hdevice : device ≠ .standardOutput := by
      rintro rfl
      exact h (FileTree.device?_eq_some_iff.2 ⟨location, hopen, hlookup⟩)
    have hother : other.tree.openForWriting path = .ok location := hopen
    have hotherDevice : other.tree.lookup location = some (.device device) := hlookup
    rw [write_of_device hother hotherDevice, write_of_device hopen hlookup]
    unfold pass
    split
    · rfl
    · cases device with
      | null | failing _ | locked _ | standardError => rfl
      | standardOutput => exact absurd rfl hdevice
  · have hother : other.tree.file? path = some location := hfile
    rw [write_of_file hother, write_of_file hfile]

end Host

end PixelTables

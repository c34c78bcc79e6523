import PixelTables.OsError

/-!
# Byte sinks

Source text is handed to a sink piece by piece. A sink takes every byte of a piece or ends with
a fault; what it took before the fault stays taken.

## Main Definitions

* `WriteFault` — why a sink takes no more bytes
* `Sink` — a state that pieces can be written to
* `Receiver`, `Receiver.writeAll` — a state that may take only part of what it is offered, and the
  loop that offers the rest again
* `LimitedSink` — takes a fixed number of bytes and then fails
* `OutputDevice`, `BufferedOutput` — an output that works or is full, and a buffer in front of it

## Design Notes

A byte array is the sink that never fails. The emission of a table does not know which sink it
writes to, so that one definition serves memory, limited sinks and standard output.
-/

namespace PixelTables

/-- Why a sink takes no more bytes. -/
inductive WriteFault where
  /-- The sink refused with a reason of its own. -/
  | refused (reason : String)
  /-- The sink took no byte of a piece and named no reason. -/
  | wroteZero
  /-- The operating system refused. -/
  | os (error : OsError)
  deriving DecidableEq, Repr

/-- The wording of a fault. -/
def WriteFault.message : WriteFault → String
  | .refused reason => reason
  | .wroteZero => "failed to write whole buffer"
  | .os error => error.message

/-- A state to which bytes can be written. -/
class Sink (σ : Type) where
  /-- Write all the bytes, or as many as fit before a fault. -/
  write : ByteArray → EStateM WriteFault σ Unit

/-- A byte array takes every piece at its end. -/
instance : Sink ByteArray where
  write bytes := fun taken => .ok () (taken ++ bytes)

/-- A state that takes some of the bytes it is offered. -/
class Receiver (σ : Type) where
  /-- Offer bytes; the answer is how many of the first ones were taken. -/
  offer : ByteArray → σ → Except WriteFault Nat × σ

/-- Offer bytes until all are taken. An offer of which nothing is taken is a fault. -/
def Receiver.writeAll {σ : Type} [Receiver σ] (bytes : ByteArray) (state : σ) :
    EStateM.Result WriteFault σ Unit :=
  if bytes.size = 0 then .ok () state
  else
    match Receiver.offer bytes state with
    | (.error fault, state) => .error fault state
    | (.ok 0, state) => .error .wroteZero state
    | (.ok (count + 1), state) => writeAll (bytes.extract (count + 1) bytes.size) state
termination_by bytes.size
decreasing_by
  simp only [ByteArray.size_extract]
  omega

/-! ## A limited sink -/

/-- With room enough the first bytes are all of them. -/
theorem extract_zero_of_size_le {bytes : ByteArray} {n : Nat} (h : bytes.size ≤ n) :
    bytes.extract 0 n = bytes := by
  have hmax : n = max n bytes.size := (Nat.max_eq_left h).symm
  rw [hmax, ByteArray.extract_zero_max_size]

/-- A sink that takes a number of bytes and then no more. -/
structure LimitedSink where
  /-- The bytes taken. -/
  accepted : ByteArray
  /-- How many more bytes will be taken. -/
  room : Nat
  /-- The fault once there is no room; with none, an offer is met by taking nothing. -/
  fault? : Option WriteFault

namespace LimitedSink

/-- A sink with room for `room` bytes that has taken none. -/
def ofRoom (room : Nat) (fault? : Option WriteFault) : LimitedSink :=
  ⟨ByteArray.empty, room, fault?⟩

/-- Take what there is room for. -/
def offer (bytes : ByteArray) : LimitedSink → Except WriteFault Nat × LimitedSink
  | ⟨accepted, room, fault?⟩ =>
    if room = 0 then
      match fault? with
      | some fault => (.error fault, ⟨accepted, room, fault?⟩)
      | none => (.ok 0, ⟨accepted, room, fault?⟩)
    else
      let count := min room bytes.size
      (.ok count, ⟨accepted ++ bytes.extract 0 count, room - count, fault?⟩)

instance : Receiver LimitedSink := ⟨offer⟩

instance : Sink LimitedSink := ⟨Receiver.writeAll⟩

end LimitedSink

/-! ## Standard output -/

/-- An output of a process: the bytes that reached it, and whether it takes any. -/
structure OutputDevice where
  /-- The device has no space for a single byte. -/
  isFull : Bool
  /-- The bytes that reached the device. -/
  received : ByteArray

namespace OutputDevice

/-- A device that has received nothing. -/
def fresh (isFull : Bool) : OutputDevice := ⟨isFull, ByteArray.empty⟩

/-- A full device takes nothing, any other takes everything. -/
def take (bytes : ByteArray) : OutputDevice → Except OsError Unit × OutputDevice
  | ⟨true, received⟩ => (.error .storageFull, ⟨true, received⟩)
  | ⟨false, received⟩ => (.ok (), ⟨false, received ++ bytes⟩)

/-- Offer bytes, of which all are taken or none. -/
def offer (bytes : ByteArray) (device : OutputDevice) : Except WriteFault Nat × OutputDevice :=
  match device.take bytes with
  | (.ok _, device) => (.ok bytes.size, device)
  | (.error reason, device) => (.error (.os reason), device)

instance : Receiver OutputDevice := ⟨offer⟩

end OutputDevice

/-- Bytes collected before they are passed on to a device. -/
structure BufferedOutput where
  /-- Bytes not passed on yet. -/
  pending : ByteArray
  /-- Where they go. -/
  device : OutputDevice

namespace BufferedOutput

/-- The number of bytes a buffer holds. -/
def capacity : Nat := 8192

/-- An empty buffer in front of a device. -/
def ofDevice (device : OutputDevice) : BufferedOutput := ⟨ByteArray.empty, device⟩

/-- Pass bytes to the device past the buffer. -/
def writeThrough (bytes : ByteArray) : EStateM WriteFault BufferedOutput Unit
  | ⟨pending, device⟩ =>
    match Receiver.writeAll bytes device with
    | .ok _ device => .ok () ⟨pending, device⟩
    | .error fault device => .error fault ⟨pending, device⟩

/-- Pass on what the buffer holds. After a fault the buffer still holds it. -/
def flush : EStateM WriteFault BufferedOutput Unit
  | ⟨pending, device⟩ =>
    match Receiver.writeAll pending device with
    | .ok _ device => .ok () ⟨ByteArray.empty, device⟩
    | .error fault device => .error fault ⟨pending, device⟩

/-- Add bytes to the buffer. -/
def append (bytes : ByteArray) : EStateM WriteFault BufferedOutput Unit
  | ⟨pending, device⟩ => .ok () ⟨pending ++ bytes, device⟩

/-- Bytes that do not fit beside the pending ones flush those first; a piece as large as the
buffer goes past it. -/
def write (bytes : ByteArray) : EStateM WriteFault BufferedOutput Unit := do
  if capacity < (← get).pending.size + bytes.size then
    flush
  if capacity ≤ bytes.size then
    writeThrough bytes
  else
    append bytes

instance : Sink BufferedOutput := ⟨write⟩

end BufferedOutput

end PixelTables

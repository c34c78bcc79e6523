import PixelTables.Proofs.Source.Emission

/-!
# Output through a buffer

Pieces that are written through a buffer to an output that works all arrive, in order, once the
buffer is flushed. Of pieces that are written to a full output none arrives, and as soon as there
are more bytes than the buffer holds the writing ends with the refusal of the output.

## Main Definitions

* `BufferedOutput.taken` — all bytes that have been written, passed on or not
* `BufferedOutput.IsStuck` — an output behind which nothing can be passed on

## Main Statements

* `BufferedOutput.putAll_of_works`, `BufferedOutput.flush_of_works` — an output that works
* `BufferedOutput.putAll_of_isStuck` — a full output
-/

namespace PixelTables

namespace OutputDevice

/-- A device that works takes all bytes. -/
theorem writeAll_of_works (bytes received : ByteArray) :
    Receiver.writeAll bytes (⟨false, received⟩ : OutputDevice)
      = .ok () ⟨false, received ++ bytes⟩ := by
  unfold Receiver.writeAll
  split
  · next hsize => rw [ByteArray.size_eq_zero_iff.1 hsize, ByteArray.append_empty]
  · next hsize =>
    obtain ⟨count, hcount⟩ := Nat.exists_eq_succ_of_ne_zero hsize
    have hoffer : Receiver.offer bytes (⟨false, received⟩ : OutputDevice)
        = (.ok (count + 1), ⟨false, received ++ bytes⟩) := by
      rw [← Nat.succ_eq_add_one, ← hcount]
      rfl
    have hrest : (bytes.extract (count + 1) bytes.size).size = 0 := by
      rw [ByteArray.size_extract]
      omega
    rw [hoffer]
    dsimp only
    rw [Receiver.writeAll, if_pos hrest]

/-- A full device takes no byte. -/
theorem writeAll_of_isFull (bytes received : ByteArray) :
    Receiver.writeAll bytes (⟨true, received⟩ : OutputDevice)
      = if bytes.size = 0 then .ok () ⟨true, received⟩
        else .error (.os .storageFull) ⟨true, received⟩ := by
  rw [Receiver.writeAll]
  rfl

end OutputDevice

namespace BufferedOutput

/-- All bytes that have been written, those that have been passed on first. -/
def taken (output : BufferedOutput) : ByteArray := output.device.received ++ output.pending

/-- First the buffer is flushed if the bytes do not fit beside what it holds. Then they go past it,
if they would fill it, or into it. -/
theorem write_eq (bytes : ByteArray) (output : BufferedOutput) :
    write bytes output
      = match (if capacity < output.pending.size + bytes.size then flush output
          else .ok () output) with
        | .ok _ next =>
          if capacity ≤ bytes.size then writeThrough bytes next else append bytes next
        | .error fault next => .error fault next := by
  have hget : (get : EStateM WriteFault BufferedOutput BufferedOutput) output = .ok output output :=
    rfl
  unfold write
  simp only [bind, EStateM.bind, hget]
  split
  · cases hflush : flush output <;> split <;> simp only [EStateM.bind, hflush]
  · split <;> rfl

section Works

variable {output : BufferedOutput}

/-- Flushing passes everything on. -/
theorem flush_of_works (h : output.device.isFull = false) :
    flush output = .ok () ⟨ByteArray.empty, ⟨false, output.taken⟩⟩ := by
  obtain ⟨pending, isFull, received⟩ := output
  dsimp only at h
  subst h
  rw [flush, OutputDevice.writeAll_of_works]
  rfl

/-- Bytes that go past the buffer arrive in order, because the buffer is empty then. -/
theorem place_of_works (h : output.device.isFull = false) {bytes : ByteArray}
    (hempty : capacity ≤ bytes.size → output.pending.size = 0) :
    ∃ next, (if capacity ≤ bytes.size then writeThrough bytes output else append bytes output)
        = .ok () next ∧ next.device.isFull = false ∧ next.taken = output.taken ++ bytes := by
  obtain ⟨pending, isFull, received⟩ := output
  dsimp only at h hempty
  subst h
  by_cases hlarge : capacity ≤ bytes.size
  · -- Nothing is held back, so nothing is overtaken.
    have hpending : pending = ByteArray.empty := ByteArray.size_eq_zero_iff.1 (hempty hlarge)
    refine ⟨⟨pending, false, received ++ bytes⟩, ?_, rfl, ?_⟩
    · rw [if_pos hlarge, writeThrough, OutputDevice.writeAll_of_works]
    · simp only [taken, hpending, ByteArray.append_empty]
  · refine ⟨⟨pending ++ bytes, false, received⟩, ?_, rfl, ?_⟩
    · rw [if_neg hlarge]
      rfl
    · rw [taken, taken, ByteArray.append_assoc]

/-- A piece is taken whole and after all others, whether the buffer is flushed for it, is passed
by or has room for it. -/
theorem write_of_works (h : output.device.isFull = false) (bytes : ByteArray) :
    ∃ next, write bytes output = .ok () next ∧ next.device.isFull = false
      ∧ next.taken = output.taken ++ bytes := by
  rw [write_eq]
  by_cases hfits : capacity < output.pending.size + bytes.size
  · rw [if_pos hfits, flush_of_works h]
    dsimp only
    have hflushed : (⟨ByteArray.empty, ⟨false, output.taken⟩⟩ : BufferedOutput).device.isFull
        = false := rfl
    obtain ⟨next, hnext, hworks, htaken⟩ := place_of_works hflushed fun _ => rfl
    refine ⟨next, hnext, hworks, ?_⟩
    rw [htaken, taken, ByteArray.append_empty]
  · -- Bytes that fit and still fill the buffer leave no room for others in it.
    rw [if_neg hfits]
    refine place_of_works h ?_
    intro hlarge
    omega

/-- Pieces are taken whole and in order. -/
theorem putAll_of_works (h : output.device.isFull = false) (pieces : List String) :
    ∃ next, putAll pieces output = .ok () next ∧ next.device.isFull = false
      ∧ next.taken = output.taken ++ (String.join pieces).toUTF8 := by
  induction pieces generalizing output with
  | nil => exact ⟨output, rfl, h, by simp⟩
  | cons piece pieces ih =>
    obtain ⟨between, hput, hworks, htaken⟩ := write_of_works h piece.toUTF8
    obtain ⟨next, hputAll, hnext, hall⟩ := ih hworks
    refine ⟨next, ?_, hnext, ?_⟩
    · have hpiece : put piece output = .ok () between := hput
      rw [putAll_cons]
      simp only [bind, EStateM.bind, hpiece, hputAll]
    · rw [hall, htaken, String.join_cons, toUTF8_append, ByteArray.append_assoc]

end Works

/-- The output is full and has received nothing, and the buffer holds no more than it can. -/
def IsStuck (output : BufferedOutput) : Prop :=
  output.device = ⟨true, ByteArray.empty⟩ ∧ output.pending.size ≤ capacity

section Stuck

variable {output : BufferedOutput}

theorem flush_of_isFull (held : ByteArray) :
    flush ⟨held, true, ByteArray.empty⟩
      = if held.size = 0 then .ok () ⟨ByteArray.empty, true, ByteArray.empty⟩
        else .error (.os .storageFull) ⟨held, true, ByteArray.empty⟩ := by
  rw [flush, OutputDevice.writeAll_of_isFull]
  by_cases hheld : held.size = 0
  · rw [if_pos hheld, if_pos hheld]
  · rw [if_neg hheld, if_neg hheld]

/-- Bytes for which there is room stay in the buffer, and bytes that go past it are refused. -/
theorem place_of_isStuck (h : output.IsStuck) {bytes : ByteArray}
    (hroom : bytes.size < capacity → output.pending.size + bytes.size ≤ capacity) :
    (∃ next, (if capacity ≤ bytes.size then writeThrough bytes output else append bytes output)
        = .ok () next ∧ next.IsStuck ∧ next.pending = output.pending ++ bytes)
      ∨ ∃ next, (if capacity ≤ bytes.size then writeThrough bytes output
          else append bytes output) = .error (.os .storageFull) next
        ∧ next.device = ⟨true, ByteArray.empty⟩ := by
  obtain ⟨pending, device⟩ := output
  obtain ⟨rfl, -⟩ : device = _ ∧ _ := h
  dsimp only at hroom
  by_cases hlarge : capacity ≤ bytes.size
  · have hsize : bytes.size ≠ 0 := by
      have hcapacity : capacity = 8192 := rfl
      omega
    refine Or.inr ⟨⟨pending, true, ByteArray.empty⟩, ?_, rfl⟩
    rw [if_pos hlarge, writeThrough, OutputDevice.writeAll_of_isFull, if_neg hsize]
  · refine Or.inl ⟨⟨pending ++ bytes, true, ByteArray.empty⟩, ?_, ⟨rfl, ?_⟩, rfl⟩
    · rw [if_neg hlarge]
      rfl
    · dsimp only
      rw [ByteArray.size_append]
      omega

/-- A piece for a full output stays in the buffer, or it is refused and nothing arrives. -/
theorem write_of_isStuck (h : output.IsStuck) (bytes : ByteArray) :
    (∃ next, write bytes output = .ok () next ∧ next.IsStuck
        ∧ next.pending = output.pending ++ bytes)
      ∨ ∃ next, write bytes output = .error (.os .storageFull) next
        ∧ next.device = ⟨true, ByteArray.empty⟩ := by
  rw [write_eq]
  by_cases hfits : capacity < output.pending.size + bytes.size
  · have houtput : output = ⟨output.pending, true, ByteArray.empty⟩ := by
      rw [← h.1]
    rw [if_pos hfits, houtput, flush_of_isFull]
    by_cases hpending : output.pending.size = 0
    · rw [if_pos hpending, ByteArray.size_eq_zero_iff.1 hpending]
      refine place_of_isStuck ⟨rfl, Nat.zero_le _⟩ ?_
      intro hsmall
      rw [ByteArray.size_empty]
      omega
    · rw [if_neg hpending]
      exact Or.inr ⟨_, rfl, rfl⟩
  · rw [if_neg hfits]
    refine place_of_isStuck h ?_
    intro _
    omega

/-- Pieces for a full output stay in the buffer as long as they fit, and then are refused. -/
theorem putAll_of_isStuck (h : output.IsStuck) (pieces : List String) :
    (∃ next, putAll pieces output = .ok () next ∧ next.IsStuck
        ∧ next.pending = output.pending ++ (String.join pieces).toUTF8)
      ∨ ∃ next, putAll pieces output = .error (.os .storageFull) next
        ∧ next.device = ⟨true, ByteArray.empty⟩ := by
  induction pieces generalizing output with
  | nil => exact Or.inl ⟨output, rfl, h, by simp⟩
  | cons piece pieces ih =>
    rcases write_of_isStuck h piece.toUTF8 with ⟨between, hput, hstuck, hpending⟩ |
      ⟨next, hput, hdevice⟩
    · have hpiece : put piece output = .ok () between := hput
      have hcons : putAll (piece :: pieces) output = putAll pieces between := by
        rw [putAll_cons]
        simp only [bind, EStateM.bind, hpiece]
      rw [hcons, String.join_cons]
      rcases ih hstuck with ⟨next, hputAll, hnext, hall⟩ | hrefused
      · refine Or.inl ⟨next, hputAll, hnext, ?_⟩
        rw [hall, hpending, toUTF8_append, ByteArray.append_assoc]
      · exact Or.inr hrefused
    · have hpiece : put piece output = .error (.os .storageFull) next := hput
      refine Or.inr ⟨next, ?_, hdevice⟩
      rw [putAll_cons]
      simp only [bind, EStateM.bind, hpiece]

end Stuck

end BufferedOutput

end PixelTables

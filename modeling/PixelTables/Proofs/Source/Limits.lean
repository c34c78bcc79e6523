import PixelTables.Proofs.Source.Emission

/-!
# Writers that fail after a number of bytes

A writer may take what it is offered in several parts, and fail once it has taken a number of
bytes. A text that is written to it piece by piece arrives up to that number of bytes, wherever in a
piece that is, and nothing is offered to the writer after its first failure.

## Main Definitions

* `Receiver.Refuses` — a state in which an offer is turned down, and the state that is left
* `LimitedWriter` — a writer that takes a number of bytes before it fails
* `LimitedWriter.Outcome` — what becomes of bytes that are written to it
* `LimitedSink.writer` — a limited sink is such a writer

## Main Statements

* `LimitedWriter.Outcome.eq_ok`, `LimitedWriter.Outcome.eq_error` — an outcome by the room there is
* `LimitedWriter.writeAll_outcome` — bytes that are offered until all are taken
* `LimitedWriter.putAll_outcome` — pieces that are written one after another

## Design Notes

Nothing is said of a writer after its first failure: it may fail again or take bytes again. So the
state that an operation leaves behind tells that nothing was offered after the failure, if it is the
very state in which the failing offer left the writer.
-/

namespace PixelTables

/-- Bytes that are offered are turned down, with a fault or by taking none of them. -/
def Receiver.Refuses {σ : Type} [Receiver σ] (bytes : ByteArray) (state : σ) (fault : WriteFault)
    (next : σ) : Prop :=
  Receiver.offer bytes state = (.error fault, next)
    ∨ Receiver.offer bytes state = (.ok 0, next) ∧ fault = .wroteZero

/-- A writer that takes a number of bytes, maybe in several parts, and then fails. -/
structure LimitedWriter (σ : Type) [Receiver σ] [Sink σ] where
  /-- The bytes that have been taken. -/
  accepted : σ → ByteArray
  /-- How many more bytes are taken before the writer fails. -/
  room : σ → Nat
  /-- A piece is offered until all of it is taken. -/
  write_eq : ∀ (bytes : ByteArray) (state : σ),
    Sink.write bytes state = Receiver.writeAll bytes state
  /-- While there is room, some of the first bytes of an offer are taken. -/
  offer_of_room : ∀ (bytes : ByteArray) (state : σ), bytes.size ≠ 0 → room state ≠ 0 →
    ∃ count next, Receiver.offer bytes state = (.ok count, next)
      ∧ count ≠ 0 ∧ count ≤ bytes.size ∧ room next + count = room state
      ∧ accepted next = accepted state ++ bytes.extract 0 count
  /-- When there is no room, an offer is turned down. -/
  offer_of_full : ∀ (bytes : ByteArray) (state : σ), bytes.size ≠ 0 → room state = 0 →
    ∃ fault next, Receiver.Refuses bytes state fault next ∧ accepted next = accepted state

/-- The first bytes of a text that goes on after `bytes`. -/
theorem extract_zero_append (bytes more : ByteArray) (n : Nat) :
    (bytes ++ more).extract 0 n = bytes.extract 0 n ++ more.extract 0 (n - bytes.size) := by
  rw [ByteArray.extract_append, Nat.zero_sub]

namespace LimitedWriter

variable {σ : Type} [Receiver σ] [Sink σ] (writer : LimitedWriter σ)

/-- What becomes of bytes that are written to a writer. Either there was room for all of them, or
there was not; then as many were taken as there was room for, and the operation ended with the
first offer that was turned down. -/
def Outcome (bytes : ByteArray) (state : σ) : EStateM.Result WriteFault σ Unit → Prop
  | .ok _ next =>
    writer.room next + bytes.size = writer.room state
      ∧ writer.accepted next = writer.accepted state ++ bytes
  | .error fault next =>
    writer.room state < bytes.size
      ∧ ∃ piece full, Receiver.Refuses piece full fault next ∧ writer.room full = 0
        ∧ writer.accepted full = writer.accepted state ++ bytes.extract 0 (writer.room state)
        ∧ writer.accepted next = writer.accepted full

variable {writer} {bytes more : ByteArray} {state next : σ}

/-- Bytes after others that were all taken have what room these left. -/
theorem Outcome.append {result : EStateM.Result WriteFault σ Unit}
    (h : writer.Outcome bytes state (.ok () next)) (hmore : writer.Outcome more next result) :
    writer.Outcome (bytes ++ more) state result := by
  obtain ⟨hroom, haccepted⟩ := h
  cases result with
  | ok _ last =>
    obtain ⟨hlast, htaken⟩ := hmore
    refine ⟨?_, ?_⟩
    · rw [ByteArray.size_append]
      omega
    · rw [htaken, haccepted, ByteArray.append_assoc]
  | error fault last =>
    obtain ⟨hlast, piece, full, hrefuses, hfull, htaken, hkept⟩ := hmore
    -- All of the first bytes are among those that were taken.
    have hfirst : (bytes ++ more).extract 0 (writer.room state)
        = bytes ++ more.extract 0 (writer.room next) := by
      rw [extract_zero_append, extract_zero_of_size_le (by omega), ← hroom, Nat.add_sub_cancel]
    refine ⟨?_, piece, full, hrefuses, hfull, ?_, hkept⟩
    · rw [ByteArray.size_append]
      omega
    · rw [htaken, haccepted, hfirst, ByteArray.append_assoc]

/-- After a failure the bytes that would have followed make no difference. -/
theorem Outcome.append_of_error {fault : WriteFault}
    (h : writer.Outcome bytes state (.error fault next)) (more : ByteArray) :
    writer.Outcome (bytes ++ more) state (.error fault next) := by
  obtain ⟨hroom, piece, full, hrefuses, hfull, htaken, hkept⟩ := h
  refine ⟨?_, piece, full, hrefuses, hfull, ?_, hkept⟩
  · rw [ByteArray.size_append]
    omega
  · have hrest : writer.room state - bytes.size = 0 := by omega
    rw [extract_zero_append, hrest, ByteArray.extract_same, ByteArray.append_empty, htaken]

/-- With room enough all the bytes are taken. -/
theorem Outcome.eq_ok {result : EStateM.Result WriteFault σ Unit}
    (h : writer.Outcome bytes state result) (hroom : bytes.size ≤ writer.room state) :
    ∃ next, result = .ok () next ∧ writer.accepted next = writer.accepted state ++ bytes := by
  cases result with
  | ok _ next => exact ⟨next, rfl, h.2⟩
  | error fault next => exact absurd h.1 (Nat.not_lt.2 hroom)

/-- With too little room the operation fails, and the room that there is is used up. -/
theorem Outcome.eq_error {result : EStateM.Result WriteFault σ Unit}
    (h : writer.Outcome bytes state result) (hroom : writer.room state < bytes.size) :
    ∃ fault next, result = .error fault next
      ∧ writer.accepted next = writer.accepted state ++ bytes.extract 0 (writer.room state) := by
  cases result with
  | ok _ next =>
    obtain ⟨hleft, -⟩ := h
    omega
  | error fault next =>
    obtain ⟨-, _, full, -, -, htaken, hkept⟩ := h
    exact ⟨fault, next, rfl, hkept.trans htaken⟩

variable (writer)

/-- Bytes are offered until all are taken or the writer fails. The induction is on the number of
bytes that are left: an offer takes one at least. -/
theorem writeAll_outcome (bytes : ByteArray) (state : σ) :
    writer.Outcome bytes state (Receiver.writeAll bytes state) := by
  induction hsize : bytes.size using Nat.strongRecOn generalizing bytes state with
  | ind size ih =>
    rw [Receiver.writeAll]
    by_cases hzero : bytes.size = 0
    · rw [if_pos hzero, ByteArray.size_eq_zero_iff.1 hzero]
      exact ⟨rfl, ByteArray.append_empty.symm⟩
    · rw [if_neg hzero]
      by_cases hroom : writer.room state = 0
      · obtain ⟨fault, next, hrefuses, hkept⟩ := writer.offer_of_full bytes state hzero hroom
        have hnone : writer.accepted state
            = writer.accepted state ++ bytes.extract 0 (writer.room state) := by
          rw [hroom, ByteArray.extract_same, ByteArray.append_empty]
        have houtcome : writer.Outcome bytes state (.error fault next) :=
          ⟨by omega, bytes, state, hrefuses, hroom, hnone, hkept⟩
        rcases hrefuses with hoffer | ⟨hoffer, rfl⟩
        · rw [hoffer]
          exact houtcome
        · rw [hoffer]
          exact houtcome
      · obtain ⟨count, next, hoffer, hcount, hle, hnext, htaken⟩ :=
          writer.offer_of_room bytes state hzero hroom
        obtain ⟨k, rfl⟩ := Nat.exists_eq_succ_of_ne_zero hcount
        have hrest : (bytes.extract (k + 1) bytes.size).size < size := by
          rw [ByteArray.size_extract]
          omega
        have hfirst : writer.Outcome (bytes.extract 0 (k + 1)) state (.ok () next) := by
          refine ⟨?_, htaken⟩
          rw [ByteArray.size_extract]
          omega
        have hwhole : bytes = bytes.extract 0 (k + 1) ++ bytes.extract (k + 1) bytes.size := by
          rw [← ByteArray.extract_eq_extract_append_extract (k + 1) (Nat.zero_le _) hle,
            ByteArray.extract_zero_size]
        rw [hoffer]
        have happend := hfirst.append (ih _ hrest (bytes.extract (k + 1) bytes.size) next rfl)
        rw [← hwhole] at happend
        exact happend

/-- A piece of text arrives as far as there is room. -/
theorem put_outcome (piece : String) (state : σ) :
    writer.Outcome piece.toUTF8 state (put piece state) := by
  rw [put, writer.write_eq]
  exact writer.writeAll_outcome piece.toUTF8 state

/-- Pieces of text arrive as far as there is room, and after a failure no piece is written. -/
theorem putAll_outcome (pieces : List String) (state : σ) :
    writer.Outcome (String.join pieces).toUTF8 state (putAll pieces state) := by
  induction pieces generalizing state with
  | nil => exact ⟨rfl, ByteArray.append_empty.symm⟩
  | cons piece pieces ih =>
    have hpiece := writer.put_outcome piece state
    rw [String.join_cons, toUTF8_append, putAll_cons]
    simp only [bind, EStateM.bind]
    cases hput : put piece state with
    | ok _ next =>
      rw [hput] at hpiece
      exact hpiece.append (ih next)
    | error fault next =>
      rw [hput] at hpiece
      exact hpiece.append_of_error _

end LimitedWriter

/-- A limited sink takes what there is room for and then fails. -/
def LimitedSink.writer : LimitedWriter LimitedSink where
  accepted := accepted
  room := room
  write_eq _ _ := rfl
  offer_of_room := by
    intro bytes state hbytes hroom
    obtain ⟨accepted, room, fault?⟩ := state
    refine ⟨min room bytes.size, ⟨accepted ++ bytes.extract 0 (min room bytes.size),
      room - min room bytes.size, fault?⟩, ?_, ?_, ?_, ?_, rfl⟩
    · exact if_neg hroom
    · dsimp only at hroom
      omega
    · exact Nat.min_le_right _ _
    · dsimp only
      omega
  offer_of_full := by
    intro bytes state _ hroom
    obtain ⟨accepted, room, fault?⟩ := state
    dsimp only at hroom
    subst hroom
    cases fault? with
    | some fault => exact ⟨fault, _, Or.inl rfl, rfl⟩
    | none => exact ⟨.wroteZero, _, Or.inr ⟨rfl, rfl⟩, rfl⟩

end PixelTables

import PixelTables.Proofs.CommandLine.Spelling

/-!
# Settling what is pending

A value in a word of its own is held back until the next word is taken. Where nothing is wrong with
it, it makes no difference to the rest of a command line to accept it at once.

## Main Statements

* `CommandLine.Level.acceptFormat_eq_ok_iff` — when a value of the format option is accepted
* `CommandLine.scanTable_eq_of_settle`, `CommandLine.scanOuter_eq_of_settle` — what is pending may
  be settled at once
* `CommandLine.exists_settle_of_scanTable`, `CommandLine.exists_settle_of_scanOuter` — where a level
  is read to its end, what was pending is right
-/

namespace PixelTables

theorem exists_of_bind_eq_ok {ε α β : Type} {x : Except ε α} {f : α → Except ε β} {b : β}
    (h : x >>= f = .ok b) : ∃ a, x = .ok a ∧ f a = .ok b := by
  cases x with
  | error _ => cases h
  | ok a => exact ⟨a, rfl, h⟩

namespace CommandLine

/-! ## One level -/

namespace Level

variable {level settled : Level}

theorem acceptFormat_eq_ok_iff {value : String} :
    level.acceptFormat value = .ok settled
      ↔ level.format = none
        ∧ ∃ format : Format, value = format.name
          ∧ settled = ⟨some format, level.output, .nothing⟩ := by
  unfold acceptFormat
  cases hformat : level.format with
  | some format => simp
  | none =>
    cases hvalue : formatOfValue? value with
    | some format =>
      rw [formatOfValue?_eq_some_iff] at hvalue
      subst hvalue
      constructor
      · intro h
        cases h
        exact ⟨rfl, format, rfl, rfl⟩
      · rintro ⟨-, other, hname, rfl⟩
        rw [← formatOfValue?_eq_some_iff, formatOfValue?_eq_some_iff.2 rfl,
          Option.some_inj] at hname
        rw [hname]
        rfl
    | none =>
      constructor
      · intro h
        rw [Option.isSome_none, if_neg Bool.false_ne_true] at h
        dsimp only at h
        split at h <;> cases h
      · rintro ⟨-, format, rfl, -⟩
        rw [formatOfValue?_eq_some_iff.2 rfl] at hvalue
        cases hvalue

theorem settle_of_pending (h : level.pending = .nothing) : level.settle = .ok level := by
  rw [settle, h]

/-- Nothing is pending once a level is settled. -/
theorem pending_of_settle (h : level.settle = .ok settled) : settled.pending = .nothing := by
  unfold settle at h
  split at h
  · next hpending =>
    cases h
    exact hpending
  · cases h
  · obtain ⟨-, format, -, rfl⟩ := acceptFormat_eq_ok_iff.1 h
    rfl
  · split at h
    · cases h
    · cases h
      rfl

theorem not_awaited_of_settle (h : level.settle = .ok settled) :
    level.pending ≠ .formatAwaited := by
  intro hpending
  rw [settle, hpending] at h
  cases h

theorem hasOutput_of_settle (h : level.settle = .ok settled) :
    level.hasOutput = settled.hasOutput := by
  have hsettled := pending_of_settle h
  unfold settle at h
  split at h
  · cases h
    rfl
  · cases h
  · next hpending =>
    obtain ⟨-, format, -, rfl⟩ := acceptFormat_eq_ok_iff.1 h
    rw [hasOutput, hpending]
    rfl
  · next hpending =>
    split at h
    · cases h
    · cases h
      rw [hasOutput, hpending]
      simp [hasOutput]

theorem takeFormat_eq_of_settle (h : level.settle = .ok settled) (attached : Option String) :
    level.takeFormat attached = settled.takeFormat attached := by
  rw [takeFormat, takeFormat, h, settle_of_pending (pending_of_settle h)]

theorem takeOutput_eq_of_settle (h : level.settle = .ok settled) (word : String) :
    level.takeOutput word = settled.takeOutput word := by
  rw [takeOutput, takeOutput, hasOutput_of_settle h, h, settle_of_pending (pending_of_settle h)]

theorem takeWord_eq_of_settle (h : level.settle = .ok settled) (word : String) :
    level.takeWord word = settled.takeWord word := by
  have hpending : settled.pending ≠ .formatAwaited := by
    rw [pending_of_settle h]
    nofun
  rw [takeWord, takeWord, if_neg (not_awaited_of_settle h), if_neg hpending,
    takeOutput_eq_of_settle h]

theorem stop_eq_of_settle {α : Type} (h : level.settle = .ok settled) (halt : Halt) :
    (level.stop halt : Except Halt α) = settled.stop halt := by
  rw [stop, stop, h, settle_of_pending (pending_of_settle h)]

theorem stop_ne_ok {α : Type} {halt : Halt} {a : α} : level.stop halt ≠ .ok a := by
  intro h
  obtain ⟨_, -, hthrow⟩ := exists_of_bind_eq_ok h
  cases hthrow

theorem exists_settle_of_takeFormat {attached : Option String}
    (h : level.takeFormat attached = .ok settled) : ∃ between, level.settle = .ok between := by
  obtain ⟨between, hsettle, -⟩ := exists_of_bind_eq_ok h
  exact ⟨between, hsettle⟩

theorem exists_settle_of_takeOutput {word : String} (h : level.takeOutput word = .ok settled) :
    ∃ between, level.settle = .ok between := by
  rw [takeOutput] at h
  split at h
  · cases h
  · obtain ⟨between, hsettle, -⟩ := exists_of_bind_eq_ok h
    exact ⟨between, hsettle⟩

end Level

/-! ## The words that follow -/

section Words

variable {kind : Kind} {level settled : Level} {words : List String}

theorem scanOperands_eq_of_settle (h : level.settle = .ok settled) :
    scanOperands level words = scanOperands settled words := by
  cases words with
  | nil => rw [scanOperands, scanOperands, h, Level.settle_of_pending (Level.pending_of_settle h)]
  | cons word words => rw [scanOperands, scanOperands, Level.takeOutput_eq_of_settle h]

/-- What is pending at the inner level may be settled at once. -/
theorem scanTable_eq_of_settle (h : level.settle = .ok settled) :
    scanTable kind level words = scanTable kind settled words := by
  -- Every way to go on settles what is pending first, or fails in the same way without it.
  cases words with
  | nil => rw [scanTable, scanTable, h, Level.settle_of_pending (Level.pending_of_settle h)]
  | cons word words =>
    rw [scanTable, scanTable]
    split
    · exact scanOperands_eq_of_settle h
    · rw [Level.takeFormat_eq_of_settle h]
    · exact Level.stop_eq_of_settle h _
    · rfl
    · rfl
    · rfl
    · rw [Level.takeWord_eq_of_settle h]

theorem endWithoutCommand_ne_ok {run : Run} : endWithoutCommand level ≠ .ok run := by
  intro h
  obtain ⟨between, -, hthrow⟩ := exists_of_bind_eq_ok h
  split at hthrow <;> cases hthrow

theorem endWithoutCommand_eq_of_settle (h : level.settle = .ok settled) :
    (endWithoutCommand level : Except Halt Run) = endWithoutCommand settled := by
  rw [endWithoutCommand, endWithoutCommand, h,
    Level.settle_of_pending (Level.pending_of_settle h)]

theorem command?_eq_of_settle (h : level.settle = .ok settled) (word : String) :
    level.command? word = Command.ofWord? word := by
  rw [Level.command?, if_neg (Level.not_awaited_of_settle h)]

/-- What is pending at the outer level may be settled at once. -/
theorem scanOuter_eq_of_settle (h : level.settle = .ok settled) :
    scanOuter level words = scanOuter settled words := by
  have hsettled := Level.settle_of_pending (Level.pending_of_settle h)
  cases words with
  | nil => exact endWithoutCommand_eq_of_settle h
  | cons word words =>
    rw [scanOuter, scanOuter, command?_eq_of_settle h, command?_eq_of_settle hsettled]
    split
    · rw [finishTable, finishTable, h, hsettled]
    · rfl
    · split
      · cases words with
        | nil => exact endWithoutCommand_eq_of_settle h
        | cons _ _ => rfl
      · rw [Level.takeFormat_eq_of_settle h]
      · exact Level.stop_eq_of_settle h _
      · exact Level.stop_eq_of_settle h _
      · rfl
      · rfl
      · rw [Level.takeOuterWord, Level.takeOuterWord, if_neg (Level.not_awaited_of_settle h),
          if_neg (Level.not_awaited_of_settle hsettled)]

/-- Where the inner level comes to an end, what is pending is right, but for a value awaited. -/
theorem exists_settle_of_scanTable {result : Level} (hpending : level.pending ≠ .formatAwaited)
    (h : scanTable kind level words = .ok result) : ∃ between, level.settle = .ok between := by
  cases words with
  | nil => exact ⟨result, h⟩
  | cons word words =>
    rw [scanTable] at h
    split at h
    · cases words with
      | nil => exact ⟨result, h⟩
      | cons word words =>
        obtain ⟨_, htake, -⟩ := exists_of_bind_eq_ok h
        exact Level.exists_settle_of_takeOutput htake
    · obtain ⟨_, htake, -⟩ := exists_of_bind_eq_ok h
      exact Level.exists_settle_of_takeFormat htake
    · exact absurd h Level.stop_ne_ok
    · cases h
    · split at h <;> cases h
    · cases h
    · obtain ⟨_, htake, -⟩ := exists_of_bind_eq_ok h
      rw [Level.takeWord, if_neg hpending] at htake
      exact Level.exists_settle_of_takeOutput htake

theorem stopForHelp_ne_ok {run : Run} : stopForHelp words ≠ .ok run := by
  intro h
  obtain ⟨_, -, hthrow⟩ := exists_of_bind_eq_ok h
  cases hthrow

theorem scanOuterOperands_ne_ok {run : Run} : scanOuterOperands level words ≠ .ok run := by
  intro h
  cases words with
  | nil => exact endWithoutCommand_ne_ok h
  | cons word words =>
    rw [scanOuterOperands] at h
    split at h <;> cases h

/-- Where the outer level comes to a run, what is pending is right, but for a value awaited. -/
theorem exists_settle_of_scanOuter {run : Run} (hpending : level.pending ≠ .formatAwaited)
    (h : scanOuter level words = .ok run) : ∃ between, level.settle = .ok between := by
  cases words with
  | nil => exact absurd h endWithoutCommand_ne_ok
  | cons word words =>
    rw [scanOuter] at h
    split at h
    · obtain ⟨_, -, hfinish⟩ := exists_of_bind_eq_ok h
      obtain ⟨between, hsettle, -⟩ := exists_of_bind_eq_ok hfinish
      exact ⟨between, hsettle⟩
    · exact absurd h stopForHelp_ne_ok
    · split at h
      · exact absurd h scanOuterOperands_ne_ok
      · obtain ⟨_, htake, -⟩ := exists_of_bind_eq_ok h
        exact Level.exists_settle_of_takeFormat htake
      · exact absurd h Level.stop_ne_ok
      · exact absurd h Level.stop_ne_ok
      · cases h
      · cases h
      · obtain ⟨_, htake, -⟩ := exists_of_bind_eq_ok h
        rw [Level.takeOuterWord, if_neg hpending] at htake
        cases htake

end Words

end CommandLine

end PixelTables

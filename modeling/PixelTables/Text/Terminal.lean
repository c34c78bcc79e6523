/-!
# Text as a terminal shows it

Some characters of a text are not shown but steer the terminal: control characters, and control
sequences, which begin with the escape character. What is left without them is the plain form of
the text, the one that is written where there is no terminal.

## Main Definitions

* `Terminal.isVisible` — the characters that are shown outside of a sequence
* `Terminal.Part`, `Terminal.Part.next` — the parts of a sequence, and where each ends
* `Terminal.Phase`, `Terminal.Phase.next`, `Terminal.Phase.shows` — what a terminal is amid
* `Terminal.shown`, `Terminal.plain` — what is left of a text

## Main Statements

* `Terminal.plain_eq_iff` — a text is its own plain form where all of its characters are visible

## Design Notes

A sequence ends at its last character, at a cancel or substitute character, or where the next
sequence begins. Tab, line feed, form feed and return are shown even within a short sequence. They
suspend it: what follows is shown too, until a control character that is not shown takes it up
again. A character outside of ASCII ends a suspended sequence.
-/

namespace PixelTables

namespace Terminal

/-- The character that begins a sequence. -/
def escape : Char := '\x1b'

/-- Whether a character ends any sequence and is not a part of it: cancel and substitute. -/
def isCancel (c : Char) : Bool := c = '\x18' || c = '\x1a'

/-- Whether a character is a control character that leaves a blank: tab, line feed, form feed and
return. -/
def isBlankControl (c : Char) : Bool := c = '\t' || c = '\n' || c = '\x0c' || c = '\r'

/-- Whether a character is a control character of ASCII. -/
def isControl (c : Char) : Bool := c.toNat < 0x20 || c = '\x7f'

/-- Whether a character is shown outside of a sequence. -/
def isVisible (c : Char) : Bool := !isControl c || isBlankControl c

/-- Whether a character's code is within bounds. -/
def inRange (low high : Nat) (c : Char) : Bool := low ≤ c.toNat && c.toNat ≤ high

/-- Whether the encoding of a character holds the byte that terminates a string. No character of
ASCII does. -/
def holdsTerminator (c : Char) : Bool := (String.utf8EncodeChar c).contains 0x9C

/-- A part of a control sequence. -/
inductive Part where
  /-- After the escape character. -/
  | start
  /-- After an escape character and characters that designate a set. -/
  | designation
  /-- After `ESC [`: parameters, up to a letter. -/
  | parameters
  /-- After `ESC ]`: a command, up to a bell. -/
  | command
  /-- After `ESC P`: a device string begins. -/
  | device
  /-- The parameters of a device string. -/
  | deviceParameters
  /-- The characters between the parameters of a device string and the string. -/
  | deviceDesignation
  /-- A string, up to its terminator. -/
  | body
  deriving DecidableEq, Repr

namespace Part

/-- The part after a character, which neither begins nor cancels a sequence; `none` where the
character is the last of the sequence. -/
def next (c : Char) : Part → Option Part
  | .start =>
    if inRange 0x20 0x2f c then some .designation
    else if c = '[' then some .parameters
    else if c = ']' then some .command
    else if c = 'P' then some .device
    else if c = 'X' || c = '^' || c = '_' then some .body
    else if inRange 0x30 0x7e c then none
    else some .start
  | .designation => if inRange 0x30 0x7e c then none else some .designation
  | .parameters => if inRange 0x40 0x7e c then none else some .parameters
  | .command => if c = '\x07' then none else some .command
  | .device =>
    if inRange 0x20 0x2f c then some .deviceDesignation
    else if inRange 0x30 0x3f c then some .deviceParameters
    else if inRange 0x40 0x7e c then some .body
    else some .device
  | .deviceParameters =>
    if inRange 0x20 0x2f c then some .deviceDesignation
    else if inRange 0x3c 0x7e c then some .body
    else some .deviceParameters
  | .deviceDesignation => if inRange 0x30 0x7e c then some .body else some .deviceDesignation
  | .body => if holdsTerminator c then none else some .body

/-- Whether a character within a part is shown nevertheless. Strings and commands take up the blank
control characters, the other parts show them. -/
def shows (c : Char) : Part → Bool
  | .start | .designation | .parameters => isBlankControl c
  | .command | .device | .deviceParameters | .deviceDesignation | .body => false

end Part

/-- What a terminal is in the midst of. -/
inductive Phase where
  /-- Text. -/
  | text
  /-- A part of a sequence. -/
  | within (part : Part)
  /-- Text in the midst of a part of a sequence. -/
  | suspended (part : Part)
  deriving DecidableEq, Repr

namespace Phase

/-- Whether a character is shown. -/
def shows (c : Char) : Phase → Bool
  | .text | .suspended _ => isVisible c
  | .within part => part.shows c

/-- The phase after a character. -/
def next (phase : Phase) (c : Char) : Phase :=
  if c = escape then .within .start
  else if isCancel c then .text
  else
    match phase with
    | .text => .text
    | .within part =>
      if part.shows c then .suspended part
      else
        match part.next c with
        | none => .text
        | some part => .within part
    | .suspended part =>
      if 0x80 ≤ c.toNat then .text
      else if isVisible c then .suspended part
      else .within part

end Phase

/-- The characters of a text that are shown, from a phase on. -/
def shown : Phase → List Char → List Char
  | _, [] => []
  | phase, c :: text =>
    if phase.shows c then c :: shown (phase.next c) text else shown (phase.next c) text

/-- The plain form of a text. -/
def plain (text : String) : String := String.ofList (shown .text text.toList)

/-- A visible character neither begins nor cancels a sequence. -/
theorem next_text_of_isVisible {c : Char} (h : isVisible c) : Phase.text.next c = .text := by
  have hc : c ≠ escape := by
    rintro rfl
    revert h
    decide
  simp only [Phase.next, if_neg hc]
  split <;> rfl

/-- No character is shown twice. -/
theorem length_shown_le (phase : Phase) (text : List Char) :
    (shown phase text).length ≤ text.length := by
  induction text generalizing phase with
  | nil => exact Nat.le_refl 0
  | cons c text ih =>
    rw [shown, List.length_cons]
    split
    · exact Nat.succ_le_succ (ih (phase.next c))
    · exact Nat.le_succ_of_le (ih (phase.next c))

/-- A text is shown whole if and only if all of its characters are visible. The first one that is
not is missing from what is shown, and nothing makes up for it. -/
theorem shown_eq_iff (text : List Char) : shown .text text = text ↔ ∀ c ∈ text, isVisible c := by
  induction text with
  | nil => simp [shown]
  | cons c text ih =>
    rw [shown, List.forall_mem_cons]
    by_cases hc : isVisible c
    · have hshows : Phase.text.shows c = true := hc
      rw [if_pos hshows, next_text_of_isVisible hc, List.cons_inj_right, ih]
      exact (and_iff_right hc).symm
    · have hshows : ¬ Phase.text.shows c = true := hc
      rw [if_neg hshows]
      refine iff_of_false ?_ fun h => hc h.1
      intro h
      have hlength := length_shown_le (Phase.text.next c) text
      rw [h, List.length_cons] at hlength
      exact Nat.not_succ_le_self _ hlength

/-- A text is its own plain form if and only if all of its characters are visible. -/
theorem plain_eq_iff (text : String) : plain text = text ↔ ∀ c ∈ text.toList, isVisible c := by
  rw [plain, ← shown_eq_iff]
  constructor
  · intro h
    have htext := congrArg String.toList h
    rwa [String.toList_ofList] at htext
  · intro h
    rw [h, String.ofList_toList]

end Terminal

end PixelTables

/-!
# Cutting text at a character

## Main Definitions

* `splitAtChar` — the parts of a text between the occurrences of a character
* `linesOf` — the lines of a text

## Main Statements

* `intercalate_splitAtChar` — the parts with the character between them are the text
* `splitAtChar_of_not_mem`, `splitAtChar_append` — a part ends at the first occurrence of the
  character
-/

namespace PixelTables

/-- The parts of a text between the occurrences of a character. There is one part more than
occurrences. -/
def splitAtChar (separator : Char) (text : List Char) : List (List Char) :=
  text.foldr
    (fun c parts =>
      if c = separator then [] :: parts
      else
        match parts with
        | [] => [[c]]
        | part :: parts => (c :: part) :: parts)
    [[]]

@[simp] theorem splitAtChar_nil (separator : Char) : splitAtChar separator [] = [[]] := rfl

theorem splitAtChar_cons (separator c : Char) (text : List Char) :
    splitAtChar separator (c :: text) =
      if c = separator then [] :: splitAtChar separator text
      else
        match splitAtChar separator text with
        | [] => [[c]]
        | part :: parts => (c :: part) :: parts := rfl

/-- There is always a part. -/
theorem splitAtChar_ne_nil (separator : Char) (text : List Char) :
    splitAtChar separator text ≠ [] := by
  cases text with
  | nil => simp
  | cons c text =>
    rw [splitAtChar_cons]
    split
    · simp
    · split <;> simp

/-- The parts with the character between them are the text. -/
theorem intercalate_splitAtChar (separator : Char) (text : List Char) :
    [separator].intercalate (splitAtChar separator text) = text := by
  induction text with
  | nil => rfl
  | cons c text ih =>
    rw [splitAtChar_cons]
    split
    · rename_i h
      obtain ⟨part, parts, hparts⟩ := List.exists_cons_of_ne_nil (splitAtChar_ne_nil separator text)
      rw [hparts] at ih ⊢
      simpa [List.intercalate, h] using ih
    · obtain ⟨part, parts, hparts⟩ := List.exists_cons_of_ne_nil (splitAtChar_ne_nil separator text)
      rw [hparts] at ih ⊢
      cases parts <;> simpa [List.intercalate] using ih

/-- A text without the character is its own only part. -/
theorem splitAtChar_of_not_mem {separator : Char} {part : List Char} (h : separator ∉ part) :
    splitAtChar separator part = [part] := by
  induction part with
  | nil => rfl
  | cons c part ih =>
    simp only [List.mem_cons, not_or] at h
    rw [splitAtChar_cons, if_neg (Ne.symm h.1), ih h.2]

/-- A part ends at the first occurrence of the character. -/
theorem splitAtChar_append {separator : Char} {line : List Char} (h : separator ∉ line)
    (rest : List Char) :
    splitAtChar separator (line ++ separator :: rest) = line :: splitAtChar separator rest := by
  induction line with
  | nil => rw [List.nil_append, splitAtChar_cons, if_pos rfl]
  | cons c line ih =>
    simp only [List.mem_cons, not_or] at h
    rw [List.cons_append, splitAtChar_cons, if_neg (Ne.symm h.1), ih h.2]

theorem splitAtChar_eq_singleton_nil {separator : Char} {text : List Char}
    (h : splitAtChar separator text = [[]]) : text = [] := by
  rw [← intercalate_splitAtChar separator text, h]
  rfl

/-- The lines of a text. What follows the last line end is a line only if it is not empty. -/
def linesOf (text : String) : List String :=
  let parts := (splitAtChar '\n' text.toList).map String.ofList
  if parts.getLast? = some "" then parts.dropLast else parts

end PixelTables

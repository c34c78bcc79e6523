import PixelTables.Proofs.Source.Literals

/-!
# The characters of an array

An array literal is made of digits, commas and delimiters, so no other character can come from it.

## Main Definitions

* `isArrayChar` — the characters of an array literal

## Main Statements

* `isArrayChar_of_mem_line` — the lines of an array literal have no other characters
-/

namespace PixelTables

/-- The characters that an array literal is made of, its line ends left out. -/
def isArrayChar (c : Char) : Bool :=
  c.isDigit || [',', ';', '\x7b', '\x7d', '[', ']'].contains c

theorem isArrayChar_of_mem_repr {n : Nat} {c : Char} (h : c ∈ (Nat.repr n).toList) :
    isArrayChar c := by
  rw [Nat.toList_repr] at h
  have hdigit := Nat.isDigit_of_mem_toDigits (by decide) (by decide) h
  simp [isArrayChar, hdigit]

theorem isArrayChar_of_mem_followingDecimals {bytes : List UInt8} {c : Char}
    (h : c ∈ Reader.followingDecimals bytes) : isArrayChar c := by
  simp only [Reader.followingDecimals, List.mem_flatMap, List.mem_cons] at h
  obtain ⟨byte, -, rfl | hc⟩ := h
  · decide
  · exact isArrayChar_of_mem_repr hc

theorem isArrayChar_of_mem_opening {format : Format} {c : Char}
    (h : c ∈ format.opening.toList) : isArrayChar c := by
  cases format <;> simp only [Format.opening, String.reduceToList, List.mem_singleton] at h <;>
    subst h <;> decide

theorem isArrayChar_of_mem_closing {format : Format} {c : Char}
    (h : c ∈ format.closing.toList) : isArrayChar c := by
  cases format <;> simp only [Format.closing, String.reduceToList, List.mem_singleton] at h <;>
    subst h <;> decide

theorem isArrayChar_of_mem_finish {format : Format} {c : Char}
    (h : c ∈ format.finish.toList) : isArrayChar c := by
  cases format with
  | array => exact isArrayChar_of_mem_closing h
  | header | rust =>
    rw [Format.finish, String.toList_append, List.mem_append] at h
    rcases h with h | h
    · exact isArrayChar_of_mem_closing h
    · simp only [String.reduceToList, List.mem_singleton] at h
      subst h
      decide

theorem isArrayChar_of_mem_rowNumbers {row : TileRow} {c : Char}
    (h : c ∈ (rowNumbers row).toList) : isArrayChar c := by
  rw [rowNumbers] at h
  cases hbytes : row.toList with
  | nil =>
    rw [hbytes] at h
    simp at h
  | cons first bytes =>
    rw [hbytes, Reader.toList_intercalate_comma, List.mem_append] at h
    rcases h with hfirst | hfollowing
    · exact isArrayChar_of_mem_repr hfirst
    · exact isArrayChar_of_mem_followingDecimals hfollowing

theorem isArrayChar_of_mem_literal {format : Format} {entries : Entries} {literal : String}
    (hliteral : literal ∈ entries.literals format) {c : Char} (h : c ∈ literal.toList) :
    isArrayChar c := by
  cases entries with
  | words values =>
    obtain ⟨word, -, rfl⟩ := List.mem_map.1 hliteral
    exact isArrayChar_of_mem_repr h
  | rows values =>
    obtain ⟨row, -, rfl⟩ := List.mem_map.1 hliteral
    rw [String.toList_append, String.toList_append, List.mem_append, List.mem_append] at h
    rcases h with (h | h) | h
    · exact isArrayChar_of_mem_opening h
    · exact isArrayChar_of_mem_rowNumbers h
    · exact isArrayChar_of_mem_closing h

theorem mem_followingLines {finish line : String} {literals : List String}
    (h : line ∈ followingLines finish literals) :
    ∃ literal ∈ literals, line = literal ++ "," ∨ line = literal ++ finish := by
  induction literals with
  | nil => simp [followingLines] at h
  | cons literal literals ih =>
    cases literals with
    | nil => exact ⟨literal, List.mem_cons_self, Or.inr (List.mem_singleton.1 h)⟩
    | cons next literals =>
      rcases List.mem_cons.1 h with rfl | h
      · exact ⟨literal, List.mem_cons_self, Or.inl rfl⟩
      · obtain ⟨other, hother, hline⟩ := ih h
        exact ⟨other, List.mem_cons_of_mem _ hother, hline⟩

/-- The lines of an array literal, its opening left out, are made of digits, commas and
delimiters. -/
theorem isArrayChar_of_mem_line {format : Format} {entries : Entries} {line : String}
    (hline : line ∈ firstLine format.finish (entries.literals format)
      :: otherLines format.finish (entries.literals format))
    {c : Char} (h : c ∈ line.toList) : isArrayChar c := by
  cases hliterals : entries.literals format with
  | nil =>
    rw [hliterals] at hline
    rcases List.mem_cons.1 hline with rfl | hline
    · exact isArrayChar_of_mem_finish h
    · cases hline
  | cons literal literals =>
    rw [hliterals, ← followingLines_cons, ← hliterals] at hline
    obtain ⟨literal, hmem, hcases⟩ := mem_followingLines hline
    rcases hcases with rfl | rfl <;> rw [String.toList_append, List.mem_append] at h <;>
      rcases h with h | h
    · exact isArrayChar_of_mem_literal hmem h
    · simp only [String.reduceToList, List.mem_singleton] at h
      subst h
      decide
    · exact isArrayChar_of_mem_literal hmem h
    · exact isArrayChar_of_mem_finish h

end PixelTables

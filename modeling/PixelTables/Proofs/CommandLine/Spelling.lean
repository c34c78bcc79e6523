import PixelTables.CommandLine.Grammar

/-!
# What the words of the grammar are read as

The reader of a command line tells words apart by their first characters. Here each kind of word
that the grammar names is matched with what the reader takes it for, in both directions.

## Main Definitions

* `CommandLine.Word.Spells` — how a word is spelled that the reader takes for something

## Main Statements

* `CommandLine.Word.spells_ofString` — what the reader takes a word for tells how it is spelled
* `CommandLine.Word.ofString_of_isOutput` — outputs are operands
* `CommandLine.isFormatOption_iff` — format options, by what the reader takes their words for
* `CommandLine.formatOfValue?_eq_some_iff` — a value is a format only by the format's own name
* `CommandLine.Command.ofWord?_eq_table_iff` — a word is a table's command only by its own name
-/

namespace PixelTables

namespace CommandLine

namespace Word

/-- How a word is spelled that the reader takes for something. Where the grammar has no place for
it, nothing is said. -/
def Spells (word : String) : Word → Prop
  | endOfOptions => word = "--"
  | operand => word = "" ∨ IsOutput word
  | format none => word = "-f" ∨ word = "--format"
  | format (some value) =>
    word = "-f" ++ value ∨ word = "-f=" ++ value ∨ word = "--format=" ++ value
  | help | version _ | flagWithValue _ _ | unknownOption _ => True

theorem spells_ofLong {word name : String} {attached : Option String}
    (h : name = "format" → Spells word (.format attached)) :
    Spells word (ofLong name attached) := by
  unfold ofLong
  split
  · next hname => exact h hname
  · split
    · cases attached <;> trivial
    · split
      · cases attached <;> trivial
      · trivial

theorem spells_ofShort {word : String} {letter : Char} {rest : List Char}
    (h : letter = 'f' → Spells word (.format (attachedToShort rest))) :
    Spells word (ofShort letter rest) := by
  unfold ofShort
  split
  · next hletter => exact h hletter
  · split
    · trivial
    · split <;> trivial

/-- A long format option has its value after the first equals sign. -/
theorem spells_format_of_long {word : String} {option : List Char}
    (hword : word.toList = '-' :: '-' :: option)
    (hname : String.ofList (option.takeWhile (· != '=')) = "format") :
    Spells word (.format (attachedToLong option)) := by
  have hsplit := List.takeWhile_append_dropWhile (p := (· != '=')) (l := option)
  have hformat : option.takeWhile (· != '=') = "format".toList := by
    rw [← hname, String.toList_ofList]
  rw [hformat] at hsplit
  unfold attachedToLong
  cases hvalue : option.dropWhile (· != '=') with
  | nil =>
    rw [hvalue, List.append_nil] at hsplit
    refine Or.inr (String.toList_inj.1 ?_)
    rw [hword, ← hsplit]
    rfl
  | cons c value =>
    have hequals : c = '=' := by
      have hhead := List.head?_dropWhile_not (· != '=') option
      rw [hvalue] at hhead
      simpa using hhead
    subst hequals
    rw [hvalue] at hsplit
    refine Or.inr (Or.inr (String.toList_inj.1 ?_))
    rw [hword, ← hsplit]
    simp

/-- A short format option has its value after its letter, or after the equals sign there. -/
theorem spells_format_of_short {word : String} {rest : List Char}
    (hword : word.toList = '-' :: 'f' :: rest) :
    Spells word (.format (attachedToShort rest)) := by
  unfold attachedToShort
  split
  · exact Or.inl (String.toList_inj.1 hword)
  · next value =>
    refine Or.inr (Or.inl (String.toList_inj.1 ?_))
    rw [hword]
    simp
  · next value _ _ =>
    refine Or.inl (String.toList_inj.1 ?_)
    rw [hword]
    simp

/-- Each word is spelled like what the reader takes it for. -/
theorem spells_ofString (word : String) : Spells word (ofString word) := by
  unfold ofString
  split
  · next hword => exact String.toList_inj.1 hword
  · next option _ hword => exact spells_ofLong (spells_format_of_long hword)
  · next letter rest _ _ hword =>
    apply spells_ofShort
    rintro rfl
    exact spells_format_of_short hword
  · next _ _ hshort =>
    by_cases hempty : word = ""
    · exact Or.inl hempty
    · refine Or.inr ⟨hempty, ?_⟩
      cases hword : word.toList with
      | nil => exact absurd (String.toList_inj.1 hword) hempty
      | cons c rest =>
        by_cases hc : c = '-'
        · subst hc
          cases rest with
          | nil => exact Or.inl (String.toList_inj.1 hword)
          | cons letter rest => exact absurd hword (hshort letter rest)
        · exact Or.inr (by simpa using hc)

theorem spells_of_ofString {word : String} {taken : Word} (h : ofString word = taken) :
    Spells word taken := h ▸ spells_ofString word

/-- Outputs are operands. -/
theorem ofString_of_isOutput {word : String} (h : IsOutput word) : ofString word = .operand := by
  rcases h.2 with rfl | hhead
  · rfl
  · unfold ofString
    split
    · next hword => rw [hword] at hhead; exact absurd rfl hhead
    · next hword => rw [hword] at hhead; exact absurd rfl hhead
    · next hword => rw [hword] at hhead; exact absurd rfl hhead
    · rfl

theorem ofString_format_name (format : Format) : ofString format.name = .operand := by
  cases format <;> rfl

end Word

/-- A format option is read as a word that awaits the format's name, and then that name, or as one
word to which the name is attached. -/
theorem isFormatOption_iff {format : Format} {option : List String} :
    IsFormatOption format option
      ↔ (∃ word, Word.ofString word = .format none ∧ option = [word, format.name])
        ∨ ∃ word, Word.ofString word = .format (some format.name) ∧ option = [word] := by
  constructor
  · intro h
    cases h with
    | short => exact Or.inl ⟨_, rfl, rfl⟩
    | shortAttached => exact Or.inr ⟨_, by cases format <;> rfl, rfl⟩
    | shortEquals => exact Or.inr ⟨_, by cases format <;> rfl, rfl⟩
    | long => exact Or.inl ⟨_, rfl, rfl⟩
    | longEquals => exact Or.inr ⟨_, by cases format <;> rfl, rfl⟩
  · rintro (⟨word, hword, rfl⟩ | ⟨word, hword, rfl⟩)
    · rcases Word.spells_of_ofString hword with rfl | rfl
      · exact .short
      · exact .long
    · rcases Word.spells_of_ofString hword with rfl | rfl | rfl
      · exact .shortAttached
      · exact .shortEquals
      · exact .longEquals

/-- A value is a format only by the format's own name. -/
theorem formatOfValue?_eq_some_iff {value : String} {format : Format} :
    formatOfValue? value = some format ↔ value = format.name := by
  constructor
  · intro h
    unfold formatOfValue? at h
    split at h <;> cases h <;> rfl
  · rintro rfl
    cases format <;> rfl

/-- A word is the command of a table only by the command's own name. -/
theorem Command.ofWord?_eq_table_iff {word : String} {kind : Kind} :
    ofWord? word = some (.table kind) ↔ word = kind.commandName := by
  constructor
  · intro h
    unfold ofWord? at h
    split at h <;> cases h <;> rfl
  · rintro rfl
    cases kind <;> rfl

theorem Word.ofString_of_ofWord? {word : String} {command : Command}
    (h : Command.ofWord? word = some command) : Word.ofString word = .operand := by
  unfold Command.ofWord? at h
  split at h
  · rfl
  · rfl
  · rfl
  · rfl
  · cases h

/-- No format option is a command. -/
theorem Command.ofWord?_eq_none {word : String} {attached : Option String}
    (h : Word.ofString word = .format attached) : ofWord? word = none := by
  cases hcommand : ofWord? word with
  | none => rfl
  | some command =>
    rw [Word.ofString_of_ofWord? hcommand] at h
    cases h

end CommandLine

end PixelTables

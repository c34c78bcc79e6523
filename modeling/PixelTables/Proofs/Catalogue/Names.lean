import Mathlib.Data.List.Forall2
import PixelTables.Catalogue.Kind

/-!
# The names of tables and formats

A table is found by its two names and by no other text. A format is found by its name and by what
differs from that only in the case of ASCII letters; letters of other alphabets that look alike are
other letters.

## Main Definitions

* `SameLetter`, `DifferOnlyInCase` — texts that are the same but for the case of ASCII letters
* `Kind.IsNamed`, `Format.IsNamed` — the texts that name a table and a format

## Main Statements

* `toLower_eq_toLower_iff` — the letters that have one small letter
* `equalIgnoringCase_iff` — the texts that are equal without regard to case
* `elim_find?_eq_ok_iff`, `elim_find?_eq_error_iff` — the one thing that a test admits
* `Kind.ofName_eq_ok_iff`, `Kind.ofName_eq_error_iff` — the table with a name
* `Format.ofName_eq_ok_iff`, `Format.ofName_eq_error_iff` — the format with a name
-/

namespace PixelTables

/-! ## The case of letters -/

/-- The characters are an ASCII letter as a capital and as a small letter. -/
def IsCapitalOf (capital small : Char) : Prop :=
  'A' ≤ capital ∧ capital ≤ 'Z' ∧ small.toNat = capital.toNat + 32

/-- The characters are equal, or they are one ASCII letter in its two cases. -/
def SameLetter (a b : Char) : Prop :=
  a = b ∨ IsCapitalOf a b ∨ IsCapitalOf b a

/-- The texts are the same but for the case of ASCII letters. -/
def DifferOnlyInCase (a b : String) : Prop :=
  List.Forall₂ SameLetter a.toList b.toList

/-- The capitals of ASCII by their codes. -/
theorem capital_iff {c : Char} : 'A' ≤ c ∧ c ≤ 'Z' ↔ 65 ≤ c.toNat ∧ c.toNat ≤ 90 := by
  rw [Char.le_def, Char.le_def, UInt32.le_iff_toNat_le, UInt32.le_iff_toNat_le]
  exact Iff.rfl

theorem isCapitalOf_iff {capital small : Char} :
    IsCapitalOf capital small
      ↔ 65 ≤ capital.toNat ∧ capital.toNat ≤ 90 ∧ small.toNat = capital.toNat + 32 := by
  rw [IsCapitalOf, ← and_assoc, capital_iff, and_assoc]

/-- The capitals are made small, and nothing else is changed. -/
theorem toNat_toLower (c : Char) :
    c.toLower.toNat = if 65 ≤ c.toNat ∧ c.toNat ≤ 90 then c.toNat + 32 else c.toNat := by
  by_cases h : 'A' ≤ c ∧ c ≤ 'Z'
  · have hlower : c.toLower.val = c.val + ('a'.val - 'A'.val) := congrArg Char.val (dif_pos h)
    have hdifference : ('a'.val - 'A'.val).toNat = 32 := rfl
    have hcode := capital_iff.1 h
    have hsize : c.toNat + 32 < 2 ^ 32 := by omega
    rw [if_pos hcode, ← Char.toNat_val, hlower, UInt32.toNat_add, hdifference, Char.toNat_val,
      Nat.mod_eq_of_lt hsize]
  · have hsame : c.toLower = c := dif_neg h
    rw [if_neg (mt capital_iff.2 h), hsame]

/-- Two characters have one small letter if they are the same letter. -/
theorem toLower_eq_toLower_iff {a b : Char} : a.toLower = b.toLower ↔ SameLetter a b := by
  rw [SameLetter, isCapitalOf_iff, isCapitalOf_iff, ← Char.toNat_inj, ← Char.toNat_inj,
    toNat_toLower, toNat_toLower]
  split <;> split <;> omega

/-- Texts are equal without regard to case if they differ in nothing but that of ASCII letters. -/
theorem equalIgnoringCase_iff {a b : String} :
    equalIgnoringCase a b = true ↔ DifferOnlyInCase a b := by
  rw [equalIgnoringCase, beq_iff_eq, ← List.forall₂_eq_eq_eq, List.forall₂_map_left_iff,
    List.forall₂_map_right_iff, DifferOnlyInCase]
  simp only [toLower_eq_toLower_iff]

/-! ## Names -/

section Find

variable {ε α : Type} {l : List α} {p : α → Bool} {reason : ε}

/-- In a list that holds everything, what a test admits is found if it admits nothing else. -/
theorem elim_find?_eq_ok_iff (hall : ∀ a, a ∈ l)
    (hunique : ∀ a b, p a = true → p b = true → a = b) {a : α} :
    (l.find? p).elim (.error reason) .ok = (.ok a : Except ε α) ↔ p a = true := by
  cases hfind : l.find? p with
  | some found =>
    have hfound := List.find?_some hfind
    rw [Option.elim_some, Except.ok.injEq]
    constructor
    · rintro rfl
      exact hfound
    · intro ha
      exact hunique found a hfound ha
  | none =>
    have ha := List.find?_eq_none.1 hfind a (hall a)
    exact ⟨nofun, fun h => absurd h ha⟩

/-- In a list that holds everything, nothing is found if a test admits nothing. -/
theorem elim_find?_eq_error_iff (hall : ∀ a, a ∈ l) {error : ε} :
    (l.find? p).elim (.error reason) .ok = (.error error : Except ε α)
      ↔ error = reason ∧ ∀ a, ¬ p a = true := by
  cases hfind : l.find? p with
  | some found =>
    have hfound := List.find?_some hfind
    exact ⟨nofun, fun h => absurd hfound (h.2 found)⟩
  | none =>
    have hnone : ∀ a, ¬ p a = true := fun a => List.find?_eq_none.1 hfind a (hall a)
    rw [Option.elim_none, Except.error.injEq]
    exact ⟨fun h => ⟨h.symm, hnone⟩, fun h => h.1.symm⟩

end Find

namespace Kind

/-- The text is one of the two names of the table. -/
def IsNamed (kind : Kind) (name : String) : Prop :=
  name = kind.commandName ∨ name = kind.constName

instance (kind : Kind) (name : String) : Decidable (kind.IsNamed name) :=
  inferInstanceAs (Decidable (_ ∨ _))

theorem mem_all (kind : Kind) : kind ∈ all := by
  cases kind <;> decide

/-- No text names two tables. -/
theorem eq_of_isNamed {name : String} {kind other : Kind} (h : kind.IsNamed name)
    (hother : other.IsNamed name) : kind = other := by
  rcases h with rfl | rfl <;> revert hother <;> cases kind <;> cases other <;> decide

/-- What the search for a name asks of a table. -/
theorem or_beq_iff_isNamed {name : String} {kind : Kind} :
    (kind.commandName == name || kind.constName == name) = true ↔ kind.IsNamed name := by
  rw [Bool.or_eq_true, beq_iff_eq, beq_iff_eq, IsNamed, eq_comm, eq_comm (b := name)]

theorem ofName_eq (name : String) :
    ofName name = (all.find? fun kind => kind.commandName == name || kind.constName == name).elim
      (.error (.unknownTable name)) .ok := by
  rw [ofName]
  split
  · next hfound => rw [hfound, Option.elim_some]
  · next hnone => rw [hnone, Option.elim_none]

/-- A table is found by its two names only. -/
theorem ofName_eq_ok_iff {name : String} {kind : Kind} :
    ofName name = .ok kind ↔ kind.IsNamed name := by
  rw [ofName_eq, elim_find?_eq_ok_iff mem_all, or_beq_iff_isNamed]
  intro a b ha hb
  exact eq_of_isNamed (or_beq_iff_isNamed.1 ha) (or_beq_iff_isNamed.1 hb)

/-- A text that names no table is told as it is. -/
theorem ofName_eq_error_iff {name : String} {error : Error} :
    ofName name = .error error
      ↔ error = .unknownTable name ∧ ∀ kind : Kind, ¬ kind.IsNamed name := by
  rw [ofName_eq, elim_find?_eq_error_iff mem_all]
  simp only [or_beq_iff_isNamed]

/-- A table is found by the name that it is mentioned by. -/
theorem ofName_commandName (kind : Kind) : ofName kind.commandName = .ok kind :=
  ofName_eq_ok_iff.2 (Or.inl rfl)

end Kind

namespace Format

/-- The text is the name of the format but for the case of ASCII letters. -/
def IsNamed (format : Format) (name : String) : Prop :=
  DifferOnlyInCase format.name name

theorem mem_all (format : Format) : format ∈ all := by
  cases format <;> decide

/-- No text names two formats. -/
theorem eq_of_isNamed {name : String} {format other : Format} (h : format.IsNamed name)
    (hother : other.IsNamed name) : format = other := by
  rw [IsNamed, ← equalIgnoringCase_iff, equalIgnoringCase, beq_iff_eq] at h hother
  have hnames := h.trans hother.symm
  revert hnames
  cases format <;> cases other <;> decide

theorem ofName_eq (name : String) :
    ofName name = (all.find? fun format => equalIgnoringCase format.name name).elim
      (.error (.unknownFormat name)) .ok := by
  rw [ofName]
  split
  · next hfound => rw [hfound, Option.elim_some]
  · next hnone => rw [hnone, Option.elim_none]

/-- A format is found by its name in any case of ASCII letters, and by nothing else. -/
theorem ofName_eq_ok_iff {name : String} {format : Format} :
    ofName name = .ok format ↔ format.IsNamed name := by
  rw [ofName_eq, elim_find?_eq_ok_iff mem_all, equalIgnoringCase_iff, IsNamed]
  intro a b ha hb
  exact eq_of_isNamed (equalIgnoringCase_iff.1 ha) (equalIgnoringCase_iff.1 hb)

/-- A text that names no format is told as it is. -/
theorem ofName_eq_error_iff {name : String} {error : Error} :
    ofName name = .error error
      ↔ error = .unknownFormat name ∧ ∀ format : Format, ¬ format.IsNamed name := by
  rw [ofName_eq, elim_find?_eq_error_iff mem_all]
  simp only [equalIgnoringCase_iff, IsNamed]

/-- A format is found by its name as it is written. -/
theorem ofName_name (format : Format) : ofName format.name = .ok format :=
  ofName_eq_ok_iff.2 (equalIgnoringCase_iff.1 (beq_self_eq_true _))

end Format

end PixelTables

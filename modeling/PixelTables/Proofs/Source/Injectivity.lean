import PixelTables.Proofs.Source.SelfDelimiting

/-!
# What the bytes of a table determine

A name can be any text, also one that looks like a table, and it is written four times into a
header. Still two tables are written as the same bytes only where their format does not tell them
apart, whatever their names are.

## Main Definitions

* `Entries.arrayText` — the lines of an array literal as a text
* `Format.firstChar` — what a text in a format begins with
* `Table.headerStart`, `Entries.headerTail` — a header up to the name that is declared, and from
  there to the closing guard

## Main Statements

* `Table.name_eq_of_header`, `Table.name_eq_of_rust` — equal declarations have equal names
* `Table.emit_bytes_eq_iff` — tables with equal bytes, exactly

## Design Notes

In a Rust item the colon that ends the name is the last one. A header has no such mark. There the
closing guard of the text with the longer name would begin earlier than that of the other one by
the difference of the two names; and since the name is written three times before it, the array of
the other text would be long enough to hold the place, but no array holds the sign of a guard.
-/

namespace PixelTables

/-! ## The texts of tables with any name -/

theorem mem_joinLines {lines : List String} {c : Char} (h : c ∈ (joinLines lines).toList) :
    c = '\n' ∨ ∃ line ∈ lines, c ∈ line.toList := by
  induction lines with
  | nil => simp at h
  | cons line lines ih =>
    rw [joinLines_cons, String.toList_append, String.toList_append, List.mem_append,
      List.mem_append] at h
    rcases h with (h | h) | h
    · exact Or.inr ⟨line, List.mem_cons_self, h⟩
    · exact Or.inl (by simpa using h)
    · rcases ih h with rfl | ⟨other, hother, hc⟩
      · exact Or.inl rfl
      · exact Or.inr ⟨other, List.mem_cons_of_mem _ hother, hc⟩

namespace Entries

/-- The lines of an array literal, its opening left out, as a text. -/
def arrayText (entries : Entries) (format : Format) : String :=
  joinLines (firstLine format.finish (entries.literals format)
    :: otherLines format.finish (entries.literals format))

theorem not_mem_arrayText {c : Char} (hc : isArrayChar c = false) (hend : c ≠ '\n')
    (entries : Entries) (format : Format) : c ∉ (entries.arrayText format).toList := by
  intro h
  rcases mem_joinLines h with rfl | ⟨line, hline, hmem⟩
  · exact hend rfl
  · have hchar := isArrayChar_of_mem_line hline hmem
    rw [hc] at hchar
    cases hchar

/-- The element type in the declaration of a header, up to the name. -/
def headerType : Entries → String
  | words _ => "uint16_t "
  | rows _ => "uint8_t "

/-- What stands in a header from after the name that is declared to before the closing guard. -/
def headerTail (entries : Entries) : String :=
  "[" ++ Nat.repr entries.length
    ++ (match entries with
      | words _ => "] = "
      | rows _ => "][8] = ")
    ++ Format.header.opening ++ entries.arrayText .header ++ "\n"

theorem hash_not_mem_headerTail (entries : Entries) : '#' ∉ entries.headerTail.toList := by
  have hdigits : '#' ∉ Nat.toDigits 10 entries.length := by
    rw [← Nat.toList_repr]
    exact Reader.not_mem_repr rfl _
  have harray := not_mem_arrayText (c := '#') rfl (by decide) entries .header
  cases entries <;> dsimp only [headerTail] <;> simp [hdigits, harray, Format.opening]

end Entries

namespace Format

/-- The first character of a text in the format. -/
def firstChar : Format → Char
  | array => '\x7b'
  | header => '#'
  | rust => 'p'

theorem firstChar_injective : Function.Injective firstChar := by
  intro f g h
  cases f <;> cases g
  case array.array | header.header | rust.rust => rfl
  all_goals exact absurd h (by decide)

end Format

namespace Table

theorem joinLines_arrayLines (table : Table) (format : Format) :
    joinLines (table.arrayLines format)
      = table.entries.declaration table.name format ++ format.opening
        ++ table.entries.arrayText format := by
  rw [arrayLines, literalLines_eq, Entries.arrayText, joinLines_cons, joinLines_cons]
  simp only [String.append_assoc]

/-- The text of a header up to the name that is declared. -/
def headerStart (table : Table) : List Char :=
  "#ifndef ".toList ++ (table.name.toList ++ ("_H\n#define ".toList ++ (table.name.toList
    ++ ("_H\n\n#include <cstdint>\n\nstatic constexpr ".toList
      ++ (table.entries.headerType.toList ++ table.name.toList)))))

theorem toList_text_header (table : Table) :
    (table.text .header).toList
      = (table.headerStart ++ table.entries.headerTail.toList)
        ++ ("#endif // ".toList ++ (table.name.toList ++ "_H\n".toList)) := by
  obtain ⟨name, entries⟩ := table
  rw [text_eq_joinLines, joinLines_arrayLines]
  cases entries <;>
    dsimp only [headerStart, Entries.declaration, Entries.headerType, Entries.headerTail] <;>
    simp [linesBefore, linesAfter, Entries.length]

/-- The name is written three times before the array. -/
theorem length_headerStart (table : Table) :
    68 + 3 * table.name.toList.length ≤ table.headerStart.length
      ∧ table.headerStart.length ≤ 69 + 3 * table.name.toList.length := by
  obtain ⟨name, entries⟩ := table
  cases entries <;> dsimp only [headerStart, Entries.headerType] <;> simp <;> omega

/-- In the text of a Rust item no colon follows the one that ends the name. -/
theorem exists_toList_text_rust (entries : Entries) :
    ∃ tail, ':' ∉ tail ∧ ∀ name, (Table.text ⟨name, entries⟩ .rust).toList
      = "pub static ".toList ++ (name.toList ++ ([':'] ++ tail)) := by
  obtain ⟨type, hdeclaration, hcolon, -⟩ := Reader.exists_itemType entries
  have harray := Entries.not_mem_arrayText (c := ':') rfl (by decide) entries .rust
  refine ⟨[' ', '['] ++ (type ++ (Format.rust.opening.toList
    ++ (entries.arrayText .rust).toList)), ?_, ?_⟩
  · simp only [List.mem_append, hcolon, harray]
    decide
  · intro name
    have hseparator : ": [".toList = [':'] ++ [' ', '['] := rfl
    rw [text_eq_joinLines, joinLines_arrayLines]
    simp only [linesBefore, linesAfter, joinLines_nil, String.empty_append, String.append_empty,
      String.toList_append, hdeclaration, hseparator, List.append_assoc]

/-- The text of a bare literal does not tell the name. -/
theorem text_array (table : Table) :
    table.text .array
      = joinLines (literalLines Format.array.opening Format.array.finish
        (table.entries.literals .array)) := by
  have hdeclaration : table.entries.declaration table.name .array = "" := rfl
  rw [text_eq_joinLines, arrayLines, hdeclaration, String.empty_append]
  simp [linesBefore, linesAfter]

/-- The first character of a text tells its format. -/
theorem head?_text (table : Table) (format : Format) :
    (table.text format).toList.head? = some format.firstChar := by
  cases format with
  | array =>
    rw [text_array, literalLines_eq, joinLines_cons]
    simp [Format.opening, Format.firstChar]
  | header =>
    rw [toList_text_header]
    rfl
  | rust =>
    obtain ⟨tail, -, htext⟩ := exists_toList_text_rust table.entries
    rw [htext table.name]
    rfl

theorem format_eq_of_text_eq {a b : Table} {f g : Format} (h : a.text f = b.text g) : f = g := by
  have hhead := head?_text a f
  rw [h, head?_text b g, Option.some_inj] at hhead
  exact (Format.firstChar_injective hhead).symm

/-! ## Names -/

/-- A name in a closing guard that is longer than another one ends where that one ends only if the
guard before it begins within what precedes the other guard. -/
theorem exists_append_of_guard_eq {start start' guard name name' ending : List Char}
    (h : start ++ (guard ++ (name ++ ending)) = start' ++ (guard ++ (name' ++ ending)))
    (hlt : name.length < name'.length) :
    ∃ more, start = start' ++ more
      ∧ guard ++ (name' ++ ending) = more ++ (guard ++ (name ++ ending))
      ∧ more.length = name'.length - name.length := by
  have hlength := congrArg List.length h
  simp only [List.length_append] at hlength
  rcases List.append_eq_append_iff.1 h with ⟨more, hstart, -⟩ | ⟨more, hstart, hguard⟩
  · rw [hstart, List.length_append] at hlength
    omega
  · refine ⟨more, hstart, hguard, ?_⟩
    rw [hstart, List.length_append] at hlength
    omega

/-- A header with a longer name has another text. -/
theorem not_length_lt_of_header {a b : Table} (h : a.text .header = b.text .header) :
    ¬ a.name.toList.length < b.name.toList.length := by
  intro hlt
  have htext : (a.text .header).toList = (b.text .header).toList := by rw [h]
  rw [toList_text_header, toList_text_header] at htext
  obtain ⟨more, hstart, hguard, hmore⟩ := exists_append_of_guard_eq htext hlt
  -- The name stands three times before the array of `b`, so `more` is no longer than the array
  -- of `a` and lies inside it.
  have hlength : more.length ≤ a.entries.headerTail.toList.length := by
    have ha := length_headerStart a
    have hb := length_headerStart b
    have hboth := congrArg List.length hstart
    simp only [List.length_append] at hboth
    omega
  have hsuffix : more <:+ a.entries.headerTail.toList :=
    List.suffix_of_suffix_length_le ⟨_, hstart.symm⟩ (List.suffix_append _ _) hlength
  cases more with
  | nil =>
    simp only [List.length_nil] at hmore
    omega
  | cons c more =>
    -- `more` begins like the guard, with a sign that no array has.
    have hc : '#' = c := by
      have hhead := congrArg List.head? hguard
      simpa using hhead
    exact Entries.hash_not_mem_headerTail a.entries
      (hsuffix.subset (hc ▸ List.mem_cons_self))

theorem headerType_append_inj {a b : Entries} {rest rest' : List Char}
    (h : a.headerType.toList ++ rest = b.headerType.toList ++ rest') :
    a.headerType = b.headerType ∧ rest = rest' := by
  cases a with
  | words _ =>
    cases b with
    | words _ => exact ⟨rfl, List.append_cancel_left h⟩
    | rows _ => simp [Entries.headerType] at h
  | rows _ =>
    cases b with
    | words _ => simp [Entries.headerType] at h
    | rows _ => exact ⟨rfl, List.append_cancel_left h⟩

theorem hasPlainName_empty (entries : Entries) : HasPlainName ⟨"", entries⟩ := by
  rw [HasPlainName, String.toList_empty]
  exact List.not_mem_nil

/-- Headers with equal texts declare the same name, and the same entries. -/
theorem name_eq_of_header {a b : Table} (h : a.text .header = b.text .header) :
    a.name = b.name ∧ a.entries = b.entries := by
  have hlength : a.name.toList.length = b.name.toList.length := by
    have hab := not_length_lt_of_header h
    have hba := not_length_lt_of_header h.symm
    omega
  have htext : (a.text .header).toList = (b.text .header).toList := by rw [h]
  rw [toList_text_header, toList_text_header] at htext
  unfold headerStart at htext
  simp only [List.append_assoc] at htext
  obtain ⟨hname, hrest⟩ := List.append_inj (List.append_cancel_left htext) hlength
  rw [hname] at hrest
  have hdeclared := List.append_cancel_left
    (List.append_cancel_left (List.append_cancel_left hrest))
  obtain ⟨htype, hafter⟩ := headerType_append_inj hdeclared
  have htail := List.append_cancel_right (List.append_cancel_left hafter)
  -- Without their names the two are still equal, and a header without a name is on plain lines.
  have hnameless : text ⟨"", a.entries⟩ .header = text ⟨"", b.entries⟩ .header := by
    rw [← String.toList_inj, toList_text_header, toList_text_header]
    unfold headerStart
    rw [htype, htail]
  have hreading := reading_eq_of_text_eq (hasPlainName_empty _) (hasPlainName_empty _) hnameless
  exact ⟨String.toList_inj.1 hname, (reading_eq_iff.1 hreading).2.1⟩

/-- Rust items with equal texts declare the same name, and the same entries. -/
theorem name_eq_of_rust {a b : Table} (h : a.text .rust = b.text .rust) :
    a.name = b.name ∧ a.entries = b.entries := by
  obtain ⟨tail, htail, htext⟩ := exists_toList_text_rust a.entries
  obtain ⟨tail', htail', htext'⟩ := exists_toList_text_rust b.entries
  have hboth : (a.text .rust).toList = (b.text .rust).toList := by rw [h]
  rw [htext a.name, htext' b.name] at hboth
  have hcut := congrArg (Reader.cutLast? [':']) (List.append_cancel_left hboth)
  rw [Reader.cutLast?_append _ List.not_mem_nil htail,
    Reader.cutLast?_append _ List.not_mem_nil htail', Option.some_inj, Prod.mk.injEq] at hcut
  obtain ⟨hname, hafter⟩ := hcut
  -- The colon that ends the name is the last one, so both names end there.
  have hnameless : text ⟨"", a.entries⟩ .rust = text ⟨"", b.entries⟩ .rust := by
    rw [← String.toList_inj, htext, htext', hafter]
  have hreading := reading_eq_of_text_eq (hasPlainName_empty _) (hasPlainName_empty _) hnameless
  exact ⟨String.toList_inj.1 hname, (reading_eq_iff.1 hreading).2.1⟩

theorem tellsSame_of_array {a b : Table} (h : a.text .array = b.text .array) :
    TellsSame .array a b := by
  have hnameless : text ⟨"", a.entries⟩ .array = text ⟨"", b.entries⟩ .array := by
    rw [text_array, text_array]
    rw [text_array, text_array] at h
    exact h
  have hreading := reading_eq_of_text_eq (hasPlainName_empty _) (hasPlainName_empty _) hnameless
  exact (reading_eq_iff.1 hreading).2

theorem text_eq_of_tellsSame {a b : Table} {format : Format} (h : TellsSame format a b) :
    a.text format = b.text format := by
  obtain ⟨name, entries⟩ := a
  obtain ⟨name', entries'⟩ := b
  cases format with
  | array =>
    rw [text_array, text_array]
    rcases h with heq | ⟨hnone, hnone'⟩
    · simp only at heq
      rw [heq]
    · simp only at hnone hnone'
      rw [Reader.literals_of_length_eq_zero _ hnone,
        Reader.literals_of_length_eq_zero _ hnone']
  | header | rust =>
    obtain ⟨hentries, hname⟩ := h
    simp only at hentries hname
    rw [hentries, hname]

/-- Two tables are written as the same bytes exactly where their formats are the same and do not
tell the tables apart, whatever characters their names have. -/
theorem emit_bytes_eq_iff (a b : Table) (f g : Format) :
    (a.emit f).bytes = (b.emit g).bytes ↔ f = g ∧ TellsSame f a b := by
  rw [emit_bytes, emit_bytes]
  constructor
  · intro h
    have htext : a.text f = b.text g := by
      rw [← Utf8.decodeLossy_toUTF8 (a.text f), h, Utf8.decodeLossy_toUTF8]
    obtain rfl := format_eq_of_text_eq htext
    refine ⟨rfl, ?_⟩
    cases f with
    | array => exact tellsSame_of_array htext
    | header => exact (name_eq_of_header htext).symm
    | rust => exact (name_eq_of_rust htext).symm
  · rintro ⟨rfl, h⟩
    rw [text_eq_of_tellsSame h]

end Table

end PixelTables

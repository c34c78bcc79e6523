import PixelTables.Source.Reader

/-!
# Reading array literals

The reader finds the numbers, the rows and the lines of an array at the front of any text that
does not go on with another digit.

## Main Definitions

* `Reader.StopsNumber` — a number ends before the text
* `Reader.Reads` — a reader of one item reads the literal of each value
* `firstLine`, `otherLines` — the lines of an array literal, the opening left out

## Main Statements

* `Reader.readNumber_repr` — a number is read up to where its digits end
* `Reader.readItems_followingLines` — the entries of an array are read line by line
* `Reader.readDeclared_lines` — an array with a declared number of entries is read
-/

namespace PixelTables

namespace Reader

/-! ## Beginnings, ends and separators -/

@[simp] theorem dropStart?_append (start line : Line) :
    dropStart? start (start ++ line) = some line := by
  induction start with
  | nil => rfl
  | cons c start ih => simpa [dropStart?] using ih

@[simp] theorem dropEnd?_append (ending line : Line) :
    dropEnd? ending (line ++ ending) = some line := by
  rw [dropEnd?, List.reverse_append, dropStart?_append, Option.map_some, List.reverse_reverse]

theorem cutLast?_eq_none {c : Char} {separator line : Line} (h : c ∉ line) :
    cutLast? (c :: separator) line = none := by
  induction line with
  | nil => rfl
  | cons d line ih =>
    simp only [List.mem_cons, not_or] at h
    simp [cutLast?, ih h.2, dropStart?, h.1]

/-- A separator is found where its first character occurs last. -/
theorem cutLast?_append {c : Char} {separator after : Line} (before : Line)
    (hseparator : c ∉ separator) (hafter : c ∉ after) :
    cutLast? (c :: separator) (before ++ (c :: separator ++ after)) = some (before, after) := by
  induction before with
  | nil =>
    have hnone : cutLast? (c :: separator) (separator ++ after) = none :=
      cutLast?_eq_none (by simp [hseparator, hafter])
    rw [List.nil_append, List.cons_append, cutLast?, hnone, ← List.cons_append,
      dropStart?_append]
    rfl
  | cons d before ih => rw [List.cons_append, cutLast?, ih]

/-! ## Numbers -/

/-- A number ends before the text: it does not go on with a digit. -/
def StopsNumber (rest : Line) : Prop :=
  ∀ c ∈ rest.head?, c.isDigit = false

theorem stopsNumber_cons {c : Char} {rest : Line} (h : c.isDigit = false) :
    StopsNumber (c :: rest) := by
  intro d hd
  simp only [List.head?_cons, Option.mem_some_iff] at hd
  rw [← hd, h]

theorem takeWhile_digits {rest : Line} (h : StopsNumber rest) :
    rest.takeWhile Char.isDigit = [] ∧ rest.dropWhile Char.isDigit = rest := by
  cases rest with
  | nil => exact ⟨rfl, rfl⟩
  | cons c rest =>
    have hc : c.isDigit = false := h c rfl
    exact ⟨List.takeWhile_cons_of_neg (by simp [hc]), List.dropWhile_cons_of_neg (by simp [hc])⟩

/-- A number is read up to where its digits end. -/
theorem readNumber_repr (n : Nat) {rest : Line} (h : StopsNumber rest) :
    readNumber ((Nat.repr n).toList ++ rest) = some (n, rest) := by
  have hdigits : ∀ c ∈ Nat.toDigits 10 n, c.isDigit := fun c hc =>
    Nat.isDigit_of_mem_toDigits (by decide) (by decide) hc
  obtain ⟨htake, hdrop⟩ := takeWhile_digits h
  rw [readNumber, Nat.toList_repr, List.takeWhile_append_of_pos hdigits,
    List.dropWhile_append_of_pos hdigits, htake, hdrop, List.append_nil]
  simp only [Nat.toDigits_ne_nil, if_false, Nat.ofDigitChars_ten_toDigits]

theorem readWord_repr (word : UInt16) {rest : Line} (h : StopsNumber rest) :
    readWord ((Nat.repr word.toNat).toList ++ rest) = some (word, rest) := by
  simp only [readWord, readNumber_repr word.toNat h, if_pos (UInt16.toNat_lt word),
    UInt16.ofNat_toNat]

theorem readByte_repr (byte : UInt8) {rest : Line} (h : StopsNumber rest) :
    readByte ((Nat.repr byte.toNat).toList ++ rest) = some (byte, rest) := by
  simp only [readByte, readNumber_repr byte.toNat h, if_pos (UInt8.toNat_lt byte),
    UInt8.ofNat_toNat]

theorem not_mem_repr {c : Char} (h : c.isDigit = false) (n : Nat) : c ∉ (Nat.repr n).toList := by
  intro hmem
  rw [Nat.toList_repr] at hmem
  have hdigit := Nat.isDigit_of_mem_toDigits (by decide) (by decide) hmem
  rw [h] at hdigit
  cases hdigit

theorem exists_digit_cons_repr (n : Nat) :
    ∃ digit digits, (Nat.repr n).toList = digit :: digits ∧ digit.isDigit := by
  rw [Nat.toList_repr]
  obtain ⟨digit, digits, h⟩ := List.exists_cons_of_ne_nil (Nat.toDigits_ne_nil (n := n) (b := 10))
  refine ⟨digit, digits, h, Nat.isDigit_of_mem_toDigits (b := 10) (n := n) ?_ ?_ ?_⟩
  · decide
  · decide
  · simp [h]

/-! ## Rows -/

/-- Decimals, each after a comma. -/
def followingDecimals (bytes : List UInt8) : Line :=
  bytes.flatMap fun byte => ',' :: (Nat.repr byte.toNat).toList

theorem stopsNumber_followingDecimals {rest : Line} (bytes : List UInt8) (h : StopsNumber rest) :
    StopsNumber (followingDecimals bytes ++ rest) := by
  cases bytes with
  | nil => exact h
  | cons byte bytes => exact stopsNumber_cons (by decide)

theorem readFollowingBytes_decimals (bytes : List UInt8) {rest : Line} (h : StopsNumber rest) :
    readFollowingBytes bytes.length (followingDecimals bytes ++ rest) = some (bytes, rest) := by
  induction bytes with
  | nil => rfl
  | cons byte bytes ih =>
    have hcons : followingDecimals (byte :: bytes) ++ rest
        = [','] ++ ((Nat.repr byte.toNat).toList ++ (followingDecimals bytes ++ rest)) := by
      simp [followingDecimals]
    rw [hcons, List.length_cons, readFollowingBytes, dropStart?_append, Option.bind_eq_bind,
      Option.bind_some, readByte_repr byte (stopsNumber_followingDecimals bytes h)]
    simp only [Option.bind_eq_bind, Option.bind_some, ih, pure]

theorem toList_intercalate_comma (first : UInt8) (bytes : List UInt8) :
    (String.intercalate "," ((first :: bytes).map fun byte => Nat.repr byte.toNat)).toList
      = (Nat.repr first.toNat).toList ++ followingDecimals bytes := by
  induction bytes generalizing first with
  | nil => simp [followingDecimals]
  | cons byte bytes ih =>
    have hcomma : ",".toList = [','] := rfl
    have hih := ih byte
    rw [List.map_cons] at hih
    rw [List.map_cons, List.map_cons, String.intercalate_cons_cons, String.toList_append,
      String.toList_append, hih, hcomma]
    simp [followingDecimals]

/-- The literal of a row in a format. -/
def rowLiteral (format : Format) (row : TileRow) : String :=
  format.opening ++ rowNumbers row ++ format.closing

theorem stopsNumber_closing (format : Format) (rest : Line) :
    StopsNumber (format.closing.toList ++ rest) := by
  cases format <;> exact stopsNumber_cons (by decide)

theorem readRow_literal (format : Format) (row : TileRow) (rest : Line) :
    readRow format ((rowLiteral format row).toList ++ rest) = some (row, rest) := by
  obtain ⟨⟨pixels⟩, hsize⟩ := row
  match pixels, hsize with
  | first :: bytes, hsize =>
    have hlength : bytes.length = TileRow.width - 1 := Nat.succ.inj hsize
    have hstop := stopsNumber_closing format rest
    have hliteral : (rowLiteral format ⟨⟨first :: bytes⟩, hsize⟩).toList ++ rest
        = format.opening.toList ++ ((Nat.repr first.toNat).toList
          ++ (followingDecimals bytes ++ (format.closing.toList ++ rest))) := by
      have hnumbers := toList_intercalate_comma first bytes
      rw [rowLiteral, rowNumbers, Vector.toList_mk, String.toList_append, String.toList_append,
        hnumbers]
      simp only [List.append_assoc]
    rw [hliteral, readRow, dropStart?_append]
    simp only [Option.bind_eq_bind, Option.bind_some,
      readByte_repr first (stopsNumber_followingDecimals bytes hstop), ← hlength,
      readFollowingBytes_decimals bytes hstop, dropStart?_append]
    rw [dif_pos hsize]
    rfl

/-! ## Arrays -/

/-- A reader of one item reads the literal of each value, unless a digit follows it. -/
def Reads {α : Type} (item : Line → Option (α × Line)) (literal : α → String) : Prop :=
  ∀ (x : α) {rest : Line}, StopsNumber rest → item ((literal x).toList ++ rest) = some (x, rest)

theorem reads_readWord : Reads readWord fun word => Nat.repr word.toNat :=
  fun word _ h => readWord_repr word h

theorem reads_readRow (format : Format) : Reads (readRow format) (rowLiteral format) :=
  fun row rest _ => readRow_literal format row rest

/-- What finishes an array is no item, no comma and no digit. -/
structure Finishes {α : Type} (item : Line → Option (α × Line)) (finish : String) : Prop where
  /-- A number ends before it. -/
  stopsNumber : StopsNumber finish.toList
  /-- It is not what follows an item that is not the last. -/
  ne_comma : finish.toList ≠ [',']
  /-- It does not begin with an item. -/
  item_eq_none : item finish.toList = none

theorem finishes_readWord (format : Format) : Finishes readWord format.finish := by
  cases format <;> exact ⟨stopsNumber_cons (by decide), by decide, by decide⟩

theorem finishes_readRow (format : Format) : Finishes (readRow format) format.finish := by
  cases format <;> exact ⟨stopsNumber_cons (by decide), by decide, by decide⟩

section

variable {α : Type} {item : Line → Option (α × Line)} {literal : α → String} {finish : String}

/-- The entries of an array are read line by line, up to the line that finishes it. -/
theorem readItems_followingLines (hitem : Reads item literal) (hfinish : Finishes item finish)
    (sofar : List α) (x : α) (xs : List α) (rest : List Line) :
    readItems item finish.toList sofar
        ((followingLines finish ((x :: xs).map literal)).map String.toList ++ rest)
      = some (sofar.reverse ++ x :: xs, rest) := by
  induction xs generalizing sofar x with
  | nil =>
    simp only [List.map_cons, List.map_nil, followingLines, String.toList_append,
      List.cons_append, List.nil_append, readItems, hitem x hfinish.stopsNumber,
      if_neg hfinish.ne_comma, if_true, List.reverse_cons]
  | cons y ys ih =>
    have hcomma : StopsNumber ",".toList := stopsNumber_cons (by decide)
    have hlines : followingLines finish ((x :: y :: ys).map literal)
        = (literal x ++ ",") :: followingLines finish ((y :: ys).map literal) := rfl
    rw [hlines, List.map_cons, List.cons_append, readItems, String.toList_append,
      hitem x hcomma]
    simp only [String.reduceToList, if_true]
    rw [ih (x :: sofar) y]
    simp

end

end Reader

/-- The first line of an array literal, its opening left out. -/
def firstLine (finish : String) : List String → String
  | [] => finish
  | [literal] => literal ++ finish
  | literal :: _ :: _ => literal ++ ","

/-- The other lines of an array literal. -/
def otherLines (finish : String) : List String → List String
  | [] => []
  | _ :: literals => followingLines finish literals

theorem followingLines_cons (finish literal : String) (literals : List String) :
    followingLines finish (literal :: literals) =
      firstLine finish (literal :: literals) :: otherLines finish (literal :: literals) := by
  cases literals <;> rfl

theorem literalLines_eq (start finish : String) (literals : List String) :
    literalLines start finish literals =
      (start ++ firstLine finish literals) :: otherLines finish literals := by
  match literals with
  | [] => rfl
  | [literal] =>
    simp [literalLines, followingLines, firstLine, otherLines, String.append_assoc]
  | literal :: next :: literals =>
    simp [literalLines, followingLines, firstLine, otherLines, String.append_assoc]

namespace Reader

section

variable {α : Type} {item : Line → Option (α × Line)} {literal : α → String} {finish : String}

/-- An array with entries does not look like an empty one. -/
theorem firstLine_ne_finish (hitem : Reads item literal) (hfinish : Finishes item finish) (x : α)
    (xs : List α) : (firstLine finish ((x :: xs).map literal)).toList ≠ finish.toList := by
  intro heq
  have hitems := readItems_followingLines hitem hfinish [] x xs []
  rw [List.map_cons, followingLines_cons, ← List.map_cons, List.map_cons, List.cons_append, heq,
    readItems, hfinish.item_eq_none] at hitems
  cases hitems

/-- The entries of an array are read from its lines, the opening left out. -/
theorem readArray_lines (hitem : Reads item literal) (hfinish : Finishes item finish)
    (xs : List α) (rest : List Line) :
    readArray item finish.toList (firstLine finish (xs.map literal)).toList
        ((otherLines finish (xs.map literal)).map String.toList ++ rest)
      = some (xs, rest) := by
  cases xs with
  | nil => simp [readArray, firstLine, otherLines]
  | cons x xs =>
    have hitems := readItems_followingLines hitem hfinish [] x xs rest
    rw [List.map_cons, followingLines_cons, ← List.map_cons, List.map_cons,
      List.cons_append] at hitems
    rw [readArray, if_neg (firstLine_ne_finish hitem hfinish x xs), hitems]
    rfl

end

/-- Whether entries are rows. -/
def areRows : Entries → Bool
  | .words _ => false
  | .rows _ => true

theorem readEntries_lines (format : Format) (entries : Entries) (rest : List Line) :
    readEntries format (areRows entries)
        (firstLine format.finish (entries.literals format)).toList
        ((otherLines format.finish (entries.literals format)).map String.toList ++ rest)
      = some (entries, rest) := by
  cases entries with
  | words values =>
    have h := readArray_lines reads_readWord (finishes_readWord format) values rest
    simp only [readEntries, areRows, Entries.literals, h]
    rfl
  | rows values =>
    have h := readArray_lines (reads_readRow format) (finishes_readRow format) values rest
    simp only [readEntries, areRows, if_true]
    exact congrArg (Option.map _) h

theorem readDeclared_lines (format : Format) (entries : Entries) (rest : List Line) :
    readDeclared format (areRows entries) entries.length
        (firstLine format.finish (entries.literals format)).toList
        ((otherLines format.finish (entries.literals format)).map String.toList ++ rest)
      = some (entries, rest) := by
  simp [readDeclared, readEntries_lines]

end Reader

end PixelTables

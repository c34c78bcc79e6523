import PixelTables.Text.Split

/-!
# Reports of failures

A failed process says in one line what failed and below it the chain of causes.

## Main Definitions

* `Report` — what failed and why
* `Report.text` — the report as it is written
-/

namespace PixelTables

/-- What failed and why. -/
structure Report where
  /-- What failed. -/
  headline : String
  /-- The causes, each one the cause of the one before. -/
  causes : List String
  deriving DecidableEq, Repr

namespace Report

/-- A text with something before its first line and something else before each other one. -/
def indent (first other text : String) : String :=
  match splitAtChar '\n' text.toList with
  | [] => first
  | line :: lines =>
    first ++ String.ofList line
      ++ String.join (lines.map fun line => "\n" ++ other ++ String.ofList line)

/-- A number at the right of five places. -/
def place (n : Nat) : String :=
  let digits := Nat.toDigits 10 n
  String.ofList (List.replicate (5 - digits.length) ' ' ++ digits)

/-- Causes with their numbers, from a number on. -/
def numbered (n : Nat) : List String → List String
  | [] => []
  | cause :: causes => indent (place n ++ ": ") "       " cause :: numbered (n + 1) causes

/-- The lines about the causes. A single cause has no number. -/
def causeTexts : List String → List String
  | [cause] => [indent "    " "    " cause]
  | causes => numbered 0 causes

/-- The report as it is written, without a line end after it. -/
def text (report : Report) : String :=
  "Error: " ++ report.headline ++
    match causeTexts report.causes with
    | [] => ""
    | texts => "\n\nCaused by:" ++ String.join (texts.map fun text => "\n" ++ text)

end Report

end PixelTables

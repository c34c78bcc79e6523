/-!
# How alike two texts are

Two texts are compared by the characters that they have in common at about the same place. Each
character of the first text is paired with the first equal character of the second that is near
its place and not paired yet. With `m` pairs, of which `t` are out of order, texts of `a` and `b`
characters are alike to the degree `(m / a + m / b + (m - t) / m) / 3`.

## Main Definitions

* `Similarity.pairUp` — the pairs
* `Similarity.isAlike` — whether the degree is seven tenths or more

## Design Notes

The degree is compared in whole numbers, with the denominators multiplied out.
-/

namespace PixelTables

namespace Similarity

/-- A text with a mark on each character that has been paired. -/
abbrev Marked := List (Char × Bool)

/-- Mark the first character that equals a given one and has no mark, among `count` characters
after the first `skip`. -/
def mark (c : Char) : (skip count : Nat) → Marked → Option Marked
  | _, _, [] => none
  | skip + 1, count, other :: others => (mark c skip count others).map (other :: ·)
  | 0, 0, _ :: _ => none
  | 0, count + 1, other :: others =>
    if other = (c, false) then some ((c, true) :: others)
    else (mark c 0 count others).map (other :: ·)

/-- Pair up the characters of a text from a place on. The answer is the characters that were
paired, and the other text with marks on their partners. -/
def pairUp (reach : Nat) (place : Nat) : List Char → Marked → List Char × Marked
  | [], marked => ([], marked)
  | c :: text, marked =>
    let low := place - reach
    match mark c low (place + reach + 1 - low) marked with
    | some marked =>
      let (paired, marked) := pairUp reach (place + 1) text marked
      (c :: paired, marked)
    | none => pairUp reach (place + 1) text marked

/-- How far apart the partners of a pair may be. -/
def reach (a b : List Char) : Nat := max a.length b.length / 2 - 1

/-- The characters of the first text that are paired, and their partners in the order of the
second. -/
def common (a b : List Char) : List Char × List Char :=
  let (paired, marked) := pairUp (reach a b) 0 a (b.map fun c => (c, false))
  (paired, (marked.filter Prod.snd).map Prod.fst)

/-- How many pairs are out of order: two of them for each two characters that changed places. -/
def outOfOrder (common : List Char × List Char) : Nat :=
  (List.zip common.1 common.2).countP (fun (c, d) => c != d) / 2

/-- Whether two texts are alike to the degree of seven tenths or more. -/
def isAlike (a b : List Char) : Bool :=
  let pairs := common a b
  let m := pairs.1.length
  let t := outOfOrder pairs
  if a.isEmpty && b.isEmpty then true
  else if m = 0 then false
  else
    21 * a.length * b.length * m ≤
      10 * (m * m * b.length + m * m * a.length + (m - t) * a.length * b.length)

end Similarity

end PixelTables

import Expectation.Text.Basic

/-!
# Edit distance

The least number of insertions, deletions and substitutions of one character that turn one text
into another. It is the last entry of a table with a row for each beginning of the longer text and
an entry in it for each beginning of the shorter one, of which one row is kept for the next.
-/

namespace Expectation.Text

/-- The entries of the row of `c` for the characters of `b`, behind an entry `left`; the row before
is given from the place of that entry on. -/
def entries (c : Char) : (left : Nat) → (previous : List Nat) → (b : Text) → List Nat
  | left, diagonal :: above :: previous, d :: ds =>
    let entry := min (min (above + 1) (left + 1)) (diagonal + if c = d then 0 else 1)
    entry :: entries c entry (above :: previous) ds
  | _, _, _ => []

/-- The row of a character at a place, which is counted from one, from the row before. Follows
`assertive.suggest:16–26`. -/
def nextRow (b : Text) (previous : List Nat) (place : Char × Nat) : List Nat :=
  place.2 :: entries place.1 place.2 previous b

/-- The last row of the table of `a` and `b`. -/
def lastRow (a b : Text) : List Nat :=
  (a.zipIdx 1).foldl (nextRow b) (List.range (b.length + 1))

/-- The least number of single-character edits that turn `a` into `b`. Follows
`levenshtein_distance`, `assertive.suggest:11–27`. -/
def editDistance (a b : Text) : Nat :=
  if a.length < b.length then (lastRow b a).getLastD 0 else (lastRow a b).getLastD 0

end Expectation.Text

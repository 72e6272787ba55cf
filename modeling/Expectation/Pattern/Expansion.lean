import Expectation.Table
import Expectation.Text.Blank
import Expectation.Pattern.Segment

/-!
# Expansion of patterns

A pattern stands for several names: every combination of taken and omitted flags with one
alternative of each choice. The leftmost segment varies slowest, a flag is taken before it is
omitted, and alternatives come as written. A flag is a word of its own: the edges of a flag are
marked while a name is put together, and then every stretch of spaces and tabs around marks
becomes one space and the ends are stripped. No name may be empty.
-/

namespace Expectation

/-- Which flags a name was expanded with. -/
abbrev Flags := Table Text Bool

/-- A name that a pattern declares, with the flags it was expanded with. Follows `ExpandedPattern`,
`assertive.patterns:29–33`. -/
structure Expansion where
  text : Text
  flags : Flags
  deriving Repr, DecidableEq

namespace Pattern

/-- Marks the edge of a flag while a name is put together. -/
def edge : Char := '\x00'

/-- Spaces and tabs around an edge collapse with it. -/
def isGap (c : Char) : Bool := c = ' ' || c = '\t' || c = edge

/-- Every longest run of spaces, tabs and edges that holds an edge becomes one space. Follows
`_BOUNDARY_RUN`, `assertive.patterns:25`. -/
def collapse : Text → Text
  | [] => []
  | c :: rest =>
    if isGap c then
      let gap := c :: rest.takeWhile isGap
      (if edge ∈ gap then [' '] else gap) ++ collapse (rest.dropWhile isGap)
    else c :: collapse rest
termination_by t => t.length
decreasing_by
  · have := (List.dropWhile_suffix isGap (l := rest)).length_le
    simp only [List.length_cons]
    omega
  · simp

/-- Record a flag in front of the flags of what follows; where it recurs, the later one holds. -/
def withFlag (name : Text) (taken : Bool) (later : Flags) : Flags :=
  (Table.empty.set name taken).setAll later.entries

/-- The texts that segments stand for, with the edges of flags still marked. Follows
`_permutations`, `assertive.patterns:98–115`. -/
def marked : List Segment → List Expansion
  | [] => [⟨[], .empty⟩]
  | .literal text :: rest => (marked rest).map fun e => ⟨text ++ e.text, e.flags⟩
  | .choice alternatives :: rest =>
    alternatives.flatMap fun text => (marked rest).map fun e => ⟨text ++ e.text, e.flags⟩
  | .flag name :: rest =>
    ((marked rest).map fun e => ⟨edge :: name ++ edge :: e.text, withFlag name true e.flags⟩) ++
      (marked rest).map fun e => ⟨edge :: e.text, withFlag name false e.flags⟩

/-- A marked text as the name it stands for. Follows `assertive.patterns:141–144`. -/
def finish (e : Expansion) : Expansion := ⟨(collapse e.text).strip, e.flags⟩

/-- The names that a pattern declares, or none if one of them would be empty. Follows
`expand_pattern`, `assertive.patterns:118–145`. -/
def expand? (pattern : Text) : Option (List Expansion) :=
  let expansions := (marked (segments pattern)).map finish
  if expansions.any (·.text.isEmpty) then none else some expansions

theorem expand?_eq_some_iff {pattern : Text} {expansions : List Expansion} :
    expand? pattern = some expansions ↔
      (marked (segments pattern)).map finish = expansions ∧ ∀ e ∈ expansions, e.text ≠ [] := by
  simp only [expand?]
  split
  · next h =>
    refine ⟨fun h' => absurd h' (by simp), fun ⟨heq, hne⟩ => ?_⟩
    obtain ⟨e, he, hempty⟩ := List.any_eq_true.1 h
    exact absurd (List.isEmpty_iff.1 hempty) (hne e (heq ▸ he))
  · next h =>
    rw [Option.some.injEq]
    refine ⟨fun heq => ⟨heq, fun e he hempty => h ?_⟩, fun h' => h'.1⟩
    exact List.any_eq_true.2 ⟨e, heq ▸ he, List.isEmpty_iff.2 hempty⟩

theorem expand?_eq_none_iff {pattern : Text} :
    expand? pattern = none ↔ ∃ e ∈ marked (segments pattern), (finish e).text = [] := by
  simp [expand?]

end Pattern

end Expectation

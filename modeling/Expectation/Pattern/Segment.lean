import Expectation.Pattern.Delimited

/-!
# Segments of a pattern

A pattern is cut from left to right into runs: `[…]`, `(…)` and what lies between. A run that
stands between brackets is a flag, one that stands between parentheses is a choice between the
texts that parentheses and bars separate in it, and any other run is literal.
-/

namespace Expectation

/-- A piece of a pattern. -/
inductive Segment where
  | literal (text : Text)
  | flag (name : Text)
  | choice (alternatives : List Text)
  deriving Repr, DecidableEq

namespace Pattern

/-- Read `[…]` or `(…)` from the front of a text: the run and what follows it. -/
def readRun? (t : Text) : Option (Text × Text) :=
  match Delimited.read? '[' ']' t with
  | some run => some ('[' :: run.inner ++ [']'], run.after)
  | none =>
    match Delimited.read? '(' ')' t with
    | some run => some ('(' :: run.inner ++ [')'], run.after)
    | none => none

theorem length_lt_of_readRun? {t run after : Text} (h : readRun? t = some (run, after)) :
    after.length < t.length := by
  unfold readRun? at h
  split at h
  · rename_i hrun
    cases h
    exact Delimited.length_after_lt hrun
  · split at h
    · rename_i hrun
      cases h
      exact Delimited.length_after_lt hrun
    · cases h

/-- The runs of a pattern: literal runs, possibly empty, and delimited ones in turn. Follows
`_tokenize`, `assertive.patterns:87–95`. -/
def runs : Text → List Text
  | [] => [[]]
  | c :: rest =>
    match _h : readRun? (c :: rest) with
    | some (run, after) => [] :: run :: runs after
    | none =>
      match runs rest with
      | [] => [[c]]
      | run :: others => (c :: run) :: others
termination_by t => t.length
decreasing_by
  · exact length_lt_of_readRun? _h
  · simp

/-- The parts of a run that parentheses and bars separate, without the empty ones. Follows
`assertive.patterns:113`. -/
def alternatives (run : Text) : List Text :=
  go [] run
where
  /-- Cut the rest of a run, of which `part` has been read since the last separator. -/
  go (part : Text) : Text → List Text
    | [] => keep part []
    | c :: rest => if c ∈ ['(', ')', '|'] then keep part (go [] rest) else go (part ++ [c]) rest
  /-- Put a part in front unless it is empty. -/
  keep (part : Text) (parts : List Text) : List Text :=
    if part = [] then parts else part :: parts

/-- What a run stands for. Follows `_is_flag` and `_is_alternation`, `assertive.patterns:79–84`. -/
def segmentOfRun (run : Text) : Segment :=
  if run.head? = some '[' ∧ run.getLast? = some ']' then .flag run.tail.dropLast
  else if run.head? = some '(' ∧ run.getLast? = some ')' then .choice (alternatives run)
  else .literal run

/-- The segments of a pattern, in order. -/
def segments (pattern : Text) : List Segment :=
  ((runs pattern).filter (· ≠ [])).map segmentOfRun

end Pattern

end Expectation

import Expectation.Text.EditDistance
import Expectation.Assertion.Registry

/-!
# Suggestions

For a name that is not registered the closest registered one is suggested. Each name on each type
is scored: the less edits lead to it from the name asked for, the better, and a type that identifies
the subject gives its names a bonus, one more than the identifying type before it. Types are
visited oldest first; the first of the best names is suggested.
-/

namespace Expectation

/-- A registered name and how well it fits. -/
structure Candidate where
  name : Text
  score : Int
  deriving Repr, DecidableEq

namespace Candidate

/-- The names of a type, scored. -/
def ofNames (asked : Text) (bonus : Nat) (names : List Text) : List Candidate :=
  names.map fun name => ⟨name, (bonus : Int) - Text.editDistance asked name⟩

/-- The candidates of types, oldest first, of which `identifying` came before. Follows
`assertive.suggest:42–48`. -/
def ofTypes (s : Store) (subject : Ref) (asked : Text) (assertions : AssertionRegistry) :
    (identifying : Nat) → List Classifier → Except Fault (List Candidate)
  | _, [] => .ok []
  | identifying, type :: types => do
    let identified ← type.identifies s subject
    let bonus := if identified then identifying else 0
    let next := if identified then identifying + 1 else identifying
    let others ← ofTypes s subject asked assertions next types
    pure (ofNames asked bonus (assertions.names type.name) ++ others)

/-- The better of two candidates, the first if they are equally good. Follows
`assertive.suggest:49–50`. -/
def better (best : Option Candidate) (candidate : Candidate) : Option Candidate :=
  match best with
  | none => some candidate
  | some best => if best.score < candidate.score then some candidate else some best

/-- The first of the best candidates. -/
def firstBest (candidates : List Candidate) : Option Candidate := candidates.foldl better none

end Candidate

/-- The registered name that was perhaps meant by a name, if any name is registered. Follows
`suggest_assertion`, `assertive.suggest:30–51`. -/
def suggest (s : Store) (subject : Ref) (asked : Text) (types : ClassifierRegistry)
    (assertions : AssertionRegistry) : Except Fault (Option Text) := do
  let candidates ← Candidate.ofTypes s subject asked assertions 0 types.newestFirst.reverse
  pure ((Candidate.firstBest candidates).map Candidate.name)

end Expectation

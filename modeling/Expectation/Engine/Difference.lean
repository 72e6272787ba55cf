import Expectation.Engine.Inspection

/-!
# Differences

The difference of two values is found by the newest type that identifies both. It may ask for the
differences of further values and for inspections without a limit of depth. There is no answer if
the questions nest deeper than containers do.
-/

namespace Expectation.Engine

variable (e : Engine) (s : Store)

/-- The difference of two values, nested at most so deep. -/
def diffWithin : (fuel : Nat) → (actual expected : Ref) → Traced (Option Document)
  | 0, _, _ => .fault .tooDeep
  | fuel + 1, actual, expected => do
    match ← Traced.ofExcept (e.classifiers.resolveCommon s actual expected) with
    | none => pure none
    | some type =>
      (type.behaviour.diff s actual expected e.newDocument).run (diffWithin fuel)
        fun value => e.inspect s value (some .unlimited)

/-- The difference of two values, if there is one to show. Follows `Expect.diff`,
`assertive.engine:291–302`. -/
def diff (actual expected : Ref) : Traced (Option Document) :=
  e.diffWithin s s.nesting actual expected

end Expectation.Engine

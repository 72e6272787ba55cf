import Expectation.Engine.Basic

/-!
# Structural equality

Two values are compared by the newest type that identifies both, which may ask for the comparison
of further values. Down to the greatest depth of the settings nothing is recorded. Below it, each
comparison records its first value, and one that comes to a recorded value is given up as circular;
what is recorded below one comparison at that depth is not seen by another.
-/

namespace Expectation.Engine

variable (e : Engine) (s : Store)

/-- Compare two values in one way or another: by their common type, whose questions are answered by
`answer`; values without a common type are not equal. Follows `assertive.engine:259–262`. -/
def compareStep {m : Type → Type} [Monad m] [MonadLiftT Traced m] (answer : Ref → Ref → m Bool)
    (a b : Ref) : m Bool := do
  match ← liftM (Traced.ofExcept (e.classifiers.resolveCommon s a b)) with
  | some type => (type.behaviour.equal s a b).run answer
  | none => pure false

/-- A value is recorded already; one that only passes by is met once. -/
def isRecorded (recorded : List Ref) (value : Ref) : Bool :=
  value ∈ recorded && !value.passesBy

/-- Compare two values past the greatest depth; the state holds the values recorded so far. Follows
`assertive.engine:253–262`. -/
def compareTracked : (fuel : Nat) → (a b : Ref) → StateT (List Ref) Traced Bool
  | 0, _, _ => liftM (Traced.fault .tooDeep : Traced Bool)
  | fuel + 1, a, b => do
    let recorded ← get
    if isRecorded recorded a then liftM (Traced.fault .circular : Traced Bool)
    else
      set (a :: recorded)
      e.compareStep s (compareTracked fuel) a b

/-- Compare two values with so many levels left before values are recorded. -/
def compare : (levels : Nat) → (a b : Ref) → Traced Bool
  | 0, a, b => (e.compareTracked s (s.bound + 1) a b).run' []
  | levels + 1, a, b => e.compareStep s (compare levels) a b

/-- Two values are equal. Follows `Expect.equal`, `assertive.engine:244–262`. -/
def equal (a b : Ref) : Traced Bool := e.compare s (e.settings.maxCompareDepth + 1) a b

end Expectation.Engine

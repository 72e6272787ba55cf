import Expectation.Engine.Basic

/-!
# Inspection

A value is written by the type it is of, which may ask for further values to be written with one
level less. Where no level is left, arrays and objects are cut off. A value that is being written
already is marked as circular; only the values being written around it count.
-/

namespace Expectation.Engine

variable (e : Engine) (s : Store)

/-- What stands for a value that is cut off. -/
def cutOff : Text := "..."

/-- What stands for a value that is being written already. -/
def circularMark : Text := "[Circular]"

/-- Write a value on a document: the document as it was written on, and the one handed back, if the
type of the value hands one back. Follows `print_output`, `assertive.engine:274–287`. -/
def printWithin : (fuel : Nat) → (around : List Ref) → (output : Document) → (value : Ref) →
    Depth → Traced (Document × Option Document)
  | 0, _, _, _, _ => .fault .tooDeep
  | fuel + 1, around, output, value, depth =>
    if depth.isZero && (s.node value).isNested then
      pure (output.text cutOff, some (output.text cutOff))
    else if value ∈ around then
      pure (output.text circularMark, some (output.text circularMark))
    else do
      let type ← Traced.ofExcept (e.classifiers.resolve s value)
      (type.behaviour.inspect s output value depth).run fun target part =>
        match depth.pred? with
        | some less => printWithin fuel (value :: around) target part less
        | none => .fault .unsupported

/-- The inspection of a value to a depth, that of the settings unless one is given; there is a
document if the type of the value hands one back. Follows `Expect.inspect`,
`assertive.engine:264–289`. -/
def inspect (value : Ref) (depth : Option Depth := none) : Traced (Option Document) := do
  let depth := depth.getD (.levels e.settings.inspectDepth)
  let (_, result) ← e.printWithin s (s.bound + 1) [] e.newDocument value depth
  pure result

end Expectation.Engine

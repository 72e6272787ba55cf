import Expectation.Number.Complex
import Expectation.Value.Printer

/-!
# Depth of an inspection

How many levels of a value are left to be shown. A depth is mostly a whole number or infinity;
any number will do, and a value that is no number fails where a level is to be taken off.
-/

namespace Expectation

/-- The levels left in an inspection. -/
inductive Depth where
  | levels (count : Int)
  | truth (value : Bool)
  | real (value : Binary64)
  | complex (re im : Binary64)
  | other (value : Ref)
  deriving Repr, DecidableEq

namespace Depth

/-- No limit. -/
def unlimited : Depth := real (.infinite false)

/-- No level is left. -/
def isZero : Depth → Bool
  | levels count => count = 0
  | truth value => !value
  | real value => value.isZero
  | complex re im => re.isZero && im.isZero
  | other _ => false

/-- One level less, if the depth is a number. -/
def pred? : Depth → Option Depth
  | levels count => some (levels (count - 1))
  | truth value => some (levels (if value then 0 else -1))
  | real value => some (real value.pred)
  | complex re im => some (complex re.pred im)
  | other _ => none

/-- The depth that a value stands for; the none value stands for none. -/
def ofValue (s : Store) (r : Ref) : Option Depth :=
  match s.node r with
  | .none => none
  | .integer value => some (levels value)
  | .bool value => some (truth value)
  | .float value => some (real value)
  | .complex re im => some (complex re im)
  | _ => some (other r)

/-- A depth as a value. -/
def place (s : Store) : Depth → Ref × Store
  | levels count => s.put (.integer count)
  | truth value => s.put (.bool value)
  | real value => s.put (.float value)
  | complex re im => s.put (.complex re im)
  | other value => (value, s)

/-- The text of a depth. -/
def text (s : Store) (depth : Depth) : Except Fault Text :=
  let (value, s) := depth.place s
  s.plain value

end Depth

end Expectation

import Expectation.Identifier
import Expectation.Text.Basic

/-!
# What tells types apart

A registered type can be handed around as a value. Two of them are one and the same if they have
one name, took each of their behaviours from the same function, and were derived from the same
base.
-/

namespace Expectation

/-- The function that a behaviour of a type is. -/
inductive Origin where
  | universal
  | given (serial : Nat)
  | handler (id : HandlerId)
  deriving Repr, DecidableEq

/-- The functions that the behaviours of a type are. -/
structure Origins where
  identify : Origin
  equal : Origin
  inspect : Origin
  diff : Origin
  deriving Repr, DecidableEq

/-- The functions of the universal type. -/
def Origins.universal : Origins := ⟨.universal, .universal, .universal, .universal⟩

/-- What tells a type from others. -/
inductive ClassifierMark where
  | universal
  | derived (name : Text) (origins : Origins) (base : ClassifierMark)
  deriving Repr, DecidableEq

namespace ClassifierMark

/-- The name of the universal type. -/
def universalName : Text := "any"

/-- The name of the type with a mark. -/
def name : ClassifierMark → Text
  | universal => universalName
  | derived name _ _ => name

end ClassifierMark

end Expectation

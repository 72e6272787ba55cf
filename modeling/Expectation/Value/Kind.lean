import Expectation.Value.Store

/-!
# Kinds of values

The kind of a value is what it is made of. The coarse kind tells which values a difference can be
asked for and which ones an inspection cuts off: texts, arrays and objects have one, while the
none value, truth values, numbers and bytes have none.
-/

namespace Expectation

/-- What sort of value a value is. -/
inductive Kind where
  | none
  | bool
  | integer
  | float
  | complex
  | text
  | bytes
  | list
  | tuple
  | dict
  | object
  | machinery
  deriving Repr, DecidableEq

/-- The sorts of values that a difference tells apart. -/
inductive CoarseKind where
  | text
  | array
  | object
  deriving Repr, DecidableEq

namespace Node

/-- The kind of a value. -/
def kind : Node → Kind
  | none => .none
  | bool _ => .bool
  | integer _ => .integer
  | float _ => .float
  | complex .. => .complex
  | text _ => .text
  | bytes _ => .bytes
  | list _ => .list
  | tuple _ => .tuple
  | dict _ => .dict
  | object _ => .object
  | document _ | difference _ | handler _ | function | classifier _ | mode _ | context _ =>
    .machinery

/-- The coarse kind of a value, if it has one. Follows `_coarse_kind`, `assertive.engine:31–38`. -/
def coarseKind? (n : Node) : Option CoarseKind :=
  match n.kind with
  | .text => some .text
  | .list | .tuple => some .array
  | .none | .bool | .integer | .float | .complex | .bytes => Option.none
  | .dict | .object | .machinery => some .object

/-- A value whose parts an inspection may cut off. -/
def isNested (n : Node) : Bool := n.coarseKind? = some .array || n.coarseKind? = some .object

/-- The truth value of a value: nothing, zero and what is empty are false. -/
def truth : Node → Bool
  | none => false
  | bool value => value
  | integer value => value ≠ 0
  | float value => !value.isZero
  | complex re im => !(re.isZero && im.isZero)
  | text value => !value.isEmpty
  | bytes value => !value.isEmpty
  | list items => !items.isEmpty
  | tuple items => !items.isEmpty
  | dict entries => !entries.isEmpty
  | object _ | document _ | difference _ | handler _ | function | classifier _ | mode _
  | context _ => true

end Node

namespace Store

/-- The coarse kind of the value of a reference, if it has one. -/
def coarseKind? (s : Store) (r : Ref) : Option CoarseKind := (s.node r).coarseKind?

/-- The truth value of the value of a reference. -/
def truth (s : Store) (r : Ref) : Bool := (s.node r).truth

/-- The text of a reference to a text. -/
def text? (s : Store) (r : Ref) : Option Text :=
  match s.node r with
  | .text value => some value
  | _ => none

/-- Two values can be told apart by a difference: both have the same coarse kind. Follows
`_is_diffable`, `assertive.engine:41–43`. -/
def diffable (s : Store) (a b : Ref) : Bool :=
  (s.coarseKind? a).isSome && s.coarseKind? a = s.coarseKind? b

end Store

end Expectation

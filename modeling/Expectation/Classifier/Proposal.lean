import Expectation.Settings
import Expectation.Classifier.Delegated
import Expectation.Classifier.Registry

/-!
# Proposals of types

A type is proposed by fields, each with a value that need not be fit for it. A proposal is checked
field by field; it becomes a definition only if all fields are accepted.
-/

namespace Expectation

/-- What is given for a behaviour. -/
inductive Supplied (α : Type) where
  | function (function : Sourced α)
  | handler (id : HandlerId) (run : Handler)
  | value (node : Node)

/-- The fields of a proposed type; `none` where a field is absent. Follows `TypeSpec`,
`assertive.types:100–123`. -/
structure Proposal where
  name : Option Node
  base : Option Node
  identify : Option (Supplied Identify)
  equal : Option (Supplied Equal)
  inspect : Option (Supplied Inspect)
  diff : Option (Supplied Differ)
  extras : List Text

namespace Proposal

/-- The proposal without fields. -/
def empty : Proposal := ⟨none, none, none, none, none, none, []⟩

/-- The proposal has no field. -/
def isEmpty (p : Proposal) : Bool :=
  p.name.isNone && p.base.isNone && p.identify.isNone && p.equal.isNone && p.inspect.isNone &&
    p.diff.isNone && p.extras.isEmpty

/-- The fields of two proposals; the second's hold where both have one. -/
def update (p q : Proposal) : Proposal where
  name := q.name.or p.name
  base := q.base.or p.base
  identify := q.identify.or p.identify
  equal := q.equal.or p.equal
  inspect := q.inspect.or p.inspect
  diff := q.diff.or p.diff
  extras := p.extras ++ q.extras.filter (· ∉ p.extras)

/-- The fields of a definition; a behaviour that it leaves out is given as the none value. -/
def ofDefinition (d : Definition) : Proposal where
  name := some (.text d.name)
  base := some (match d.base with | some name => .text name | none => .none)
  identify := some (match d.identify with | some f => .function f | none => .value .none)
  equal := some (match d.equal with | some f => .function f | none => .value .none)
  inspect := some (match d.inspect with | some f => .function f | none => .value .none)
  diff := some (match d.diff with | some f => .function f | none => .value .none)
  extras := []

/-- A field that asks for text: a text, or bytes that encode one. -/
def readText : Node → Except Flaw Text
  | .text value => .ok value
  | .bytes value =>
    match Settings.decodeBytes? value with
    | some text => .ok text
    | none => .error .unreadableText
  | _ => .error .notText

/-- The name of a type: a text that is not blank. Follows `TypeSpec._require_name`,
`assertive.types:123–128`. -/
def readName : Option Node → Except Flaw Text
  | none => .error .missing
  | some node => do
    let name ← readText node
    if name.strip = [] then throw .blank
    pure name

/-- The name of a base, if one is given. -/
def readBase : Option Node → Except Flaw (Option Text)
  | none | some .none => .ok none
  | some node => (readText node).map some

/-- A behaviour, if one is given; a handler may stand in for one. -/
def readBehaviour {α : Type} (byHandler : Handler → α) :
    Option (Supplied α) → Except Flaw (Option (Sourced α))
  | none => .ok none
  | some (.function function) => .ok (some function)
  | some (.handler id run) => .ok (some ⟨.handler id, byHandler run⟩)
  | some (.value .none) => .ok none
  | some (.value _) => .error .notCallable

/-- The definition that a proposal makes, or the faults of its fields in order. Follows
`coerce_type_spec`, `assertive.types:131–147`. -/
def check (p : Proposal) : Except (List FieldFault) Definition :=
  let name := readName p.name
  let base := readBase p.base
  let identify := readBehaviour Identify.byHandler p.identify
  let equal := readBehaviour Equal.byHandler p.equal
  let inspect := readBehaviour Inspect.byHandler p.inspect
  let diff := readBehaviour Differ.byHandler p.diff
  match name, base, identify, equal, inspect, diff, p.extras with
  | .ok name, .ok base, .ok identify, .ok equal, .ok inspect, .ok diff, [] =>
    .ok ⟨name, base, identify, equal, inspect, diff⟩
  | _, _, _, _, _, _, _ =>
    .error (Settings.faultOf "name" name ++ Settings.faultOf "base" base ++
      Settings.faultOf "identify" identify ++ Settings.faultOf "equal" equal ++
      Settings.faultOf "inspect" inspect ++ Settings.faultOf "diff" diff ++
      p.extras.map fun field => ⟨field, .extra⟩)

end Proposal

end Expectation

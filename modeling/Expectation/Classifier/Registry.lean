import Expectation.Table
import Expectation.Classifier.Behaviour

/-!
# Types and their registry

A type classifies values. The universal type holds every value; any other type is derived from a
base and takes from it each behaviour that its definition leaves out. A registry lists its types
newest first and finds them by name. A value is of the newest type that identifies it.
-/

namespace Expectation

/-- A type: a name, a behaviour and, unless it is universal, a base. Follows `Type`,
`assertive.types:31–62`. -/
inductive Classifier where
  | universal
  | derived (name : Text) (behaviour : Behaviour) (origins : Origins) (base : Classifier)

namespace Classifier

/-- The name of the universal type. -/
def universalName : Text := ClassifierMark.universalName

/-- The name of a type. -/
def name : Classifier → Text
  | universal => universalName
  | derived name _ _ _ => name

/-- The behaviour of a type. -/
def behaviour : Classifier → Behaviour
  | universal => .universal
  | derived _ behaviour _ _ => behaviour

/-- The functions that the behaviour of a type is made of. -/
def origins : Classifier → Origins
  | universal => .universal
  | derived _ _ origins _ => origins

/-- What tells a type from others. -/
def mark : Classifier → ClassifierMark
  | universal => .universal
  | derived name _ origins base => .derived name origins base.mark

/-- The type that a type is derived from. -/
def base? : Classifier → Option Classifier
  | universal => none
  | derived _ _ _ base => some base

/-- The type is derived from no other. Follows `Type.is_universal`, `assertive.types:63–65`. -/
def isUniversal (c : Classifier) : Bool := c.base?.isNone

/-- A type and the types it is derived from, nearest first. Follows `Type.lineage`,
`assertive.types:67–72`. -/
def lineage : Classifier → List Classifier
  | universal => [universal]
  | derived name behaviour origins base => derived name behaviour origins base :: base.lineage

/-- A value is of the type. -/
def identifies (c : Classifier) (s : Store) (value : Ref) : Except Fault Bool :=
  c.behaviour.identify s value

end Classifier

/-- A function and what tells it from others. -/
structure Sourced (α : Type) where
  origin : Origin
  function : α

/-- What is registered as a type: a name, the name of a base, and the behaviours that differ from
those of the base. -/
structure Definition where
  name : Text
  base : Option Text
  identify : Option (Sourced Identify)
  equal : Option (Sourced Equal)
  inspect : Option (Sourced Inspect)
  diff : Option (Sourced Differ)

namespace Definition

/-- The behaviour of a definition: what it leaves out is taken from another. -/
def behaviour (d : Definition) (base : Behaviour) : Behaviour where
  identify := (d.identify.map Sourced.function).getD base.identify
  equal := (d.equal.map Sourced.function).getD base.equal
  inspect := (d.inspect.map Sourced.function).getD base.inspect
  diff := (d.diff.map Sourced.function).getD base.diff

/-- What tells the functions of a definition's behaviour from others. -/
def origins (d : Definition) (base : Origins) : Origins where
  identify := (d.identify.map Sourced.origin).getD base.identify
  equal := (d.equal.map Sourced.origin).getD base.equal
  inspect := (d.inspect.map Sourced.origin).getD base.inspect
  diff := (d.diff.map Sourced.origin).getD base.diff

/-- The type that a definition derives from a base. Follows `assertive.types:211–218`. -/
def derive (d : Definition) (base : Classifier) : Classifier :=
  .derived d.name (d.behaviour base.behaviour) (d.origins base.origins) base

end Definition

/-- Registered types. Follows `TypeRegistry`, `assertive.types:150–159`. -/
structure ClassifierRegistry where
  newestFirst : List Classifier
  byName : Table Text Classifier

namespace ClassifierRegistry

/-- The registry of some types, given newest first. -/
def ofList (types : List Classifier) : ClassifierRegistry :=
  ⟨types, .ofList (types.map fun type => (type.name, type))⟩

/-- The registry of the universal type alone. -/
def initial : ClassifierRegistry := ofList [.universal]

/-- The type of a name. Follows `TypeRegistry.get`, `assertive.types:173–177`. -/
def get (registry : ClassifierRegistry) (name : Text) : Except ConfigurationFault Classifier :=
  match registry.byName.get? name with
  | some type => .ok type
  | none => .error (.noSuchType name)

/-- The first of some types that identifies a value. -/
def firstIdentifying (s : Store) (value : Ref) :
    List Classifier → Except Fault (Option Classifier)
  | [] => .ok none
  | type :: types =>
    match type.identifies s value with
    | .ok true => .ok (some type)
    | .ok false => firstIdentifying s value types
    | .error cause => .error cause

/-- The first of some types that identifies two values. -/
def firstCommon (s : Store) (a b : Ref) : List Classifier → Except Fault (Option Classifier)
  | [] => .ok none
  | type :: types =>
    match type.identifies s a with
    | .ok true =>
      match type.identifies s b with
      | .ok true => .ok (some type)
      | .ok false => firstCommon s a b types
      | .error cause => .error cause
    | .ok false => firstCommon s a b types
    | .error cause => .error cause

/-- The newest type that identifies a value, or the universal type. Follows `TypeRegistry.resolve`,
`assertive.types:179–184`. -/
def resolve (registry : ClassifierRegistry) (s : Store) (value : Ref) : Except Fault Classifier :=
  match firstIdentifying s value registry.newestFirst with
  | .ok (some type) => .ok type
  | .ok none => .ok .universal
  | .error cause => .error cause

/-- The newest type that identifies two values. Follows `TypeRegistry.resolve_common`,
`assertive.types:186–191`. -/
def resolveCommon (registry : ClassifierRegistry) (s : Store) (a b : Ref) :
    Except Fault (Option Classifier) :=
  firstCommon s a b registry.newestFirst

/-- The base that a definition names. Follows `assertive.types:204–209`. -/
def baseOf (registry : ClassifierRegistry) (d : Definition) :
    Except ConfigurationFault Classifier :=
  match d.base with
  | none => .ok .universal
  | some name =>
    match registry.byName.get? name with
    | some type => .ok type
    | none => .error (.unknownBase name)

/-- The registry with a new type in front, unless its name is taken or its base unknown. Follows
`TypeRegistry.register`, `assertive.types:193–222`. -/
def register (registry : ClassifierRegistry) (d : Definition) :
    Except ConfigurationFault ClassifierRegistry :=
  if registry.byName.contains d.name then .error (.typeDefined d.name)
  else
    match registry.baseOf d with
    | .ok base =>
      let type := d.derive base
      .ok ⟨type :: registry.newestFirst, registry.byName.set d.name type⟩
    | .error cause => .error cause

/-- A registry of the same types. Follows `TypeRegistry.copy`, `assertive.types:224–225`. -/
def copy (registry : ClassifierRegistry) : ClassifierRegistry := ofList registry.newestFirst

end ClassifierRegistry

end Expectation

import Expectation.Engine.Basic
import Expectation.Classifier.Proposal

/-!
# Registration

Types are added from a definition or from proposed fields, and assertions from two or three
values: types (the universal one if they are left out), patterns and a handler, where types and
patterns may be single values or lists. A registration that fails leaves the engine as it was.
-/

namespace Expectation.Engine

/-- The definition that is meant by a definition or proposal and further fields. -/
def definitionOf (given : Definition ⊕ Proposal) (fields : Proposal) :
    Except ConfigurationFault Definition :=
  let checked (p : Proposal) : Except ConfigurationFault Definition :=
    match p.check with
    | .ok d => .ok d
    | .error faults => .error (.invalidType faults)
  match given with
  | .inl d => if fields.isEmpty then .ok d else checked ((Proposal.ofDefinition d).update fields)
  | .inr p => checked (p.update fields)

/-- The engine with a new type, for which assertions may be registered. -/
def define (e : Engine) (d : Definition) : Except ConfigurationFault Engine :=
  match e.classifiers.register d with
  | .ok classifiers =>
    .ok { e with classifiers := classifiers, assertions := e.assertions.addType d.name }
  | .error cause => .error cause

/-- The engine with a new type that no assertion can be registered for. -/
def defineTypeOnly (e : Engine) (d : Definition) : Except ConfigurationFault Engine :=
  match e.classifiers.register d with
  | .ok classifiers => .ok { e with classifiers := classifiers }
  | .error cause => .error cause

/-- The engine with the type that is meant by a definition or proposal and further fields. Follows
`Expect.add_type`, `assertive.engine:306–316`. -/
def addType (e : Engine) (given : Definition ⊕ Proposal) (fields : Proposal) :
    Except ConfigurationFault Engine := do
  e.define (← definitionOf given fields)

/-- The items of a list or tuple; any other value counts as one item. Follows `_as_list`,
`assertive.engine:27–28`. -/
def itemsOf (s : Store) (value : Ref) : List Ref :=
  match s.node value with
  | .list items => items
  | .tuple items => items
  | _ => [value]

/-- The registered type that a value names. Follows `Expect._resolve_type_ref`,
`assertive.engine:343–348`. -/
def typeOf (e : Engine) (s : Store) (value : Ref) : Except Fault Classifier :=
  match s.node value with
  | .classifier mark => (e.classifiers.get mark.name).mapError .configuration
  | .text name => (e.classifiers.get name).mapError .configuration
  | _ => .error (Store.naming (fun form => .configuration (.typeReference form)) (s.shown value))

/-- The registered types that values name. -/
def typesOf (e : Engine) (s : Store) : List Ref → Except Fault (List Classifier)
  | [] => .ok []
  | value :: values => do
    let type ← e.typeOf s value
    let types ← e.typesOf s values
    pure (type :: types)

/-- What a value is as a handler, if it can be called. -/
def handlerOf? (s : Store) (value : Ref) : Option HandlerId :=
  match s.node value with
  | .handler index => some (.given index)
  | .context id => some (.context id)
  | _ => none

/-- The engine with a handler registered for types and patterns. -/
def registerAssertion (e : Engine) (s : Store) (types : List Classifier) (patterns handler : Ref) :
    Except Fault Engine :=
  match e.assertions.register types ((itemsOf s patterns).map s.text?) (handlerOf? s handler) with
  | .ok assertions => .ok { e with assertions := assertions }
  | .error cause => .error (.configuration cause)

/-- The engine with the assertions that some values register. Follows `Expect.add_assertion`,
`assertive.engine:318–341`. -/
def addAssertion (e : Engine) (s : Store) (arguments : List Ref) : Except Fault Engine :=
  match arguments with
  | [patterns, handler] => e.registerAssertion s [.universal] patterns handler
  | [types, patterns, handler] => do
    let types ← e.typesOf s (itemsOf s types)
    e.registerAssertion s types patterns handler
  | _ => .error (.configuration .argumentCount)

end Expectation.Engine

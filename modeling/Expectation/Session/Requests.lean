import Expectation.Session.Evaluation

/-!
# Requests to an engine of a session

What is asked of an engine from outside: to fail, to bind an expectation, to compare, inspect and
tell differences, to register types and assertions, to install a plugin and to be cloned. A request
that fails leaves the engines as they were, a plugin apart, which keeps what it did before.
-/

namespace Expectation

/-- What is given as a plugin. -/
inductive Plugin (α : Type) where
  | function (install : EngineId → Act α)
  | value (value : Ref)

/-- The form of an expectation that is bound to a name and arguments. Follows `DeferredExpectation`,
`assertive.engine:46–51`. -/
def deferredForm (name arguments : Text) : Text :=
  ("DeferredExpectation(name=" : Text) ++ name ++ (", args=" : Text) ++ arguments ++ [')']

namespace Act

/-- Bind an expectation to a name and arguments, and record it. Follows `Expect.fn`,
`assertive.engine:160–162`. -/
def bind (name : Ref) (arguments : List Ref) : Act Unit := do
  let tuple ← put (.tuple arguments)
  let s ← store
  let report ← ofExcept (s.report name)
  let arguments ← ofExcept (s.shown tuple)
  let name ← ofExcept (s.shown name)
  record (.deferred report arguments (some (deferredForm name arguments)))

/-- Two values are equal in an engine. -/
def equal (id : EngineId) (a b : Ref) : Act Bool := do
  ofTraced ((← engine id).equal (← store) a b)

/-- The inspection of a value in an engine, if the type of the value hands back a document. -/
def inspect (id : EngineId) (value : Ref) (depth : Option Depth) : Act (Option Document) := do
  ofTraced ((← engine id).inspect (← store) value depth)

/-- The difference of two values in an engine. -/
def diff (id : EngineId) (actual expected : Ref) : Act (Option Document) := do
  ofTraced ((← engine id).diff (← store) actual expected)

/-- The type of a value in an engine. -/
def resolve (id : EngineId) (value : Ref) : Act Classifier := do
  ofExcept ((← engine id).classifiers.resolve (← store) value)

/-- The common type of two values in an engine. -/
def resolveCommon (id : EngineId) (a b : Ref) : Act (Option Classifier) := do
  ofExcept ((← engine id).classifiers.resolveCommon (← store) a b)

/-- The registered name of an engine that was perhaps meant by a name. -/
def suggestion (id : EngineId) (subject : Ref) (name : Text) : Act (Option Text) := do
  let e ← engine id
  ofExcept (suggest (← store) subject name e.classifiers e.assertions)

/-- The registered type of a name in an engine. -/
def typeNamed (id : EngineId) (name : Text) : Act Classifier := do
  ofConfiguration ((← engine id).classifiers.get name)

/-- What a value supplies for a behaviour of a type. -/
def supply {α : Type} (value : Ref) : Act (Supplied α) := do
  match (← store).node value with
  | .handler index => do pure (.handler (.given index) ((← get).handlerAt (.given index)))
  | .context id => do pure (.handler (.context id) ((← get).handlerAt (.context id)))
  | node => pure (.value node)

/-- Change an engine, unless that is refused. -/
def changeEngine (id : EngineId) (change : Engine → Except Fault Engine) : Act Unit := do
  setEngine id (← ofExcept (change (← engine id)))

/-- Add a type to an engine. -/
def addType (id : EngineId) (given : Definition ⊕ Proposal) (fields : Proposal) : Act Unit :=
  changeEngine id fun e => (e.addType given fields).mapError .configuration

/-- Add a type to an engine that no assertion can be registered for. -/
def addTypeOnly (id : EngineId) (fields : Proposal) : Act Unit :=
  changeEngine id fun e => do
    let d ← (Engine.definitionOf (.inr .empty) fields).mapError .configuration
    (e.defineTypeOnly d).mapError .configuration

/-- Register an assertion in an engine. -/
def addAssertion (id : EngineId) (arguments : List Ref) : Act Unit := do
  let s ← store
  changeEngine id (·.addAssertion s arguments)

/-- Set the format of an engine. -/
def setFormat (id : EngineId) (value : Ref) : Act Unit := do
  let s ← store
  changeEngine id (·.setFormat s value)

/-- Install a plugin in an engine. A handler or a context is no plugin that can be run. Follows
`Expect.install_plugin`, `assertive.engine:350–356`. -/
def installPlugin {α : Type} (id : EngineId) : Plugin α → Act α
  | .function install => install id
  | .value value => do
    match (← store).node value with
    | .handler _ | .context _ => throw .unsupported
    | _ => throw (.configuration .pluginNotCallable)

/-- Clone an engine under a name. Follows `Expect.clone`, `assertive.engine:358–365`. -/
def cloneEngine (id : EngineId) (name : Text) : Act Unit := do
  nameEngine name (← addEngine (← engine id).clone)

end Act

end Expectation

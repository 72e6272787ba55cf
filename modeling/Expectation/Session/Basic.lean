import Expectation.Document.Console
import Expectation.Document.Edit
import Expectation.Engine.Registration
import Expectation.Engine.Difference
import Expectation.Engine.Equality
import Expectation.Handler.Program

/-!
# Sessions

A session holds all that evaluations share and change: values, the contexts of invocations among
them, handlers, failures, engines and their names, and the records that handlers leave; and the
console that failures are rendered with. An `Act` answers or ends with a fault, and either way
leaves a session.
-/

namespace Expectation

/-- What evaluations share. -/
structure Session where
  console : Console
  store : Store
  handlers : Array Handler
  failures : Array Failure
  engines : Array Engine
  engineNames : Table Text EngineId
  functions : Nat
  log : List LogEntry
  nestingLimit : Nat

/-- An action in a session: it answers or ends with a fault, and leaves a session. -/
abbrev Act (α : Type) := ExceptT Fault (StateM Session) α

namespace Session

/-- The session with a console and nothing else in it. -/
def empty (console : Console) (nestingLimit : Nat) : Session :=
  ⟨console, .empty, #[], #[], #[], .empty, 0, [], nestingLimit⟩

/-- What is registered as a handler; an unknown one does nothing. -/
def handlerAt (session : Session) : HandlerId → Handler
  | .given index => session.handlers.getD index fun _ _ _ => .skip
  | .context id => .ofContext id

/-- The failures along the causes of a failure, at most so many. -/
def causesWithin (session : Session) : (count : Nat) → Option FailureId → List Failure
  | 0, _ | _, none => []
  | count + 1, some id =>
    match session.failures[id]? with
    | some f => f :: session.causesWithin count f.cause
    | none => []

/-- The failures that a failure was composed from, nearest first. -/
def causes (session : Session) (f : Failure) : List Failure :=
  session.causesWithin session.failures.size f.cause

/-- The type that is registered under a name in the engine of a name. -/
def classifier (session : Session) : ClassifierSearch :=
  fun engineName name => do
    match session.engineNames.get? engineName with
    | none => throw .noKey
    | some id =>
      match (session.engines.getD id (.create .default)).classifiers.get name with
      | .ok found => pure (.classifier found.mark)
      | .error cause => throw (.configuration cause)

end Session

namespace Act

/-- An answer that may be a fault. -/
def ofExcept {α : Type} : Except Fault α → Act α
  | .ok answer => pure answer
  | .error cause => throw cause

/-- An answer that may be a configuration fault. -/
def ofConfiguration {α : Type} : Except ConfigurationFault α → Act α
  | .ok answer => pure answer
  | .error cause => throw (.configuration cause)

/-- A traced answer: its records stay, also if it is a fault. -/
def ofTraced {α : Type} (traced : Traced α) : Act α := do
  modify fun session => { session with log := session.log ++ traced.records }
  ofExcept traced.outcome

/-- How an action ends, as an answer. -/
def outcome {α : Type} (act : Act α) : Act (Except Fault α) := fun session =>
  let (result, session) := act session
  (.ok result, session)

/-- The values. -/
def store : Act Store := do pure (← get).store

/-- Place an object among the values. -/
def put (node : Node) : Act Ref := do
  let (ref, store) := (← get).store.put node
  modify fun session => { session with store := store }
  pure ref

/-- Replace the object of a value. -/
def change (ref : Ref) (node : Node) : Act Unit :=
  modify fun session => { session with store := session.store.change ref node }

/-- Make a handler known. -/
def addHandler (handler : Handler) : Act Nat := do
  let index := (← get).handlers.size
  modify fun session => { session with handlers := session.handlers.push handler }
  pure index

/-- An engine. -/
def engine (id : EngineId) : Act Engine := do
  pure ((← get).engines.getD id (.create .default))

/-- The engine of a name. -/
def engineNamed (name : Text) : Act EngineId := do
  match (← get).engineNames.get? name with
  | some id => pure id
  | none => throw .noKey

/-- Give an engine a name. -/
def nameEngine (name : Text) (id : EngineId) : Act Unit :=
  modify fun session => { session with engineNames := session.engineNames.set name id }

/-- Make an engine known. -/
def addEngine (e : Engine) : Act EngineId := do
  let id := (← get).engines.size
  modify fun session => { session with engines := session.engines.push e }
  pure id

/-- Replace an engine. -/
def setEngine (id : EngineId) (e : Engine) : Act Unit :=
  modify fun session => { session with engines := session.engines.setIfInBounds id e }

/-- Build a value. -/
def build (template : Template) : Act Ref := do
  let session ← get
  let (ref, store) ← ofExcept (template.build session.classifier session.store)
  modify fun session => { session with store := store }
  pure ref

/-- What tells a function that is given for a behaviour from all others. -/
def newOrigin : Act Origin := do
  let serial := (← get).functions
  modify fun session => { session with functions := serial + 1 }
  pure (.given serial)

/-- A failure. -/
def failure (id : FailureId) : Act Failure := do
  pure ((← get).failures.getD id ⟨.empty defaultIndentWidth, .none, .none, none, [], none⟩)

/-- Make a failure known. -/
def addFailure (f : Failure) : Act FailureId := do
  let id := (← get).failures.size
  modify fun session => { session with failures := session.failures.push f }
  pure id

/-- Replace a failure. -/
def setFailure (id : FailureId) (f : Failure) : Act Unit :=
  modify fun session => { session with failures := session.failures.setIfInBounds id f }

/-- The context of an invocation. -/
def context (id : ContextId) : Act Context := do
  pure ((← store).contextAt id)

/-- Begin the context of an invocation. -/
def addContext (c : Context) : Act ContextId := do
  let (id, store) := (← get).store.addContext c
  modify fun session => { session with store := store }
  pure id

/-- Change the context of an invocation. -/
def changeContext (id : ContextId) (f : Context → Context) : Act Unit := do
  let c ← context id
  modify fun session => { session with store := session.store.withContext id (f c) }

/-- Leave a record. -/
def record (entry : LogEntry) : Act Unit :=
  modify fun session => { session with log := session.log ++ [entry] }

end Act

end Expectation

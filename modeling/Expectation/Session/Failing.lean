import Expectation.Message.Body
import Expectation.Message.Standard
import Expectation.Session.Basic

/-!
# Failing and composing failures

To finalize a failure is to put the difference of its two values under its message, if there is
one to show, to take the values off, and to render the message in the engine's format, at the width
of its settings. A context composes a failure that leaves an outermost nested call: the composed
failure has the document that the error mode asks for, the former failure as its cause, and is
finalized.
-/

namespace Expectation

/-- A word or an error mode selects an error mode. -/
def ErrorMode.ofValue? (s : Store) (value : Ref) : Option ErrorMode :=
  match s.node value with
  | .mode mode => some mode
  | .text word => ofWord? word
  | _ => none

/-- The fault of a value that selects no error mode. -/
def ErrorMode.unknown (s : Store) (value : Ref) : Fault :=
  Store.naming (fun form => .configuration (.unknownMode form)) (s.plain value)

namespace Act

/-- The document of a failure with the difference of its values, if there is one to show. Follows
`assertive.engine:215–221`. -/
def withDifference (e : Engine) (f : Failure) : Act Document := do
  let s ← store
  if s.diffable f.actual f.expected then
    match ← ofTraced (e.diff s f.actual f.expected) with
    | some difference =>
      pure ((((f.output.newlines 2).text "Diff:" (some "blue")).newlines 2).append difference)
    | none => pure f.output
  else pure f.output

/-- A failure with a message rendered in a format, at a width. Follows `assertive.engine:223–228`.
-/
def rendered (console : Console) (width : Int) (f : Failure) (message : Document) :
    Format → Failure
  | .html =>
    { f with
      output := message
      message := console.render message width .text
      html := some (console.render message width .html) }
  | format => { f with output := message, message := console.render message width format }

/-- Finalize a failure. Follows `Expect.set_error_message`, `assertive.engine:213–228`. -/
def finalize (engineId : EngineId) (id : FailureId) : Act Unit := do
  let e ← engine engineId
  let f ← failure id
  let message ← withDifference e f
  let cleared := { f with actual := .none, expected := .none, output := message }
  match Format.ofName? e.format with
  | some format =>
    setFailure id (rendered (← get).console e.settings.renderWidth cleared message format)
  | none => do
    setFailure id cleared
    throw (.unknownFormat (Text.quoted e.format))

/-- Fail with a document for a message. Follows `assertive.engine:209–211`. -/
def failWithBody (engineId : EngineId) (body : Document) (actual expected : Ref) : Act Unit := do
  let id ← addFailure ⟨body, actual, expected, none, body.plain, none⟩
  finalize engineId id
  throw (.failure id)

/-- Fail with a message. Follows `Expect.fail`, `assertive.engine:166–211`. -/
def failWith (engineId : EngineId) (message : Message) (arguments : List Ref)
    (actual expected : Ref) : Act Unit :=
  match message with
  | .fault cause => throw cause
  | .value value => do
    let e ← engine engineId
    let body ← ofExcept (e.body (← store) value arguments)
    failWithBody engineId body actual expected

/-- Fail with a message that is written by an action, from an empty document. Follows `Expect.fail`,
`assertive.engine:190–193`. -/
def failWriting (engineId : EngineId) (writer : Document → Act (Option Document))
    (actual expected : Ref) : Act Unit := do
  let blank := (← engine engineId).newDocument
  let body ← writer blank
  failWithBody engineId (body.getD blank) actual expected

/-- The arguments of a context. -/
def argumentsOf (c : Context) : Act (List Ref) := do
  match (← store).node c.arguments with
  | .list items => pure items
  | _ => pure []

/-- The standard message of a context. Follows `AssertionContext.standard_error_message`,
`assertive.context:125–148`. -/
def standardMessage (id : ContextId) : Act Document := do
  let c ← context id
  let e ← engine c.engine
  ofTraced (e.standardMessage (← store) c.subject c.name (← argumentsOf c))

/-- The document of a composed failure under an error mode. Follows `assertive.context:117–122`. -/
def composedOutput (id : ContextId) (inner : Document) : ErrorMode → Act Document
  | .default => standardMessage id
  | .bubble => pure inner
  | .nested => do
    let standard ← standardMessage id
    pure (standard.newlines.indent.indentation.block inner)

/-- The error mode of a context. Follows `assertive.context:112–115`. -/
def errorModeOf (id : ContextId) : Act ErrorMode := do
  let c ← context id
  let s ← store
  match ErrorMode.ofValue? s c.errorMode with
  | some mode => pure mode
  | none => throw (ErrorMode.unknown s c.errorMode)

/-- Compose a failure in a context and end with the composed one. Follows
`AssertionContext._compose`, `assertive.context:111–123`. -/
def compose (id : ContextId) (inner : FailureId) : Act Unit := do
  let mode ← errorModeOf id
  let f ← failure inner
  let output ← composedOutput id f.output mode
  let composed ← addFailure ⟨output, f.actual, f.expected, some inner, output.plain, none⟩
  finalize (← context id).engine composed
  throw (.failure composed)

/-- Run a nested call of a context: one level deeper, and composing a failure that leaves the
outermost level. Follows `AssertionContext._call_nested`, `assertive.context:97–109`. -/
def nestedCall (id : ContextId) (call : Act Unit) : Act Unit := do
  changeContext id fun c => { c with nesting := c.nesting + 1 }
  let result ← outcome call
  let result ←
    match result with
    | .error (.failure inner) => do
      if (← context id).nesting = 1 then outcome (compose id inner) else pure result
    | _ => pure result
  changeContext id fun c => { c with nesting := c.nesting - 1 }
  ofExcept result

/-- Run a call as from outside: a failure that has values on it still is finalized. Follows
`Expect.__call__`, `assertive.engine:110–115`. -/
def outermostCall (engineId : EngineId) (call : Act Unit) : Act Unit := do
  match ← outcome call with
  | .error (.failure id) => do
    let f ← failure id
    if f.actual ≠ .none ∨ f.expected ≠ .none then finalize engineId id
    throw (.failure id)
  | result => ofExcept result

end Act

end Expectation

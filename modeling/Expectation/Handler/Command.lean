import Expectation.Trace
import Expectation.Classifier.Depth
import Expectation.Value.Template

/-!
# Commands of a handler

What a handler may ask of the session that runs it: to look at values and build new ones, to look
at failures and attach values to them, and to leave records. Whatever else it asks goes through a
context: to look at and change the context and the memory of an invocation, to compare, inspect and
write, to evaluate other assertions and to fail. That may be the context of the handler's own
invocation or any other that came into its hands, as contexts are values. Each command has a type of
answers.
-/

namespace Expectation

/-- A failed assertion. Follows `AssertionFailure`, `assertive.errors:55–86`. -/
structure Failure where
  output : Document
  actual : Ref
  expected : Ref
  cause : Option FailureId
  message : Text
  html : Option Text
  deriving Repr, DecidableEq

/-- The way that a nested evaluation or a failure takes. -/
inductive Route where
  | context
  | engine
  | bare
  deriving Repr, DecidableEq

/-- What a failure is to say. -/
inductive Message where
  | value (message : Ref)
  | fault (cause : Fault)
  deriving Repr, DecidableEq

/-- What may be asked of a context. -/
inductive ContextCommand where
  | state
  | memory
  | remember (memory : Memory)
  | setMode (mode : Ref)
  | setFlag (name : Text) (value : Ref)
  | setSubject (value : Ref)
  | setName (name : Text)
  | pushArgument (value : Ref)
  | format
  | setFormat (value : Ref)
  | newDocument
  | equal (a b : Ref)
  | inspect (value : Ref) (depth : Option Depth)
  | diff (actual expected : Ref)
  | standardMessage
  | unmark (name : Text)
  | call (route : Route) (subject name : Ref) (arguments : List Ref)
  | fail (route : Route) (message : Message) (arguments : List Ref) (actual expected : Ref)

/-- The answers of a command that goes through a context. -/
def ContextCommand.Answer : ContextCommand → Type
  | state => Context
  | memory => Memory
  | format => Text
  | newDocument => Document
  | equal .. => Bool
  | inspect .. => Option Document
  | diff .. => Option Document
  | standardMessage => Document
  | unmark _ => Text
  | remember _ | setMode _ | setFlag .. | setSubject _ | setName _ | pushArgument _ | setFormat _
  | call .. | fail .. => Unit

/-- What a handler may ask of the session. -/
inductive Command where
  | look
  | build (template : Template)
  | failureOf (id : FailureId)
  | attach (id : FailureId) (actual expected : Ref)
  | log (entry : LogEntry)
  | through (context : Ref) (command : ContextCommand)

/-- The answers of a command. -/
def Command.Answer : Command → Type
  | look => Store
  | build _ => Ref
  | failureOf _ => Failure
  | through _ command => command.Answer
  | attach .. | log _ => Unit

/-- An object that takes in any part that is set on it. -/
def Node.isOpen : Node → Bool
  | document _ | handler _ | function | object _ => true
  | _ => false

/-- What a command comes to that goes through a value that is no context: the value has no part that
it could ask for, and it cannot be called, but an open one takes in the parts that are set on it. -/
def ContextCommand.astray (s : Store) (value : Ref) :
    (command : ContextCommand) → Except Fault command.Answer
  | .setMode _ | .setSubject _ | .setName _ =>
    if (s.node value).isOpen then .ok () else .error .noPart
  | .call .context .. => .error .unsupported
  | _ => .error .noPart

end Expectation

import Expectation.Handler.Command

/-!
# Programs of handlers

What a handler does is a tree: it ends, or raises a fault, or gives a command and goes on from the
answer or from the fault that the command ended with. So a program may catch a failure and do
anything with it. A failure whose message is written by the handler itself holds a program of its
own, which goes from the empty message to the message as it is written; it may use whatever the
handler has in its hands, contexts as well.
-/

namespace Expectation

/-- What a handler does. The answer is looked at only where a message is written: the document
that is the message, or none to take the one that was given. -/
inductive Program where
  | done (answer : Option Document)
  | raise (cause : Fault)
  | perform (command : Command) (next : Except Fault command.Answer → Program)
  | failWriting (context : Ref) (route : Route) (writer : Document → Program)
    (actual expected : Ref) (next : Except Fault Unit → Program)

/-- An assertion handler: what it does with the context of its invocation, a subject and further
arguments. -/
abbrev Handler := (context subject : Ref) → (arguments : List Ref) → Program

namespace Program

/-- The program that does nothing. -/
def skip : Program := done none

/-- What ends with an answer is followed by nothing, and a fault is raised again. -/
def ofExcept : Except Fault Unit → Program
  | .ok _ => skip
  | .error cause => raise cause

end Program

/-- A context as a handler: it is called with the context of the invocation for a subject, the
subject for a name, and the arguments. -/
def Handler.ofContext (id : ContextId) : Handler := fun context subject arguments =>
  .perform (.through (.context id) (.call .context context subject arguments)) .ofExcept

end Expectation

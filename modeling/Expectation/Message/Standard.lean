import Expectation.Engine.Inspection
import Expectation.Handler.Command

/-!
# Standard messages

The standard message of an invocation is `expected`, the subject, the name of the assertion and
its arguments. A subject of several lines stands indented on lines of its own. Arguments that are
documents are written as they are, all others are inspected; a comma divides two neighbours that
are both inspected.
-/

namespace Expectation.Engine

variable (e : Engine) (s : Store)

/-- The inspection of a value, which has to be a document. -/
def inspected (value : Ref) : Traced Document := do
  match ← e.inspect s value with
  | some document => pure document
  | none => .fault .noPart

/-- Write arguments after another one, of which it is known whether it was a document. -/
def writeMore (output : Document) (afterDocument : Bool) : List Ref → Traced Document
  | [] => pure output
  | argument :: arguments =>
    match s.node argument with
    | .document d => writeMore (output.spaces.append d) true arguments
    | _ => do
      let output := if afterDocument then output else output.text ","
      writeMore (output.spaces.append (← e.inspected s argument)) false arguments

/-- Write arguments after the name of an assertion. Follows `assertive.context:137–147`. -/
def writeArguments (output : Document) : List Ref → Traced Document
  | [] => pure output
  | argument :: arguments =>
    match s.node argument with
    | .document d => e.writeMore s (output.spaces.append d) true arguments
    | _ => do e.writeMore s (output.spaces.append (← e.inspected s argument)) false arguments

/-- Write the subject of an assertion: between spaces, or indented on lines of its own. Follows
`assertive.context:131–134`. -/
def writeSubject (output subject : Document) : Document :=
  if 1 < subject.height then
    ((output.newlines.indent.indentation.block subject).outdent).newlines
  else (output.spaces.append subject).spaces

/-- The standard message for a subject, a name and arguments. Follows
`AssertionContext.standard_error_message`, `assertive.context:125–148`. -/
def standardMessage (subject : Ref) (name : Text) (arguments : List Ref) : Traced Document := do
  let shown ← e.inspected s subject
  e.writeArguments s ((writeSubject (e.newDocument.error "expected") shown).error name) arguments

end Expectation.Engine

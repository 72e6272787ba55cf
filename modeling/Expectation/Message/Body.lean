import Expectation.Message.Placeholder
import Expectation.Engine.Basic
import Expectation.Handler.Command

/-!
# Message bodies

The body of a failure's message: a document as it is, or a text in which the placeholders are
replaced by the arguments at their positions. A placeholder without an argument stays as it is
written, and one with more digits than are read as a number is a fault. A message that is false says
that the failure is explicit.
-/

namespace Expectation

/-- The message of a failure that says nothing else. -/
def explicitMessage : Text := "explicit failure"

/-- Write a piece of a message, with the arguments that take the places of placeholders, unless the
number of a placeholder cannot be read or an argument has no form. Follows
`assertive.engine:198–207`. -/
def MessagePiece.write (s : Store) (arguments : List Ref) (output : Document)
    (piece : MessagePiece) : Except Fault Document :=
  if longestNumeral < piece.digitCount then .error (.oversizedNumeral (some piece.digitCount))
  else
    match piece with
    | literal text => .ok (output.text text)
    | slot position written =>
      match arguments[position]? with
      | some argument =>
        match s.node argument with
        | .document d => .ok (output.append d)
        | _ => (s.plain argument).map (output.text ·)
      | none => .ok (output.text written)

/-- Write a text in which placeholders are replaced by arguments, up to the first fault. Follows
`assertive.engine:194–207`. -/
def Document.template (output : Document) (s : Store) (text : Text) (arguments : List Ref) :
    Except Fault Document :=
  (MessagePiece.ofText text).foldlM (MessagePiece.write s arguments) output

/-- The body of a message that is a value. A handler or a context cannot be called as one. Follows
`Expect.fail`, `assertive.engine:187–207`. -/
def Engine.body (e : Engine) (s : Store) (message : Ref) (arguments : List Ref) :
    Except Fault Document :=
  match s.node message with
  | .document d => .ok (e.newDocument.append d)
  | .handler _ | .function | .context _ => .error .unsupported
  | node => do
    let text ← if node.truth then s.plain message else .ok explicitMessage
    e.newDocument.template s text arguments

end Expectation

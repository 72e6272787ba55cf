import Expectation.Handler.Detached
import Expectation.Classifier.Behaviour

/-!
# Handlers as behaviours

A handler is a function and may be given for a behaviour of a type. It is called with what the
behaviour is given, in order, and answers nothing: values that it compares are not equal, it hands
back no document, and it finds no difference. To tell which values are of a type it is given too
little to be called.
-/

namespace Expectation

/-- The course of a comparison by a handler. -/
def Comparison.after (call : Traced Unit) : Comparison :=
  .record call.records
    (match call.outcome with
    | .ok _ => .done false
    | .error cause => .fault cause)

/-- The course of an inspection by a handler. -/
def Inspection.after (call : Traced Unit) (output : Document) : Inspection :=
  .record call.records
    (match call.outcome with
    | .ok _ => .done output none
    | .error cause => .fault cause)

/-- The course of a search for a difference by a handler. -/
def Differing.after (call : Traced Unit) : Differing :=
  .record call.records
    (match call.outcome with
    | .ok _ => .done none
    | .error cause => .fault cause)

/-- A handler needs a subject besides the value that it is given. -/
def Identify.byHandler (_ : Handler) : Identify := fun _ _ => .error .unsupported

/-- A handler is given both values and the function that compares further ones. -/
def Equal.byHandler (handler : Handler) : Equal := fun s a b =>
  let (function, s) := s.put .function
  .after (handler.callDetached s a b [function])

/-- A handler is given the document, the value, the function that writes further ones, and the
depth. -/
def Inspect.byHandler (handler : Handler) : Inspect := fun s output value depth =>
  let (document, s) := s.put (.document output)
  let (function, s) := s.put .function
  let (levels, s) := depth.place s
  .after (handler.callDetached s document value [function, levels]) output

/-- A handler is given both values, the document, and the functions that find further differences
and inspect further values. -/
def Differ.byHandler (handler : Handler) : Differ := fun s actual expected output =>
  let (document, s) := s.put (.document output)
  let (differ, s) := s.put .function
  let (inspector, s) := s.put .function
  .after (handler.callDetached s actual expected [document, differ, inspector])

end Expectation

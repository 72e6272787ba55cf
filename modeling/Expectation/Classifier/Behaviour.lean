import Expectation.Trace
import Expectation.Classifier.Depth
import Expectation.Value.Equality

/-!
# Behaviour of types

A type tells which values are of it, whether two of them are equal, how one is written and how two
differ. The last three may lead to the same question about other values, mostly parts of the first
ones, and go on from the answer. So their course is a tree: it ends with a result or a fault, or
leaves records, or asks and has a branch for each answer. The engine answers what is asked.
-/

namespace Expectation

/-- The course of a comparison. -/
inductive Comparison where
  | done (equal : Bool)
  | fault (cause : Fault)
  | record (entries : List LogEntry) (next : Comparison)
  | ask (a b : Ref) (next : Bool → Comparison)

/-- The course of writing a value. -/
inductive Inspection where
  | done (written : Document) (result : Option Document)
  | fault (cause : Fault)
  | record (entries : List LogEntry) (next : Inspection)
  | print (target : Document) (value : Ref)
    (next : (written : Document) → (result : Option Document) → Inspection)

/-- The course of finding a difference. -/
inductive Differing where
  | done (result : Option Document)
  | fault (cause : Fault)
  | record (entries : List LogEntry) (next : Differing)
  | diff (actual expected : Ref) (next : Option Document → Differing)
  | inspect (value : Ref) (next : Option Document → Differing)

/-- Tells whether a value is of a type. -/
abbrev Identify := Store → Ref → Except Fault Bool

/-- Compares two values of a type. -/
abbrev Equal := Store → (a b : Ref) → Comparison

/-- Writes a value of a type on a document, with so many levels left. -/
abbrev Inspect := Store → (output : Document) → (value : Ref) → Depth → Inspection

/-- Finds the difference of two values of a type, with an empty document to write on. -/
abbrev Differ := Store → (actual expected : Ref) → (output : Document) → Differing

/-- All that a type does. -/
structure Behaviour where
  identify : Identify
  equal : Equal
  inspect : Inspect
  diff : Differ

namespace Comparison

variable {m : Type → Type} [Monad m] [MonadLiftT Traced m]

/-- The answer of a comparison in which each question is answered by `answer`. -/
def run (answer : Ref → Ref → m Bool) : Comparison → m Bool
  | done equal => pure equal
  | fault cause => liftM (Traced.fault cause : Traced Bool)
  | record entries next => do
    liftM (Traced.record entries)
    next.run answer
  | ask a b next => do
    let equal ← answer a b
    (next equal).run answer

end Comparison

namespace Inspection

/-- The inspection that ends with a document and hands it back. -/
def finish (written : Document) : Inspection := done written (some written)

/-- The inspection that writes a text in a style and hands its document back. -/
def write (output : Document) (text : Text) (style : Option Style := none) : Inspection :=
  finish (output.text text style)

/-- Go on from a form that is to be written, unless there is none. -/
def withForm (form : Except Fault Text) (next : Text → Inspection) : Inspection :=
  match form with
  | .ok form => next form
  | .error cause => fault cause

/-- The documents of an inspection in which each value is written by `write`. -/
def run (write : Document → Ref → Traced (Document × Option Document)) :
    Inspection → Traced (Document × Option Document)
  | done written result => pure (written, result)
  | fault cause => .fault cause
  | record entries next => do
    Traced.record entries
    next.run write
  | print target value next => do
    let (written, result) ← write target value
    (next written result).run write

end Inspection

namespace Differing

/-- The difference found when each question is answered by `differ` or `inspected`. -/
def run (differ : Ref → Ref → Traced (Option Document))
    (inspected : Ref → Traced (Option Document)) : Differing → Traced (Option Document)
  | done result => pure result
  | fault cause => .fault cause
  | record entries next => do
    Traced.record entries
    next.run differ inspected
  | diff actual expected next => do
    let result ← differ actual expected
    (next result).run differ inspected
  | inspect value next => do
    let document ← inspected value
    (next document).run differ inspected

end Differing

namespace Behaviour

/-- Every value is of the universal type; equal are the same objects and equal values; a value is
written in the form that tells its kind; no difference is shown. Follows `ANY_TYPE`,
`assertive.types:75–97`. -/
def universal : Behaviour where
  identify _ _ := .ok true
  equal s a b :=
    match s.matching? a b with
    | some equal => .done equal
    | none => .fault .tooDeep
  inspect s output value _ := .withForm (s.shown value) (.write output)
  diff _ _ _ _ := .done none

end Behaviour

end Expectation

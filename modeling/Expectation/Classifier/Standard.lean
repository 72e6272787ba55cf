import Expectation.Document.Edit
import Expectation.Value.Collection
import Expectation.Classifier.Behaviour

/-!
# Standard behaviours

Ready-made behaviours of types: for values of certain kinds, for sequences, whose items are
compared, written and told apart one by one, and for dictionaries, whose entries are.
-/

namespace Expectation

namespace Identify

/-- The values of some kinds. -/
def kinds (kinds : List Kind) : Identify := fun s value => .ok ((s.node value).kind ∈ kinds)

/-- Every value, or none. -/
def constant (answer : Bool) : Identify := fun _ _ => .ok answer

/-- The numbers greater than zero. -/
def positive : Identify := fun s value =>
  match s.node value with
  | .integer n => .ok (0 < n)
  | .float x => .ok (x.exceeds (.finite false 0 Binary64.minExponent))
  | _ => .ok false

/-- The texts and lists that are longer than so much. -/
def longerThan (length : Int) : Identify := fun s value =>
  match s.node value with
  | .text t => .ok (length < t.length)
  | .list items => .ok (length < items.length)
  | _ => .ok false

/-- The dictionaries with a key. -/
def withKey (key : Ref) : Identify := fun s value =>
  match s.node value with
  | .dict _ => s.holds value key
  | _ => .ok false

/-- A type that raises a fault for every value. -/
def faulty (cause : Fault) : Identify := fun _ _ => .error cause

end Identify

namespace Comparison

/-- An answer that may be a fault. -/
def ofExcept : Except Fault Bool → Comparison
  | .ok equal => done equal
  | .error cause => fault cause

/-- Compare pairs in turn, up to the first that are not equal. -/
def pairs : List (Ref × Ref) → Comparison
  | [] => done true
  | (a, b) :: rest => ask a b fun equal => if equal then pairs rest else done false

/-- Go on from the elements of two values. -/
def withElements (s : Store) (a b : Ref) (next : List Ref → List Ref → Comparison) : Comparison :=
  match s.elements a, s.elements b with
  | .ok xs, .ok ys => next xs ys
  | .error cause, _ | _, .error cause => fault cause

/-- The pairs of values of two dictionaries' entries under the keys of the first; none if some
key is no key of the second. -/
def entryPairs (s : Store) (others : List (Ref × Ref)) :
    List (Ref × Ref) → Except Fault (Option (List (Ref × Ref)))
  | [] => .ok (some [])
  | (key, value) :: entries =>
    match s.lookup? key others with
    | none => .error .tooDeep
    | some none => .ok none
    | some (some other) =>
      match entryPairs s others entries with
      | .ok rest? => .ok (rest?.map fun rest => (value, other) :: rest)
      | .error cause => .error cause

end Comparison

namespace Equal

/-- Sequences are equal if they are equally long and their items are equal in turn. -/
def items : Equal := fun s a b =>
  .withElements s a b fun xs ys =>
    if xs.length = ys.length then .pairs (xs.zip ys) else .done false

/-- Dictionaries are equal if they have the same keys and equal values under each; only they have
keys. -/
def entries : Equal := fun s a b =>
  match s.node a, s.node b with
  | .dict xs, .dict ys =>
    if xs.length = ys.length then
      match Comparison.entryPairs s ys xs with
      | .ok (some pairs) => .pairs pairs
      | .ok none => .done false
      | .error cause => .fault cause
    else .done false
  | _, _ => .fault .noPart

/-- Equally long values are equal. -/
def length : Equal := fun s a b =>
  match s.length a, s.length b with
  | .ok m, .ok n => .done (m = n)
  | .error cause, _ | _, .error cause => .fault cause

/-- All values are equal, or none are. -/
def constant (answer : Bool) : Equal := fun _ _ _ => .done answer

/-- Values are equal if their first elements are. -/
def first : Equal := fun s a b =>
  match s.element a 0, s.element b 0 with
  | .ok x, .ok y => .ask x y .done
  | .error cause, _ | _, .error cause => .fault cause

end Equal

namespace Inspection

/-- Write items with a separator between neighbours. -/
def printItems (separator : Text) (next : Document → Inspection) :
    (output : Document) → List Ref → Inspection
  | output, [] => next output
  | output, [item] => print output item fun written _ => next written
  | output, item :: items =>
    print output item fun written _ =>
      printItems separator next (written.text separator) items

/-- Write entries, each as its key, a colon and its value, with a separator between neighbours. -/
def printEntries (s : Store) (next : Document → Inspection) :
    (output : Document) → List (Ref × Ref) → Inspection
  | output, [] => next output
  | output, [(key, value)] =>
    withForm (s.plain key) fun form =>
      print ((output.text form).text ": ") value fun written _ => next written
  | output, (key, value) :: entries =>
    withForm (s.plain key) fun form =>
      print ((output.text form).text ": ") value fun written _ =>
        printEntries s next (written.text ", ") entries

/-- Write items each as a block on a line of its own. -/
def printLines (next : Document → Inspection) : (output : Document) → List Ref → Inspection
  | output, [] => next output
  | output, item :: items =>
    print (.empty defaultIndentWidth) item fun _ result =>
      match result with
      | some block => printLines next (output.newlines.indentation.block block) items
      | none => fault .noPart

/-- Write items each after a space. -/
def printSpaced (next : Document → Inspection) : (output : Document) → List Ref → Inspection
  | output, [] => next output
  | output, item :: items =>
    print output.spaces item fun written _ => printSpaced next written items

/-- Go on from the elements of a value. -/
def withElements (s : Store) (value : Ref) (next : List Ref → Inspection) : Inspection :=
  match s.elements value with
  | .ok items => next items
  | .error cause => fault cause

end Inspection

namespace Inspect

/-- The items between brackets. -/
def items : Inspect := fun s output value _ =>
  .withElements s value fun items =>
    .printItems ", " (fun written => .finish (written.text "]")) (output.text "[") items

/-- The entries between braces; only a dictionary has any. -/
def entries : Inspect := fun s output value _ =>
  match s.node value with
  | .dict entries =>
    .printEntries s (fun written => .finish (written.text ['\x7d'])) (output.text ['\x7b']) entries
  | _ => .fault .noPart

/-- The items on lines of their own, indented between brackets. -/
def lines : Inspect := fun s output value _ =>
  .withElements s value fun items =>
    .printLines (fun written => .finish (written.outdent.newlines.indentation.text "]"))
      (output.text "[").indent items

/-- The levels left and the items between angles. -/
def depths : Inspect := fun s output value depth =>
  .withElements s value fun items =>
    .withForm (depth.text s) fun levels =>
      .printSpaced (fun written => .finish (written.text ">")) (output.text ('<' :: levels)) items

/-- The text of the value in a style between two texts. -/
def tag (before after : Text) (style : Option Style) : Inspect := fun s output value _ =>
  .withForm (s.plain value) fun form =>
    .finish (((output.text before).text form style).text after)

/-- The value itself again. -/
def itself : Inspect := fun _ output value _ =>
  .print (output.text "self=") value fun written _ => .finish written

/-- A text on the document given, while a new document is handed back. -/
def fresh : Inspect := fun _ output _ _ =>
  .done (output.text "lost")
    (some ((Document.empty defaultIndentWidth).text "fresh" (some "green")))

/-- One text for every value. -/
def constant (text : Text) (style : Option Style) : Inspect := fun _ output _ _ =>
  .write output text style

end Inspect

namespace Differing

/-- Append the inspection of a value, which has to be a document. -/
def appendInspected (output : Document) (value : Ref) (next : Document → Differing) : Differing :=
  inspect value fun
    | some document => next (output.append document)
    | none => fault .noPart

end Differing

namespace Differ

/-- The actual value after a minus and the expected one after a plus. -/
def minusPlus : Differ := fun _ actual expected output =>
  .appendInspected (output.text "- " (some "red")) actual fun output =>
    .appendInspected (output.newlines.text "+ " (some "green")) expected fun output =>
      .done (some output)

/-- The differences of pairs of items, each on a line; a pair without one is inspected. -/
def pairs : (output : Document) → (isFirst : Bool) → List (Ref × Ref) → Differing
  | output, _, [] => .done (some output)
  | output, isFirst, (a, b) :: rest =>
    let output := if isFirst then output else output.newlines
    .diff a b fun
      | some result => pairs ((output.text "# ").block result) false rest
      | none =>
        .appendInspected output a fun output =>
          .appendInspected (output.text " vs ") b fun output => pairs output false rest

/-- The differences of the items at equal positions. -/
def items : Differ := fun s actual expected output =>
  match s.elements actual, s.elements expected with
  | .ok xs, .ok ys => pairs output true (xs.zip ys)
  | .error cause, _ | _, .error cause => .fault cause

/-- No difference is shown. -/
def nothing : Differ := fun _ _ _ _ => .done none

/-- A fault in the place of a difference. -/
def faulty (cause : Fault) : Differ := fun _ _ _ _ => .fault cause

end Differ

end Expectation

import Expectation.Fault
import Expectation.Value.Equality

/-!
# Templates of values

A template says how to build a value: what is known is used as it is, and all else is placed in
the store anew each time the template is built. A registered type is looked up when it is needed.
A dictionary takes in its entries in turn; a value that cannot be a key ends the building.
-/

namespace Expectation

/-- How to build a value. -/
inductive Template where
  | known (value : Ref)
  | fresh (node : Node)
  | list (items : List Template)
  | tuple (items : List Template)
  | dict (entries : List (Template × Template))
  | classifier (engine name : Text)
  | faulty (cause : Fault)

/-- Finds the type that is registered under a name in the engine of a name. -/
abbrev ClassifierSearch := (engine name : Text) → Except Fault Ref

namespace Template

/-- The template of an element of a value. -/
def ofElement (element : Ref) : Template :=
  match element with
  | .passing c _ => fresh (.text [c])
  | _ => known element

mutual

/-- Build a value. -/
def build (search : ClassifierSearch) (s : Store) : Template → Except Fault (Ref × Store)
  | known value => .ok (value, s)
  | fresh node => .ok (s.put node)
  | list items => do
    let (refs, s) ← buildAll search s items
    pure (s.put (.list refs))
  | tuple items => do
    let (refs, s) ← buildAll search s items
    pure (s.put (.tuple refs))
  | dict entries => do
    let (pairs, s) ← buildEntries search s [] entries
    pure (s.put (.dict pairs))
  | classifier engine name => (search engine name).map fun found => (found, s)
  | faulty cause => .error cause

/-- Build values in order. -/
def buildAll (search : ClassifierSearch) (s : Store) :
    List Template → Except Fault (List Ref × Store)
  | [] => .ok ([], s)
  | item :: items => do
    let (ref, s) ← build search s item
    let (refs, s) ← buildAll search s items
    pure (ref :: refs, s)

/-- Build keys and values in order and add them to the entries there are. -/
def buildEntries (search : ClassifierSearch) (s : Store) (done : List (Ref × Ref)) :
    List (Template × Template) → Except Fault (List (Ref × Ref) × Store)
  | [] => .ok (done, s)
  | (key, value) :: entries => do
    let (keyRef, s) ← build search s key
    let (valueRef, s) ← build search s value
    if s.isKey keyRef then buildEntries search s (s.dictEntries done [(keyRef, valueRef)]) entries
    else .error .unsupported

end

end Template

end Expectation

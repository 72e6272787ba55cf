import Expectation.Document.Console
import Expectation.Engine.Basic

/-!
# What the library gives by name

A name under which the library has nothing is looked up: the engine that is shared by default stands
under one, and any other is missing. A document can be rendered in a format that is given by name.
-/

namespace Expectation

/-- The name under which the library is asked. -/
def libraryName : Text := "assertive"

/-- The text that reports a missing name. -/
def missingNameMessage (name : Text) : Text :=
  ("module " : Text) ++ Text.quoted libraryName ++ (" has no attribute " : Text) ++ Text.quoted name

/-- What stands under a name that is looked up: the shared engine, made with some settings, or the
text that reports that the name is missing. Follows `__getattr__`, `assertive:34–37`. -/
def lookUp (settings : Settings) (name : Text) : Except Text Engine :=
  if name = "expect" then .ok (.create settings) else .error (missingNameMessage name)

/-- A document in the format that a value names, at a width. -/
def Console.renderAs (console : Console) (d : Document) (s : Store) (format : Ref) (width : Int) :
    Except Fault Text :=
  match (s.text? format).bind Format.ofName? with
  | some format => .ok (console.render d width format)
  | none => .error (Store.naming .unknownFormat (s.shown format))

end Expectation

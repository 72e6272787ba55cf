import Expectation.Settings
import Expectation.Assertion.Registry

/-!
# Engines

An engine holds settings, registered types and assertions, and the format in which it renders
failures. A clone starts with the same and goes its own way. Setting a format that does not exist
is refused and changes nothing.
-/

namespace Expectation

/-- A configured assertion engine. Follows `Expect`, `assertive.engine:58–90`. -/
structure Engine where
  settings : Settings
  classifiers : ClassifierRegistry
  assertions : AssertionRegistry
  format : Text

namespace Engine

/-- The name of the format at first: the one asked for, unless none is or it is the empty one.
Follows `assertive.engine:90`. -/
def firstFormat (settings : Settings) : Option Text → Text
  | none | some [] => settings.outputFormat.name
  | some name => name

/-- An engine with some types and without assertions. -/
def ofTypes (types : ClassifierRegistry) (settings : Settings) (format : Option Text) : Engine :=
  ⟨settings, types, .initial, firstFormat settings format⟩

/-- An engine that knows the universal type and no assertion. Follows `Expect.create`,
`assertive.engine:92–94`. -/
def create (settings : Settings) : Engine := ofTypes .initial settings none

/-- An independent engine with the same settings, types, assertions and format. Follows
`Expect.clone`, `assertive.engine:358–365`. -/
def clone (e : Engine) : Engine :=
  { e with
    classifiers := e.classifiers.copy
    assertions := e.assertions.copy
    format := firstFormat e.settings (some e.format) }

/-- An empty document with the engine's indentation. Follows `Expect.new_output`,
`assertive.engine:239–240`. -/
def newDocument (e : Engine) : Document := .empty e.settings.indentWidth

/-- The fault of a value that names no format. -/
def refusedFormat (s : Store) (value : Ref) : Fault :=
  Store.naming (fun form => .configuration (.unknownFormat form)) (s.shown value)

/-- The engine with a format given by a value: the name of a format, or the none value to leave the
format as it is. Follows `Expect.output_format`, `assertive.engine:230–237`. -/
def setFormat (e : Engine) (s : Store) (value : Ref) : Except Fault Engine :=
  match s.node value with
  | .none => .ok e
  | .text name =>
    match Format.ofName? name with
    | some _ => .ok { e with format := name }
    | none => .error (refusedFormat s value)
  | _ => .error (refusedFormat s value)

/-- The registered names, one a line, in ascending order. Follows `Expect.__str__`,
`assertive.engine:367–368`. -/
def listing (e : Engine) : Text := Text.joinWith ['\n'] e.assertions.allNames

/-- The form of an engine that tells its types and format. Follows `Expect.__repr__`,
`assertive.engine:370–371`. -/
def shown (e : Engine) : Text :=
  ("Expect(types=[" : Text) ++
    Text.joinWith ", " (e.classifiers.newestFirst.map fun type => Text.quoted type.name) ++
    ("], format=" : Text) ++ Text.quoted e.format ++ [')']

end Engine

end Expectation

import Expectation.Text.Basic

/-!
# Output formats

A document is rendered as plain text, for a terminal, or as HTML.
-/

namespace Expectation

/-- How a document is rendered. Follows `FORMATS`, `assertive.output:17`. -/
inductive Format where
  | text
  | ansi
  | html
  deriving Repr, DecidableEq

namespace Format

/-- The name that selects a format. -/
def name : Format → Text
  | text => "text"
  | ansi => "ansi"
  | html => "html"

/-- The format that a name selects. -/
def ofName? (name : Text) : Option Format := [text, ansi, html].find? (·.name = name)

theorem ofName?_name (format : Format) : ofName? format.name = some format := by
  cases format <;> decide

theorem ofName?_eq_some_iff (name : Text) (format : Format) :
    ofName? name = some format ↔ name = format.name := by
  constructor
  · intro h
    have := List.find?_some h
    simpa using (of_decide_eq_true this).symm
  · rintro rfl
    exact ofName?_name format

end Format

end Expectation

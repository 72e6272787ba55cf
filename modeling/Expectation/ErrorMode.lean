import Expectation.Text.Basic

/-!
# Error modes

An assertion that fails because an assertion nested in it failed reports its own message, the
nested one, or both.
-/

namespace Expectation

/-- How an assertion's failure takes in the failure of a nested assertion. Follows `ErrorMode`,
`assertive.context:22–27`. -/
inductive ErrorMode where
  | default
  | bubble
  | nested
  deriving Repr, DecidableEq

namespace ErrorMode

/-- The word that selects a mode. -/
def word : ErrorMode → Text
  | default => "default"
  | bubble => "bubble"
  | nested => "nested"

/-- The mode that a word selects. -/
def ofWord? (word : Text) : Option ErrorMode :=
  [default, bubble, nested].find? (·.word = word)

/-- The name under which a mode is shown as text. -/
def label : ErrorMode → Text
  | default => "ErrorMode.DEFAULT"
  | bubble => "ErrorMode.BUBBLE"
  | nested => "ErrorMode.NESTED"

/-- The form in which a mode is shown as a value. -/
def shown (mode : ErrorMode) : Text :=
  '<' :: mode.label ++ (": '" : Text) ++ mode.word ++ ("'>" : Text)

end ErrorMode

end Expectation

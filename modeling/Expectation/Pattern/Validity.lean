import Expectation.Text.Blank

/-!
# Valid patterns

A pattern is text, is not empty, begins and ends with no blank character, and its brackets and
parentheses are balanced and do not hold each other; flags and alternatives are not empty. The
text is read once from left to right, counting the four delimiters, and the first offence found
names the fault.
-/

namespace Expectation

/-- What is wrong with a pattern. -/
inductive PatternFault where
  | empty
  | blankEdge
  | flagWithBracket (pattern : Text)
  | flagWithParenthesis (pattern : Text)
  | emptyFlag (pattern : Text)
  | choiceWithParenthesis (pattern : Text)
  | choiceWithBracket (pattern : Text)
  | emptyAlternative (pattern : Text)
  | unbalancedBrackets (pattern : Text)
  | unbalancedParentheses (pattern : Text)
  | onlyFlags
  deriving Repr, DecidableEq

namespace PatternFault

/-- A message that ends by quoting the pattern. -/
private def about (complaint pattern : Text) : Text :=
  ("Assertion patterns must not contain " : Text) ++ complaint ++ ": '" ++ pattern ++ "'"

/-- The text that reports a fault. -/
def message : PatternFault → Text
  | empty => "Assertion patterns must be a non empty string"
  | blankEdge => "Assertion patterns can't start or end with whitespace"
  | flagWithBracket pattern => about "flags with brackets" pattern
  | flagWithParenthesis pattern => about "flags with parentheses" pattern
  | emptyFlag pattern => about "empty flags" pattern
  | choiceWithParenthesis pattern => about "alternations with parentheses" pattern
  | choiceWithBracket pattern => about "alternations with brackets" pattern
  | emptyAlternative pattern => about "empty alternations" pattern
  | unbalancedBrackets pattern => about "unbalanced brackets" pattern
  | unbalancedParentheses pattern => about "unbalanced parentheses" pattern
  | onlyFlags => "Assertion patterns must not only contain flags"

end PatternFault

namespace Pattern

/-- The delimiters met so far and the last character read. -/
structure Tally where
  openBrackets : Nat
  closeBrackets : Nat
  openParens : Nat
  closeParens : Nat
  previous : Option Char
  deriving Repr, DecidableEq

namespace Tally

/-- The tally before the first character. -/
def start : Tally := ⟨0, 0, 0, 0, none⟩

/-- Count a character, leaving the last character read as it was. -/
def count (tally : Tally) (c : Char) : Tally :=
  if c = '[' then { tally with openBrackets := tally.openBrackets + 1 }
  else if c = ']' then { tally with closeBrackets := tally.closeBrackets + 1 }
  else if c = '(' then { tally with openParens := tally.openParens + 1 }
  else if c = ')' then { tally with closeParens := tally.closeParens + 1 }
  else tally

/-- The offence of a closing bracket, with the bracket counted. Follows `assertive.patterns:53–59`.
-/
def closingBracket? (pattern : Text) (tally : Tally) : Option PatternFault :=
  if tally.openBrackets < tally.closeBrackets then none
  else if tally.openBrackets = tally.closeBrackets + 1 then some (.flagWithBracket pattern)
  else if tally.openParens ≠ tally.closeParens then some (.flagWithParenthesis pattern)
  else if tally.previous = some '[' then some (.emptyFlag pattern)
  else none

/-- The offence of a closing parenthesis against nesting, with the parenthesis counted. Follows
`assertive.patterns:60–68`. -/
def closingParen? (pattern : Text) (tally : Tally) : Option PatternFault :=
  if tally.openParens < tally.closeParens then none
  else if tally.openParens = tally.closeParens + 1 then some (.choiceWithParenthesis pattern)
  else if tally.openBrackets ≠ tally.closeBrackets then some (.choiceWithBracket pattern)
  else none

/-- The offence of an alternative that ends, at a bar or a parenthesis, where it began. Follows
`assertive.patterns:70–71`. -/
def endOfAlternative? (pattern : Text) (tally : Tally) : Option PatternFault :=
  if tally.openParens < tally.closeParens then none
  else if tally.previous = some '(' ∨ tally.previous = some '|' then
    some (.emptyAlternative pattern)
  else none

/-- The offence of a character that has been counted. Follows `assertive.patterns:48–71`. -/
def offence? (pattern : Text) (tally : Tally) (c : Char) : Option PatternFault :=
  if c = ']' then closingBracket? pattern tally
  else if c = ')' then closingParen? pattern tally <|> endOfAlternative? pattern tally
  else if c = '|' then endOfAlternative? pattern tally
  else none

/-- The offence of a pattern that has been read to its end. Follows `assertive.patterns:73–76`. -/
def imbalance? (pattern : Text) (tally : Tally) : Option PatternFault :=
  if tally.openBrackets ≠ tally.closeBrackets then some (.unbalancedBrackets pattern)
  else if tally.openParens ≠ tally.closeParens then some (.unbalancedParentheses pattern)
  else none

/-- The first offence in the rest of a pattern, read from a tally. Follows
`_ensure_valid_use_of_parentheses_or_brackets`, `assertive.patterns:46–76`. -/
def firstOffence? (pattern : Text) (tally : Tally) : (rest : Text) → Option PatternFault
  | [] => imbalance? pattern tally
  | c :: rest =>
    offence? pattern (tally.count c) c <|>
      firstOffence? pattern { tally.count c with previous := some c } rest

end Tally

/-- What is wrong with a pattern, if anything. Follows `ensure_valid_pattern`,
`assertive.patterns:36–43`. -/
def fault? (pattern : Text) : Option PatternFault :=
  if pattern = [] then some .empty
  else if pattern ≠ pattern.strip then some .blankEdge
  else Tally.firstOffence? pattern .start pattern

/-- A pattern in which nothing is wrong. -/
def Valid (pattern : Text) : Prop := fault? pattern = none

instance (pattern : Text) : Decidable (Valid pattern) :=
  inferInstanceAs (Decidable (fault? pattern = none))

end Pattern

end Expectation

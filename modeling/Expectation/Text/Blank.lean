import Expectation.Text.Basic
import Expectation.Text.CodeRange

/-!
# Blank characters

White space is the Unicode property of that name. Blank characters are white space and the four
information separators U+001C to U+001F; names and patterns may not begin or end with one.
-/

namespace Expectation

/-- The characters with the Unicode property White_Space. -/
def whiteSpaceRanges : CodeRanges :=
  [(0x09, 0x0D), (0x20, 0x20), (0x85, 0x85), (0xA0, 0xA0), (0x1680, 0x1680), (0x2000, 0x200A),
    (0x2028, 0x2029), (0x202F, 0x202F), (0x205F, 0x205F), (0x3000, 0x3000)]

/-- A character with the Unicode property White_Space. -/
def isWhiteSpace (c : Char) : Bool := whiteSpaceRanges.holds c

/-- White space or an information separator. -/
def isBlank (c : Char) : Bool := isWhiteSpace c || (0x1C ≤ c.toNat && c.toNat ≤ 0x1F)

/-- A text without the blank characters at its two ends. -/
def Text.strip (t : Text) : Text := t.trimBoth isBlank

end Expectation

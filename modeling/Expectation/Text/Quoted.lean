import Expectation.Text.Basic
import Expectation.Text.Printable

/-!
# Quoted text

Text and bytes are shown between quotes. The quote is a single one, unless the content holds a
single quote and no double one. The quote and the backslash are escaped by a backslash, tab,
newline and carriage return have short escapes, and what is not printable is given by its code in
hexadecimal, in the least of the forms of two, four and eight digits that holds it.
-/

namespace Expectation

/-- The last `width` hexadecimal digits of a number, in lower case. -/
def hexDigits : (width : Nat) → (n : Nat) → Text
  | 0, _ => []
  | width + 1, n => hexDigits width (n / 16) ++ [Nat.digitChar (n % 16)]

/-- A code in the shortest hexadecimal escape that holds it. -/
def hexEscape (code : Nat) : Text :=
  if code < 0x100 then '\\' :: 'x' :: hexDigits 2 code
  else if code < 0x10000 then '\\' :: 'u' :: hexDigits 4 code
  else '\\' :: 'U' :: hexDigits 8 code

namespace Text

/-- The quote that a content with these characters is shown between. -/
def quoteFor (content : Text) : Char :=
  if '\'' ∈ content ∧ '"' ∉ content then '"' else '\''

/-- One character of quoted text. -/
def quotedChar (quote c : Char) : Text :=
  if c = quote ∨ c = '\\' then ['\\', c]
  else if c = '\t' then ['\\', 't']
  else if c = '\n' then ['\\', 'n']
  else if c = '\r' then ['\\', 'r']
  else if isPrintable c then [c]
  else hexEscape c.toNat

/-- A text between quotes. -/
def quoted (t : Text) : Text :=
  let quote := quoteFor t
  quote :: t.flatMap (quotedChar quote) ++ [quote]

end Text

/-- One byte of quoted bytes: an ASCII character as in quoted text, any other by its code. -/
def quotedByte (quote : Char) (b : UInt8) : Text :=
  if b.toNat < 0x7F then Text.quotedChar quote (Char.ofNat b.toNat) else hexEscape b.toNat

/-- Bytes between quotes, after the letter b. -/
def quotedBytes (bytes : List UInt8) : Text :=
  let quote := Text.quoteFor (bytes.map fun b => Char.ofNat b.toNat)
  'b' :: quote :: bytes.flatMap (quotedByte quote) ++ [quote]

end Expectation

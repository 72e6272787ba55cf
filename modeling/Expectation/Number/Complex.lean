import Expectation.Number.Decimal

/-!
# Complex numbers as text

A complex number is written as the sum of its parts in parentheses, the imaginary part followed by
the letter j; a positive zero for a real part is left out, with the parentheses. Whole parts have
no point.
-/

namespace Expectation.Binary64

/-- The positive zero. -/
def zero : Binary64 := finite false 0 minExponent

/-- The text of a complex number. -/
def complexText (re im : Binary64) : Text :=
  let imaginary := DecimalLayout.component.text im ++ ['j']
  if re = zero then imaginary
  else
    let sign : Text := if imaginary.head? = some '-' then [] else ['+']
    '(' :: DecimalLayout.component.text re ++ sign ++ imaginary ++ [')']

/-- The length of the real part of a sum: up to the last sign that is not of an exponent. -/
def realLength (text : Text) : Nat :=
  go 0 0 none text
where
  /-- Go on from a position, with the length found so far and the character before. -/
  go (found position : Nat) (previous : Option Char) : Text → Nat
    | [] => found
    | c :: rest =>
      let splits := (c = '+' ∨ c = '-') ∧ previous ≠ some 'e' ∧ position ≠ 0
      go (if splits then position else found) (position + 1) (some c) rest

/-- Read the text of a complex number as its parts. -/
def readComplex? (text : Text) : Option (Binary64 × Binary64) :=
  let body := text.filter fun c => c ≠ '(' ∧ c ≠ ')' ∧ c ≠ 'j'
  let length := realLength body
  let re? := if length = 0 then some zero else read? (body.take length)
  match re?, read? (body.drop length) with
  | some re, some im => some (re, im)
  | _, _ => none

end Expectation.Binary64

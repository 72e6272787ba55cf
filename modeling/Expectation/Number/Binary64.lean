/-!
# Binary floating point

A number of the 64-bit binary format of IEEE 754 is not a number, infinite, or a sign with a
significand below 2^53 and an exponent from -1074 to 971. A fraction is rounded to the nearest such
number, and of two equally near ones to that with an even significand. Numbers are compared with
each other and with integers by their exact values.
-/

namespace Expectation

/-- A number of the binary64 format. -/
inductive Binary64 where
  | nan
  | infinite (negative : Bool)
  | finite (negative : Bool) (significand : Nat) (exponent : Int)
  deriving Repr, DecidableEq

/-- A fraction; the denominator of a value is positive. -/
structure Fraction where
  num : Int
  den : Nat
  deriving Repr, DecidableEq

namespace Fraction

/-- An integer as a fraction. -/
def ofInt (n : Int) : Fraction := ⟨n, 1⟩

/-- Equality of values. -/
def same (a b : Fraction) : Bool := a.num * b.den = b.num * a.den

/-- Strict order of values. -/
def less (a b : Fraction) : Bool := a.num * b.den < b.num * a.den

/-- Difference of values. -/
def sub (a b : Fraction) : Fraction := ⟨a.num * b.den - b.num * a.den, a.den * b.den⟩

end Fraction

namespace Binary64

/-- The least exponent. -/
def minExponent : Int := -1074

/-- The greatest exponent. -/
def maxExponent : Int := 971

/-- The number of bits of a significand. -/
def precision : Nat := 53

/-- The quotient of two naturals rounded to the nearest, a half to the even neighbour. -/
def roundDiv (num den : Nat) : Nat :=
  let quotient := num / den
  let twice := 2 * (num % den)
  if den < twice ∨ (twice = den ∧ quotient % 2 = 1) then quotient + 1 else quotient

/-- The fraction `num / den` divided by a power of two, as a fraction. -/
def shifted (num den : Nat) (exponent : Int) : Nat × Nat :=
  if 0 ≤ exponent then (num, den * Nat.pow 2 exponent.toNat)
  else (num * Nat.pow 2 (-exponent).toNat, den)

/-- The finite number of a significand and exponent, or infinity if they are too great. -/
def pack (negative : Bool) (significand : Nat) (exponent : Int) : Binary64 :=
  let (significand, exponent) :=
    if Nat.pow 2 precision ≤ significand then (significand / 2, exponent + 1)
    else (significand, exponent)
  if maxExponent < exponent then infinite negative
  else if significand = 0 then finite negative 0 minExponent
  else finite negative significand exponent

/-- The number nearest to `num / den`, with a sign. -/
def round (negative : Bool) (num den : Nat) : Binary64 :=
  let estimate : Int := (Nat.log2 num : Int) - Nat.log2 den - precision
  let low := max minExponent estimate
  let (n, d) := shifted num den low
  let exponent := if Nat.pow 2 precision ≤ n / d then low + 1 else low
  let (n, d) := shifted num den exponent
  pack negative (roundDiv n d) exponent

/-- The number nearest to a fraction. -/
def ofFraction (x : Fraction) : Binary64 := round (x.num < 0) x.num.natAbs x.den

/-- The exact value of a finite number. -/
def value? : Binary64 → Option Fraction
  | nan => none
  | infinite _ => none
  | finite negative significand exponent =>
    let magnitude : Fraction :=
      if 0 ≤ exponent then ⟨significand * Nat.pow 2 exponent.toNat, 1⟩
      else ⟨significand, Nat.pow 2 (-exponent).toNat⟩
    some (if negative then ⟨-magnitude.num, magnitude.den⟩ else magnitude)

/-- Equality of numbers: nothing equals what is not a number, and the two zeros are equal. -/
def same : Binary64 → Binary64 → Bool
  | nan, _ | _, nan => false
  | infinite a, infinite b => a = b
  | x, y =>
    match x.value?, y.value? with
    | some a, some b => a.same b
    | _, _ => false

/-- A number exceeds another; nothing exceeds or is exceeded by what is not a number. -/
def exceeds : Binary64 → Binary64 → Bool
  | nan, _ | _, nan => false
  | infinite a, infinite b => !a && b
  | infinite a, finite .. => !a
  | finite .., infinite b => b
  | x, y =>
    match x.value?, y.value? with
    | some a, some b => b.less a
    | _, _ => false

/-- Equality of a number and an integer. -/
def sameInt (x : Binary64) (n : Int) : Bool :=
  match x.value? with
  | some a => a.same (.ofInt n)
  | none => false

/-- The number is zero. -/
def isZero : Binary64 → Bool
  | finite _ significand _ => significand = 0
  | _ => false

/-- The number one less. -/
def pred (x : Binary64) : Binary64 :=
  match x.value? with
  | some a => ofFraction (a.sub (.ofInt 1))
  | none => x

/-- The integer that a number equals, if there is one. -/
def toInt? (x : Binary64) : Option Int :=
  match x.value? with
  | some a => if a.num % a.den = 0 then some (a.num / a.den) else none
  | none => none

end Binary64

end Expectation

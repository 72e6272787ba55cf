import Expectation.Text.Basic
import Expectation.Number.Binary64

/-!
# Decimal text of binary numbers

A finite number is written with the fewest digits that read back as it; of the texts with that
many digits the nearest is taken, and of two equally near ones that with an even last digit. A
number reads back if it lies in the interval of the reals that round to it. How the digits are laid
out is a `DecimalLayout`. Reading rounds the decimal fraction to the nearest number.
-/

namespace Expectation

/-- Decimal digits and the position of the point: `0.digits * 10 ^ point`. -/
structure DecimalDigits where
  digits : Nat
  point : Int
  deriving Repr, DecidableEq

namespace Binary64

/-- The reals that round to a number, in units of `2 ^ unit`. -/
structure Interval where
  low : Nat
  mid : Nat
  high : Nat
  closed : Bool
  unit : Int
  deriving Repr, DecidableEq

/-- The interval of a positive significand and its exponent. -/
def interval (significand : Nat) (exponent : Int) : Interval where
  low := if significand = Nat.pow 2 (precision - 1) ∧ minExponent < exponent
    then 4 * significand - 1 else 4 * significand - 2
  mid := 4 * significand
  high := 4 * significand + 2
  closed := significand % 2 = 0
  unit := exponent - 2

/-- `candidate * 10 ^ grid` compared with units of `2 ^ unit`: both as multiples of one measure. -/
def candidateScale (grid unit : Int) : Nat :=
  Nat.pow 10 grid.toNat * Nat.pow 2 (-unit).toNat

/-- The factor that brings units of `2 ^ unit` to the measure of `candidateScale`. -/
def unitScale (grid unit : Int) : Nat :=
  Nat.pow 2 unit.toNat * Nat.pow 10 (-grid).toNat

/-- `candidate * 10 ^ grid` lies in the interval. -/
def Interval.holds (i : Interval) (grid : Int) (candidate : Nat) : Bool :=
  let c := candidate * candidateScale grid i.unit
  let low := i.low * unitScale grid i.unit
  let high := i.high * unitScale grid i.unit
  if i.closed then low ≤ c && c ≤ high else low < c && c < high

/-- The best multiple of `10 ^ grid` in the interval, if the two around the middle hold one. -/
def Interval.onGrid? (i : Interval) (grid : Int) : Option Nat :=
  let mid := i.mid * unitScale grid i.unit
  let step := candidateScale grid i.unit
  let below := mid / step
  let gapBelow := mid - below * step
  let gapAbove := (below + 1) * step - mid
  match i.holds grid below, i.holds grid (below + 1) with
  | true, true =>
    if gapBelow < gapAbove ∨ (gapBelow = gapAbove ∧ below % 2 = 0) then some below
    else some (below + 1)
  | true, false => some below
  | false, true => some (below + 1)
  | false, false => none

/-- The decimal exponent `p` with `10 ^ (p - 1) ≤ mid < 10 ^ p` for the middle of an interval. -/
def Interval.magnitude (i : Interval) : Int :=
  let scaled := i.mid * unitScale (-400) i.unit / candidateScale (-400) i.unit
  (Nat.toDigits 10 scaled).length - 400

/-- A multiple of a power of ten without zeros at its end. -/
def trimZeros : (fuel : Nat) → Nat → Nat
  | 0, n => n
  | fuel + 1, n => if n ≠ 0 ∧ n % 10 = 0 then trimZeros fuel (n / 10) else n

/-- The digits found on the coarsest of the grids that are left. -/
def Interval.search (i : Interval) (magnitude : Int) : (grids : List Nat) → DecimalDigits
  | [] => ⟨0, 0⟩
  | count :: grids =>
    let grid := magnitude - count
    match i.onGrid? grid with
    | some found =>
      let digits := trimZeros 20 found
      ⟨digits, grid + (Nat.toDigits 10 found).length⟩
    | none => i.search magnitude grids

/-- The shortest digits that read back as a number with a positive significand. -/
def shortest (significand : Nat) (exponent : Int) : DecimalDigits :=
  let i := interval significand exponent
  i.search i.magnitude ((List.range 17).map (· + 1))

end Binary64

/-- How the digits of a number are laid out. -/
structure DecimalLayout where
  lowest : Int
  limit : Int
  pointZero : Bool
  exponentDigits : Nat
  deriving Repr, DecidableEq

namespace DecimalLayout

/-- Positional from 0.0001 up to below 10^16, a whole number with a zero after the point. -/
def number : DecimalLayout := ⟨-4, 16, true, 2⟩

/-- As `number`, but a whole number without a point. -/
def component : DecimalLayout := ⟨-4, 16, false, 2⟩

/-- The exponent of scientific notation: a sign and at least so many digits. -/
def exponent (layout : DecimalLayout) (n : Int) : Text :=
  let digits := Text.ofNat n.natAbs
  (if n < 0 then '-' else '+') ::
    List.replicate (layout.exponentDigits - digits.length) '0' ++ digits

/-- Lay out digits that are not all zero. -/
def digits (layout : DecimalLayout) (d : DecimalDigits) : Text :=
  let text := Text.ofNat d.digits
  let first := d.point - 1
  if layout.lowest ≤ first ∧ first < layout.limit then
    if d.point ≤ 0 then '0' :: '.' :: List.replicate (-d.point).toNat '0' ++ text
    else if text.length ≤ d.point.toNat then
      text ++ List.replicate (d.point.toNat - text.length) '0' ++
        (if layout.pointZero then ['.', '0'] else [])
    else text.take d.point.toNat ++ '.' :: text.drop d.point.toNat
  else
    match text with
    | [] => []
    | [c] => c :: 'e' :: layout.exponent first
    | c :: rest => c :: '.' :: rest ++ 'e' :: layout.exponent first

/-- The text of a number. -/
def text (layout : DecimalLayout) : Binary64 → Text
  | .nan => "nan"
  | .infinite negative => if negative then "-inf" else "inf"
  | .finite negative significand e =>
    let magnitude :=
      if significand = 0 then (if layout.pointZero then "0.0" else "0" : Text)
      else layout.digits (Binary64.shortest significand e)
    if negative then '-' :: magnitude else magnitude

end DecimalLayout

namespace Binary64

/-- The text of a number as a value of its own. -/
def text (x : Binary64) : Text := DecimalLayout.number.text x

/-- The digits of a decimal fraction and the power of ten of the last. -/
structure Scientific where
  digits : Nat
  exponent : Int
  deriving Repr, DecidableEq

/-- The nearest number to a decimal fraction. -/
def ofScientific (negative : Bool) (s : Scientific) : Binary64 :=
  if 0 ≤ s.exponent then round negative (s.digits * Nat.pow 10 s.exponent.toNat) 1
  else round negative s.digits (Nat.pow 10 (-s.exponent).toNat)

/-- The natural number of ASCII digits; none if there are no digits or other characters. -/
def readNat? (t : Text) : Option Nat :=
  if t ≠ [] ∧ t.all Char.isDigit then
    some (t.foldl (fun n c => n * 10 + (c.toNat - '0'.toNat)) 0)
  else none

/-- An integer of ASCII digits after an optional sign. -/
def readInt? : Text → Option Int
  | '-' :: rest => (readNat? rest).map fun n => -(n : Int)
  | '+' :: rest => (readNat? rest).map fun n => (n : Int)
  | t => (readNat? t).map fun n => (n : Int)

/-- Read digits with an optional point and an optional exponent. -/
def readScientific? (t : Text) : Option Scientific :=
  let mantissa := t.takeWhile (· ≠ 'e')
  let exponent? : Option Int :=
    match t.dropWhile (· ≠ 'e') with
    | [] => some 0
    | _ :: rest => readInt? rest
  let whole := mantissa.takeWhile (· ≠ '.')
  let fraction := (mantissa.dropWhile (· ≠ '.')).drop 1
  match readNat? (whole ++ fraction), exponent? with
  | some digits, some exponent => some ⟨digits, exponent - fraction.length⟩
  | _, _ => none

/-- Read the text of a number without its sign. -/
def readUnsigned? (negative : Bool) (t : Text) : Option Binary64 :=
  if t = ("nan" : Text) then some nan
  else if t = ("inf" : Text) then some (infinite negative)
  else (readScientific? t).map (ofScientific negative)

/-- Read the text of a number. -/
def read? : Text → Option Binary64
  | '-' :: rest => readUnsigned? true rest
  | '+' :: rest => readUnsigned? false rest
  | t => readUnsigned? false t

end Binary64

end Expectation

import Expectation.Fault
import Expectation.Text.Blank
import Expectation.Document.Format
import Expectation.Number.Decimal
import Expectation.Value.Store

/-!
# Settings

An engine is set up by five settings. Each has a default, which a variable of the environment
replaces and a value given directly replaces again; the case of the letters in their names does not
matter. Settings that are not accepted are reported together, in the order of the fields, before
the fields that do not exist.

An integer may be given as such, as a truth value, as a floating-point number without a fraction
or as a numeral. A strict numeral is an optional minus sign and digits that do not begin with a
spare zero. Any other numeral is made strict: without the white space around it and a plus sign,
without a fraction of zeros, without the zeros and underscores that it begins with, and without
single underscores further on. What the zeros leave may begin with a minus sign of its own.
-/

namespace Expectation

/-- How an engine compares, inspects and renders. Follows `AssertiveSettings`,
`assertive.config:12–42`. -/
structure Settings where
  outputFormat : Format
  inspectDepth : Nat
  maxCompareDepth : Nat
  indentWidth : Nat
  renderWidth : Nat
  deriving Repr, DecidableEq

namespace Settings

/-- The settings of an engine when nothing is given. -/
def default : Settings := ⟨.text, 3, 100, 2, 100⟩

/-- A numeral without its minus sign. -/
def unsigned : Text → Text
  | '-' :: rest => rest
  | t => t

/-- The integer that a strict numeral writes. -/
def readStrict? (t : Text) : Option Int :=
  let digits := unsigned t
  if (digits.length > 1 && digits.head? = some '0') || longestNumeral < digits.length then none
  else
    (Binary64.readNat? digits).map fun n => if digits.length < t.length then -(n : Int) else n

/-- A text begins, after a minus sign if it has one, with more digits than are read. -/
def isOversized (t : Text) : Bool :=
  let digits := (unsigned t).takeWhile Char.isDigit
  digits.head? ≠ some '0' && longestNumeral < digits.length

/-- A numeral without a fraction of zeros; a point with no zero after it is no fraction. -/
def cutFraction (t : Text) : Text :=
  match t.dropWhile (· ≠ '.') with
  | '.' :: '0' :: zeros => if zeros.all (· = '0') then t.takeWhile (· ≠ '.') else t
  | _ => t

/-- A numeral without the zeros and underscores that it begins with, if it begins with a zero; the
last of them stays if there is nothing else. -/
def cutZeros (t : Text) : Text :=
  match t with
  | '0' :: _ =>
    match t.dropWhile fun c => c = '0' || c = '_' with
    | [] => t.drop (t.length - 1)
    | rest => rest
  | _ => t

/-- A numeral without its underscores, if each of them stands alone and none at an end. -/
def cutUnderscores (t : Text) : Text :=
  if t.head? = some '_' || t.getLast? = some '_' || Text.occursIn "__" t then t
  else t.filter (· ≠ '_')

/-- The strict form of a numeral without a sign, which begins with a digit. -/
def strictForm? (t : Text) : Option Text :=
  if (t.head?.map Char.isDigit).getD false then some (cutUnderscores (cutZeros (cutFraction t)))
  else none

/-- The integer that a numeral writes. -/
def readNumeral (t : Text) : Except Flaw Int :=
  if isOversized t then .error .oversized
  else
    let strict? :=
      match t.trimBoth isWhiteSpace with
      | '-' :: rest => (strictForm? rest).map ('-' :: ·)
      | '+' :: rest => strictForm? rest
      | rest => strictForm? rest
    match (readStrict? t).or (strict?.bind readStrict?) with
    | some value => .ok value
    | none => .error .notNumeral

/-- The text that bytes encode in UTF-8. -/
def decodeBytes? (bytes : List UInt8) : Option Text :=
  (String.fromUTF8? ⟨bytes.toArray⟩).map String.toList

/-- Floating-point numbers of this magnitude and above are not taken as integers. -/
def floatLimit : Nat := Nat.pow 2 63

/-- The integer that a value is taken as. -/
def readInteger : Node → Except Flaw Int
  | .bool value => .ok (if value then 1 else 0)
  | .integer value => .ok value
  | .float .nan => .error .notFinite
  | .float (.infinite _) => .error .notFinite
  | .float value =>
    match value.toInt? with
    | some n => if n.natAbs < floatLimit then .ok n else .error .oversized
    | none => .error .fractional
  | .text value => readNumeral value
  | .bytes value =>
    match decodeBytes? value with
    | some text => readNumeral text
    | none => .error .notNumeral
  | _ => .error .notInteger

/-- A setting that is a natural number: the value given, which may not be too small. -/
def readNatural (least : Nat) (value : Node) : Except Flaw Nat := do
  let n ← readInteger value
  if n < least then throw .tooSmall
  pure n.toNat

/-- A setting that is a format, given by its name. -/
def readFormat : Node → Except Flaw Format
  | .text name =>
    match Format.ofName? name with
    | some format => .ok format
    | none => .error .notChoice
  | _ => .error .notChoice

/-- The names of the settings. -/
def fieldNames : List Text :=
  ["output_format", "inspect_depth", "max_compare_depth", "indent_width", "render_width"]

/-- What the name of a setting is preceded by in the environment. -/
def environmentMark : Text := "assertive_"

/-- The first entry for a key, whatever the case of its letters. -/
def firstFor {α : Type} (key : Text) (entries : List (Text × α)) : Option α :=
  (entries.find? fun entry => Text.lowerAscii entry.1 = key).map Prod.snd

/-- What is given for a setting: the first value given directly, or else the last one of the
environment. -/
def given? (direct : List (Text × Node)) (environment : List (Text × Text)) (field : Text) :
    Option Node :=
  match firstFor field direct with
  | some value => some value
  | none => (firstFor (environmentMark ++ field) environment.reverse).map .text

/-- A setting: its default, or what is given as it is read. -/
def readField {α : Type} (default : α) (read : Node → Except Flaw α) : Option Node → Except Flaw α
  | none => .ok default
  | some value => read value

/-- The fault of a field, if it has one. -/
def faultOf {α : Type} (field : Text) : Except Flaw α → List FieldFault
  | .ok _ => []
  | .error flaw => [⟨field, flaw⟩]

/-- The settings from values given directly and from the environment. -/
def load (direct : List (Text × Node)) (environment : List (Text × Text)) :
    Except (List FieldFault) Settings :=
  let given := given? direct environment
  let format := readField default.outputFormat readFormat (given "output_format")
  let inspect := readField default.inspectDepth (readNatural 1) (given "inspect_depth")
  let compare := readField default.maxCompareDepth (readNatural 0) (given "max_compare_depth")
  let indent := readField default.indentWidth (readNatural 0) (given "indent_width")
  let width := readField default.renderWidth (readNatural 20) (given "render_width")
  let extras := (direct.map Prod.fst).filter (Text.lowerAscii · ∉ fieldNames)
  match format, inspect, compare, indent, width, extras with
  | .ok format, .ok inspect, .ok compare, .ok indent, .ok width, [] =>
    .ok ⟨format, inspect, compare, indent, width⟩
  | _, _, _, _, _, _ =>
    .error (faultOf "output_format" format ++ faultOf "inspect_depth" inspect ++
      faultOf "max_compare_depth" compare ++ faultOf "indent_width" indent ++
      faultOf "render_width" width ++ extras.map fun field => ⟨field, .extra⟩)

end Settings

end Expectation

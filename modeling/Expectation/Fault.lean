import Expectation.Identifier
import Expectation.Text.Quoted
import Expectation.Pattern.Validity

/-!
# Faults

Everything that can keep an operation from answering. A configuration fault is misuse of the
registration of types and assertions; an unknown assertion names what was asked for and what was
perhaps meant; a failed assertion is a failure of the session; invalid fields are listed one by
one. The wording of every fault stands here.
-/

namespace Expectation

/-- Why the value of a field is not accepted. -/
inductive Flaw where
  | missing
  | notText
  | unreadableText
  | blank
  | notCallable
  | extra
  | notChoice
  | notNumeral
  | oversized
  | notInteger
  | fractional
  | notFinite
  | tooSmall
  deriving Repr, DecidableEq

/-- The word under which a flaw is reported. -/
def Flaw.code : Flaw → Text
  | missing => "missing"
  | notText => "string_type"
  | unreadableText => "string_unicode"
  | blank => "value_error"
  | notCallable => "callable_type"
  | extra => "extra_forbidden"
  | notChoice => "literal_error"
  | notNumeral => "int_parsing"
  | oversized => "int_parsing_size"
  | notInteger => "int_type"
  | fractional => "int_from_float"
  | notFinite => "finite_number"
  | tooSmall => "greater_than_equal"

/-- A field whose value is not accepted. -/
structure FieldFault where
  field : Text
  flaw : Flaw
  deriving Repr, DecidableEq

/-- Misuse of the registration of types and assertions or of an engine's setup. Follows
`ConfigurationError`, `assertive.errors:16–17`. -/
inductive ConfigurationFault where
  | pattern (fault : PatternFault)
  | typeDefined (name : Text)
  | unknownBase (name : Text)
  | noSuchType (name : Text)
  | redefined (name : Text) (owner : Option Text)
  | handlerNotCallable
  | argumentCount
  | typeReference (shown : Text)
  | pluginNotCallable
  | unknownFormat (shown : Text)
  | unknownMode (text : Text)
  | invalidType (fields : List FieldFault)
  deriving Repr, DecidableEq

/-- The text that reports a configuration fault. -/
def ConfigurationFault.message : ConfigurationFault → Text
  | pattern fault => fault.message
  | typeDefined name => ("Type already defined: " : Text) ++ name
  | unknownBase name => ("Unknown base type: " : Text) ++ name
  | noSuchType name => ("No such type: " : Text) ++ name
  | redefined name none => ("Cannot redefine assertion: " : Text) ++ name
  | redefined name (some owner) =>
    ("Cannot redefine assertion: " : Text) ++ name ++ (" for type " : Text) ++ owner
  | handlerNotCallable => "Assertion handlers must be callable"
  | argumentCount => "add_assertion: Needs 2 or 3 arguments"
  | typeReference shown => ("Types must be given by name or as Type, got " : Text) ++ shown
  | pluginNotCallable => "Expected first argument given to install_plugin to be a function"
  | unknownFormat shown => ("Unknown output format: " : Text) ++ shown
  | unknownMode text => ("Unknown error mode: '" : Text) ++ text ++ ("'" : Text)
  | invalidType _ => "Invalid type definition"

/-- An assertion that does not exist for the type of the subject. Follows `UnknownAssertionError`,
`assertive.errors:20–52`. -/
structure UnknownAssertion where
  name : Text
  typeName : Text
  definedFor : List Text
  suggestion : Option Text
  deriving Repr, DecidableEq

namespace UnknownAssertion

/-- A text between double quotes, as it is. -/
def named (t : Text) : Text := '"' :: t ++ ['"']

/-- The text that reports an unknown assertion. -/
def message (u : UnknownAssertion) : Text :=
  match u.definedFor with
  | [] =>
    ("Unknown assertion " : Text) ++ named u.name ++
      match u.suggestion with
      | some suggestion => (", did you mean: " : Text) ++ named suggestion
      | none => []
  | types =>
    ("The assertion " : Text) ++ named u.name ++ (" is not defined for the type " : Text) ++
      named u.typeName ++ (", but it is defined for " : Text) ++
      match types with
      | [type] => ("the type " : Text) ++ named type
      | _ => ("these types: " : Text) ++ Text.joinWith ", " (types.map named)

end UnknownAssertion

/-- Why an operation did not answer. -/
inductive Fault where
  | configuration (cause : ConfigurationFault)
  | unknownAssertion (unknown : UnknownAssertion)
  | failure (id : FailureId)
  | circular
  | unknownFormat (shown : Text)
  | unknownModeWord (shown : Text)
  | nameNotText
  | unsupported
  | notByte
  | noPart
  | noElement
  | noKey
  | keysChanged
  | invalid (fields : List FieldFault)
  | raised (kind text : Text)
  | tooDeep
  deriving Repr, DecidableEq

/-- The most digits that an integer is read from or written with. -/
def longestNumeral : Nat := 4300

/-- The fault of an integer that is read from too many digits, of which the count is told, or that
would be written with too many. -/
def Fault.oversizedNumeral (digits : Option Nat) : Fault :=
  let counted : Text :=
    match digits with
    | some count => (": value has " : Text) ++ Text.ofNat count ++ (" digits" : Text)
    | none => []
  .raised "ValueError"
    (("Exceeds the limit (" : Text) ++ Text.ofNat longestNumeral ++
      (" digits) for integer string conversion" : Text) ++ counted ++
      ("; use sys.set_int_max_str_digits() to increase the limit" : Text))

/-- The numeral of an integer; its minus sign is no digit. -/
def numeral (value : Int) : Except Fault Text :=
  if longestNumeral < (Text.ofNat value.natAbs).length then .error (.oversizedNumeral none)
  else .ok (Text.ofInt value)

/-- The most values that a form has inside one another. -/
def deepestForm : Nat := 1000

/-- The fault of a value that nests too deep to have a form. -/
def Fault.tooNested : Fault :=
  .raised "RecursionError" "maximum recursion depth exceeded while getting the repr of an object"

/-- The least number with more than so many digits. -/
def leastBeyond (digits : Nat) : Nat := Nat.pow 10 digits

/-- From that number on, numbers have more than so many digits. -/
theorem lt_length_ofNat {digits n : Nat} (hpos : 0 < digits) (h : leastBeyond digits ≤ n) :
    digits < (Text.ofNat n).length := by
  refine Nat.lt_of_not_le fun hle => Nat.not_lt_of_le h ?_
  exact (Nat.length_toDigits_le_iff (by decide) hpos).1 hle

/-- An integer has no numeral from the least number with too many digits on. -/
theorem numeral_eq_error {value : Int} (h : leastBeyond longestNumeral ≤ value.natAbs) :
    numeral value = .error (.oversizedNumeral none) := by
  rw [numeral, if_pos (lt_length_ofNat (by decide) h)]

/-- The text that reports a fault, where the fault has one of its own. -/
def Fault.message? : Fault → Option Text
  | configuration cause => some cause.message
  | unknownAssertion unknown => some unknown.message
  | failure _ => none
  | circular => some "Cannot compare circular structures"
  | unknownFormat shown => some (("Unknown output format: " : Text) ++ shown)
  | unknownModeWord shown => some (shown ++ (" is not a valid ErrorMode" : Text))
  | nameNotText => some "The expect function requires the second parameter to be a string"
  | unsupported => none
  | notByte => some "byte must be in range(0, 256)"
  | noPart | noElement | noKey => none
  | keysChanged => some "dictionary changed size during iteration"
  | invalid _ => none
  | raised _ text => some text
  | tooDeep => some "maximum nesting depth exceeded"

end Expectation

import Expectation.Fault
import Expectation.Text.Quoted
import Expectation.Number.Complex
import Expectation.Value.Kind

/-!
# Text of values

`shown` is the form of a value that tells its kind: text is quoted, lists, tuples and dictionaries
show their parts, a context shows its name, flags and level, and a container inside itself is shown
by dots. `plain` is the same, except that a text, a document and an error mode are written as they
are. A value has neither if it is or holds an integer with too many digits, or nests too deep. A
`Report` is what a value tells to an observer outside.
-/

namespace Expectation

namespace Store

/-- The form of a value inside the containers `around`, nested at most so deep. -/
def shownWithin (s : Store) : (depth : Nat) → (around : List Ref) → Ref → Except Fault Text
  | 0, _, _ => .error .tooNested
  | depth + 1, around, r =>
    let part := shownWithin s depth (r :: around)
    let inside := decide (r ∈ around)
    let dots : Text := "\x7b...\x7d".toList
    match s.node r with
    | .none => .ok "None"
    | .bool value => .ok (if value then "True" else "False")
    | .integer value => numeral value
    | .float value => .ok value.text
    | .complex re im => .ok (Binary64.complexText re im)
    | .text value => .ok (Text.quoted value)
    | .bytes value => .ok (quotedBytes value)
    | .list items =>
      if inside then .ok "[...]"
      else do
        let forms ← items.mapM part
        pure ('[' :: Text.joinWith ", " forms ++ [']'])
    | .tuple items =>
      if inside then .ok "(...)"
      else do
        match ← items.mapM part with
        | [form] => pure ('(' :: form ++ [',', ')'])
        | forms => pure ('(' :: Text.joinWith ", " forms ++ [')'])
    | .dict entries =>
      if inside then .ok dots
      else do
        let forms ← entries.mapM fun entry => do
          let key ← part entry.1
          pure (key ++ (": " : Text) ++ (← part entry.2))
        pure ('\x7b' :: Text.joinWith ", " forms ++ ['\x7d'])
    | .object label => .ok ('<' :: label ++ ['>'])
    | .document value => .ok (("Output(" : Text) ++ Text.quoted value.plain ++ [')'])
    | .difference value =>
      .ok (("DiffResult(diff=Output(" : Text) ++ Text.quoted value.plain ++ ("))" : Text))
    | .handler _ | .function => .ok "<function>"
    | .classifier mark => .ok (("Type(name=" : Text) ++ Text.quoted mark.name ++ [')'])
    | .mode value => .ok value.shown
    | .context id =>
      let c := s.contextAt id
      -- The flags of a context that is inside itself are inside themselves.
      let flags :=
        if .context id ∈ around then .ok dots
        else shownWithin s depth (.context id :: around) c.flags
      flags.map fun flags =>
        ("AssertionContext(name=" : Text) ++ Text.quoted c.name ++ (", flags=" : Text) ++ flags ++
          (", nesting_level=" : Text) ++ Text.ofNat c.nesting ++ [')']

/-- The form of a value that tells its kind. -/
def shown (s : Store) (r : Ref) : Except Fault Text := s.shownWithin deepestForm [] r

/-- The form of a value as text. -/
def plain (s : Store) (r : Ref) : Except Fault Text :=
  match s.node r with
  | .text value => .ok value
  | .document value => .ok value.plain
  | .mode value => .ok value.label
  | _ => s.shown r

/-- The fault that names a value by a form of it; if there is none, the fault of that. -/
def naming (cause : Text → Fault) : (form : Except Fault Text) → Fault
  | .ok form => cause form
  | .error fault => fault

end Store

/-- What a value tells to an observer outside. -/
inductive Report where
  | none
  | bool (value : Bool)
  | integer (value : Int)
  | text (value : Text)
  | document (value : Document)
  | difference (value : Document)
  | shown (form : Text)
  deriving Repr, DecidableEq

/-- What the value of a reference tells to an observer outside. -/
def Store.report (s : Store) (r : Ref) : Except Fault Report :=
  match s.node r with
  | .none => .ok .none
  | .bool value => .ok (.bool value)
  | .integer value => .ok (.integer value)
  | .text value => .ok (.text value)
  | .document value => .ok (.document value)
  | .difference value => .ok (.difference value)
  | .mode value => .ok (.text value.word)
  | _ => (s.shown r).map .shown

end Expectation

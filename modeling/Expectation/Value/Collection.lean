import Expectation.Fault
import Expectation.Value.Equality

/-!
# Texts, bytes and containers as collections

Length, membership, order and elements of a value, or the fault that the value has no such
operation. The elements of a text are its characters, those of bytes numbers, and those of a
dictionary its keys. Elements that are visited one after another are those that the value has at
the time: a list may grow on the way, a dictionary may not.
-/

namespace Expectation

namespace Store

/-- The answer of a comparison that may nest too deep. -/
def answer (result : Option Bool) : Except Fault Bool :=
  match result with
  | some value => .ok value
  | none => .error .tooDeep

/-- The number of elements of a value. -/
def length (s : Store) (r : Ref) : Except Fault Nat :=
  match s.node r with
  | .text value => .ok value.length
  | .bytes value => .ok value.length
  | .list items => .ok items.length
  | .tuple items => .ok items.length
  | .dict entries => .ok entries.length
  | _ => .error .unsupported

/-- The elements of a value in order. -/
def elements (s : Store) (r : Ref) : Except Fault (List Ref) :=
  match s.node r with
  | .text value => .ok (value.map r.character)
  | .bytes value => .ok (value.map fun b => .small b.toNat)
  | .list items => .ok items
  | .tuple items => .ok items
  | .dict entries => .ok (entries.map Prod.fst)
  | _ => .error .unsupported

/-- The element of a value at a position when its elements are visited, if there is one; the value
had so many elements at first. -/
def visit (s : Store) (r : Ref) (size position : Nat) : Except Fault (Option Ref) :=
  match s.node r, s.elements r with
  | .dict _, .ok items => if items.length = size then .ok items[position]? else .error .keysChanged
  | _, .ok items => .ok items[position]?
  | _, .error cause => .error cause

/-- Some reference of a list matches. -/
def anyMatch (s : Store) (item : Ref) : List Ref → Option Bool
  | [] => some false
  | x :: rest =>
    match s.matching? x item with
    | some false => anyMatch s item rest
    | result => result

/-- A value is an element of another: a part of a text, a byte or a part of bytes, an item that
matches, or a key. -/
def holds (s : Store) (whole item : Ref) : Except Fault Bool :=
  match s.node whole, s.node item with
  | .text t, .text part => .ok (Text.occursIn part t)
  | .bytes t, .bytes part => .ok (Text.occursIn (part.map fun b => Char.ofNat b.toNat)
      (t.map fun b => Char.ofNat b.toNat))
  | .bytes t, .integer n =>
    if 0 ≤ n ∧ n < 256 then .ok (t.any fun b => (b.toNat : Int) = n)
    else .error .notByte
  | .bytes t, .bool b => .ok (t.any fun byte => byte.toNat = if b then 1 else 0)
  | .list items, _ => answer (s.anyMatch item items)
  | .tuple items, _ => answer (s.anyMatch item items)
  | .dict entries, _ =>
    if s.isKey item then answer ((s.lookup? item entries).map Option.isSome)
    else .error .unsupported
  | _, _ => .error .unsupported

/-- Strict order of sequences of bytes by their first difference, a beginning coming first. -/
def bytesPrecede : List UInt8 → List UInt8 → Bool
  | _, [] => false
  | [], _ :: _ => true
  | a :: s, b :: t => a < b || (a == b && bytesPrecede s t)

/-- The first pair of references that do not match, or the answer for equal beginnings. -/
def firstDifference (s : Store) : List Ref → List Ref → Option (Bool ⊕ Ref × Ref)
  | [], _ => some (.inl false)
  | _ :: _, [] => some (.inl true)
  | x :: xs, y :: ys =>
    match s.matching? x y with
    | some true => firstDifference s xs ys
    | some false => some (.inr (x, y))
    | none => none

/-- The first value exceeds the second, nested at most so deep. -/
def exceedsWithin (s : Store) : (depth : Nat) → Ref → Ref → Except Fault Bool
  | 0, _, _ => .error .tooDeep
  | depth + 1, a, b =>
    let ofItems (xs ys : List Ref) : Except Fault Bool :=
      match s.firstDifference xs ys with
      | some (.inl longer) => .ok longer
      | some (.inr (x, y)) => exceedsWithin s depth x y
      | none => .error .tooDeep
    match s.node a, s.node b with
    | .text x, .text y => .ok (Text.precedes y x)
    | .bytes x, .bytes y => .ok (bytesPrecede y x)
    | .list xs, .list ys => ofItems xs ys
    | .tuple xs, .tuple ys => ofItems xs ys
    | x, y =>
      match x.number?, y.number? with
      | some m, some n =>
        match m.exceeds? n with
        | some result => .ok result
        | none => .error .unsupported
      | _, _ => .error .unsupported

/-- The first value exceeds the second. -/
def exceeds (s : Store) (a b : Ref) : Except Fault Bool := s.exceedsWithin s.nesting a b

/-- The element of a value at a position, counted from zero. -/
def element (s : Store) (r : Ref) (position : Nat) : Except Fault Ref :=
  match s.node r with
  | .dict entries =>
    match answerEntry (s.lookup? (.small position) entries) with
    | .ok (some value) => .ok value
    | .ok none => .error .noKey
    | .error fault => .error fault
  | _ =>
    match s.elements r with
    | .ok items =>
      match items[position]? with
      | some item => .ok item
      | none => .error .noElement
    | .error fault => .error fault
where
  /-- The answer of a search that may nest too deep. -/
  answerEntry (result : Option (Option Ref)) : Except Fault (Option Ref) :=
    match result with
    | some entry => .ok entry
    | none => .error .tooDeep

end Store

end Expectation

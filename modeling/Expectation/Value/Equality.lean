import Expectation.Value.Kind

/-!
# Equality and order of values

Numbers are equal if their exact values are, truth values counting as 0 and 1. Texts and bytes are
equal if they hold the same; lists, and likewise tuples, if they are equally long and their items
match in turn; dictionaries if they have as many entries and every key of one is a key of the other
with a matching value. Two parts match if they are the same object or equal. Any other object
equals itself only. A comparison that nests deeper than the store has objects has no answer.
-/

namespace Expectation

/-- A number among the values. -/
inductive Number where
  | integer (value : Int)
  | float (value : Binary64)
  | complex (re im : Binary64)
  deriving Repr, DecidableEq

namespace Number

/-- Equality of exact values. -/
def same : Number → Number → Bool
  | integer a, integer b => a = b
  | integer a, float y => y.sameInt a
  | float x, integer b => x.sameInt b
  | float x, float y => x.same y
  | integer a, complex re im => re.sameInt a && im.isZero
  | complex re im, integer b => re.sameInt b && im.isZero
  | float x, complex re im => x.same re && im.isZero
  | complex re im, float y => re.same y && im.isZero
  | complex re im, complex re' im' => re.same re' && im.same im'

/-- The nearest relation of an integer and a floating-point number: the number is less. -/
def floatBelow (x : Binary64) (n : Int) : Bool :=
  match x with
  | .nan => false
  | .infinite negative => negative
  | .finite .. =>
    match x.value? with
    | some a => a.less (.ofInt n)
    | none => false

/-- An integer is less than a floating-point number. -/
def integerBelow (n : Int) (x : Binary64) : Bool :=
  match x with
  | .nan => false
  | .infinite negative => !negative
  | .finite .. =>
    match x.value? with
    | some a => (Fraction.ofInt n).less a
    | none => false

/-- A number exceeds another; complex numbers have no order. -/
def exceeds? : Number → Number → Option Bool
  | integer a, integer b => some (b < a)
  | integer a, float y => some (floatBelow y a)
  | float x, integer b => some (integerBelow b x)
  | float x, float y => some (x.exceeds y)
  | complex .., _ | _, complex .. => none

end Number

namespace Node

/-- The number that a value is, if it is one; truth values count as 0 and 1. -/
def number? : Node → Option Number
  | bool value => some (.integer (if value then 1 else 0))
  | integer value => some (.integer value)
  | float value => some (.float value)
  | complex re im => some (.complex re im)
  | _ => Option.none

end Node

namespace Store

/-- A test that may have no answer, on every element of a list up to the first that fails. -/
def allM {α : Type} (p : α → Option Bool) : List α → Option Bool
  | [] => some true
  | x :: rest =>
    match p x with
    | some true => allM p rest
    | answer => answer

/-- The first entry of a dictionary whose key matches. -/
def findEntry (matching : Ref → Option Bool) : List (Ref × Ref) → Option (Option Ref)
  | [] => some none
  | entry :: rest =>
    match matching entry.1 with
    | some true => some (some entry.2)
    | some false => findEntry matching rest
    | none => none

/-- Equality of the values of two references, nested at most so deep. -/
def equalWithin (s : Store) : (depth : Nat) → Ref → Ref → Option Bool
  | 0, _, _ => none
  | depth + 1, a, b =>
    let matching (x y : Ref) : Option Bool := if x = y then some true else equalWithin s depth x y
    let allMatch (xs ys : List Ref) : Option Bool :=
      if xs.length = ys.length then allM (fun pair => matching pair.1 pair.2) (xs.zip ys)
      else some false
    match s.node a, s.node b with
    | .text x, .text y => some (x = y)
    | .bytes x, .bytes y => some (x = y)
    | .list xs, .list ys => allMatch xs ys
    | .tuple xs, .tuple ys => allMatch xs ys
    | .dict xs, .dict ys =>
      if xs.length = ys.length then
        allM (fun entry =>
          match findEntry (matching entry.1) ys with
          | some (some value) => matching value entry.2
          | some none => some false
          | none => none) xs
      else some false
    | x, y =>
      match x.number?, y.number? with
      | some m, some n => some (m.same n)
      | _, _ => some (a = b)

/-- Equality of the values of two references. -/
def equal? (s : Store) (a b : Ref) : Option Bool := s.equalWithin s.nesting a b

/-- Two references are to the same object or to equal values. -/
def matching? (s : Store) (a b : Ref) : Option Bool :=
  if a = b then some true else s.equal? a b

/-- A value may be a key of a dictionary, looked at so deep: no list, dictionary or difference, and
no tuple that holds one. -/
def isKeyWithin (s : Store) : (depth : Nat) → Ref → Bool
  | 0, _ => false
  | depth + 1, r =>
    match s.node r with
    | .list _ | .dict _ | .difference _ => false
    | .tuple items => items.all (isKeyWithin s depth)
    | _ => true

/-- A value may be a key of a dictionary. -/
def isKey (s : Store) (r : Ref) : Bool := s.isKeyWithin s.nesting r

/-- The value of a key of a dictionary's entries. -/
def lookup? (s : Store) (key : Ref) (entries : List (Ref × Ref)) : Option (Option Ref) :=
  findEntry (s.matching? key) entries

/-- The value of a key that is a text. -/
def lookupText? (s : Store) (key : Text) (entries : List (Ref × Ref)) : Option Ref :=
  (entries.find? fun entry => s.text? entry.1 = some key).map Prod.snd

/-- The keys and values of a list of entries: a later value of a key replaces the earlier one. -/
def dictEntries (s : Store) : (entries later : List (Ref × Ref)) → List (Ref × Ref)
  | entries, [] => entries
  | entries, (key, value) :: later =>
    match s.lookup? key entries with
    | some (some _) =>
      let replaced := entries.map fun entry =>
        if s.matching? key entry.1 = some true then (entry.1, value) else entry
      s.dictEntries replaced later
    | _ => s.dictEntries (entries ++ [(key, value)]) later

end Store

end Expectation

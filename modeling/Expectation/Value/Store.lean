import Expectation.Classifier.Mark
import Expectation.ErrorMode
import Expectation.Document.Basic
import Expectation.Number.Binary64

/-!
# Values and the store

A value is referred to, and a reference tells whether two values are one and the same object. Some
objects exist once: the none value, the truth values, integers from -5 to 256, the empty text,
single characters below U+0100, the empty tuple, the error modes, the registered types and the
contexts of invocations; a reference to one of them says what it is. Every other object lies in a
cell of the store, and its reference is the address of the cell. A character above U+00FF that is
cut from a text is a new object each time; while it only passes by, the reference says which
character it is.

Lists and dictionaries hold references, so they may share parts and contain themselves. A context is
a value like any other: it may be an argument, a subject or an item of a list, also of its own
flags.
-/

namespace Expectation

/-- A reference to a value. -/
inductive Ref where
  | none
  | bool (value : Bool)
  | small (value : Int)
  | emptyText
  | char (value : Char)
  | passing (value : Char) (rank : Nat)
  | emptyTuple
  | mode (value : ErrorMode)
  | classifier (mark : ClassifierMark)
  | context (id : ContextId)
  | cell (address : Nat)
  deriving Repr, DecidableEq

namespace Ref

/-- A character that passes by on its way out of a text; the next time it is another object. -/
def passesBy : Ref → Bool
  | .passing .. => true
  | _ => false

/-- A character as it comes out of the text of a reference. It passes by unless it exists once, and
one that comes out of a passing character is another object than that. -/
def character (r : Ref) (c : Char) : Ref :=
  if c.toNat < 0x100 then .char c
  else
    match r with
    | .passing _ rank => .passing c (rank + 1)
    | _ => .passing c 0

end Ref

/-- What an object is made of. -/
inductive Node where
  | none
  | bool (value : Bool)
  | integer (value : Int)
  | float (value : Binary64)
  | complex (re im : Binary64)
  | text (value : Text)
  | bytes (value : List UInt8)
  | list (items : List Ref)
  | tuple (items : List Ref)
  | dict (entries : List (Ref × Ref))
  | object (label : Text)
  | document (value : Document)
  | difference (value : Document)
  | handler (index : Nat)
  | function
  | classifier (mark : ClassifierMark)
  | mode (value : ErrorMode)
  | context (id : ContextId)
  deriving Repr, DecidableEq

/-- What one invocation of a handler remembers. -/
structure Memory where
  item : Ref
  caught : Option FailureId
  deriving Repr, DecidableEq

/-- What is remembered at first. -/
def Memory.initial : Memory := ⟨.none, none⟩

/-- The state of one invocation of a handler. Follows `AssertionContext`, `assertive.context:30–74`.
-/
structure Context where
  engine : EngineId
  subject : Ref
  name : Text
  flags : Ref
  arguments : Ref
  typeName : Text
  errorMode : Ref
  nesting : Nat
  memory : Memory
  deriving Repr, DecidableEq

/-- The context of no invocation. -/
def Context.blank : Context := ⟨0, .none, [], .none, .none, [], .mode .default, 0, .initial⟩

/-- The cells of all objects that do not exist once, and the contexts of invocations. -/
structure Store where
  cells : Array Node
  contexts : Array Context
  deriving Repr, DecidableEq

namespace Node

/-- The integers from -5 to 256 exist once. -/
def isSmall (n : Int) : Bool := -5 ≤ n && n ≤ 256

/-- The reference to a text that exists once. -/
def sharedText? : Text → Option Ref
  | [] => some .emptyText
  | [c] => if c.toNat < 0x100 then some (.char c) else Option.none
  | _ :: _ :: _ => Option.none

/-- The reference to an object that exists once. -/
def shared? : Node → Option Ref
  | none => some .none
  | bool value => some (.bool value)
  | integer value => if isSmall value then some (.small value) else Option.none
  | text value => sharedText? value
  | tuple items => if items.isEmpty then some .emptyTuple else Option.none
  | mode value => some (.mode value)
  | classifier mark => some (.classifier mark)
  | context id => some (.context id)
  | float _ | complex .. | bytes _ | list _ | dict _ | object _ | document _ | difference _
  | handler _ | function => Option.none

end Node

namespace Store

/-- The store without cells and contexts. -/
def empty : Store := ⟨#[], #[]⟩

/-- What the object of a reference is made of; an address beyond the cells gives the none value. -/
def node (s : Store) : Ref → Node
  | .none => .none
  | .bool value => .bool value
  | .small value => .integer value
  | .emptyText => .text []
  | .char value | .passing value _ => .text [value]
  | .emptyTuple => .tuple []
  | .mode value => .mode value
  | .classifier mark => .classifier mark
  | .context id => .context id
  | .cell address => s.cells.getD address .none

/-- Place an object in a new cell, unless it exists once. -/
def put (s : Store) (n : Node) : Ref × Store :=
  match n.shared? with
  | some r => (r, s)
  | none => (.cell s.cells.size, { s with cells := s.cells.push n })

/-- Replace the object of a cell; objects that exist once do not change. -/
def change (s : Store) (r : Ref) (n : Node) : Store :=
  match r with
  | .cell address => { s with cells := s.cells.setIfInBounds address n }
  | _ => s

/-- The context of an invocation; unknown invocations have a blank one. -/
def contextAt (s : Store) (id : ContextId) : Context := s.contexts.getD id .blank

/-- The store with the context of an invocation replaced. -/
def withContext (s : Store) (id : ContextId) (c : Context) : Store :=
  { s with contexts := s.contexts.setIfInBounds id c }

/-- Begin the context of an invocation. -/
def addContext (s : Store) (c : Context) : ContextId × Store :=
  (s.contexts.size, { s with contexts := s.contexts.push c })

/-- More than the number of objects that exist once and that a comparison can lead on from. -/
def sharedBound : Nat := 0x1000

/-- More than the number of containers and contexts that hold one another in turn, if none holds
itself. -/
def nesting (s : Store) : Nat := s.cells.size + s.contexts.size + 2

/-- More than the number of distinct objects that a chain of questions can come to before it comes
back to one of them. -/
def bound (s : Store) : Nat := s.cells.size + s.contexts.size + sharedBound

/-- To place an object begins no context. -/
@[simp] theorem contexts_put (s : Store) (n : Node) : (s.put n).2.contexts = s.contexts := by
  unfold put
  split <;> rfl

/-- To replace an object changes no context. -/
@[simp] theorem contexts_change (s : Store) (r : Ref) (n : Node) :
    (s.change r n).contexts = s.contexts := by
  unfold change
  split <;> rfl

@[simp] theorem size_contexts_withContext (s : Store) (id : ContextId) (c : Context) :
    (s.withContext id c).contexts.size = s.contexts.size := by
  simp [withContext]

/-- A replaced context is the new one. -/
theorem contextAt_withContext_self (s : Store) {id : ContextId} (c : Context)
    (h : id < s.contexts.size) : (s.withContext id c).contextAt id = c := by
  simp [contextAt, withContext, h]

/-- Every other context stays. -/
theorem contextAt_withContext_of_ne (s : Store) {id other : ContextId} (c : Context)
    (h : other ≠ id) : (s.withContext id c).contextAt other = s.contextAt other := by
  simp [contextAt, withContext, Array.getElem?_setIfInBounds_ne (Ne.symm h)]

/-- A context that begins is the last one. -/
@[simp] theorem contextAt_size_push (cells : Array Node) (contexts : Array Context) (c : Context) :
    contextAt ⟨cells, contexts.push c⟩ contexts.size = c := by
  simp [contextAt]

/-- The contexts that were there stay as another begins. -/
theorem contextAt_push_of_lt (cells : Array Node) {contexts : Array Context} (c : Context)
    {id : ContextId} (h : id < contexts.size) :
    contextAt ⟨cells, contexts.push c⟩ id = contexts.getD id .blank := by
  simp [contextAt, Array.getElem?_push_lt h, h]

theorem node_put_new {s : Store} {n : Node} (h : n.shared? = none) :
    (s.put n).2.node (s.put n).1 = n := by
  simp [put, h, node]

theorem node_of_sharedText? {s : Store} {t : Text} {r : Ref} (h : Node.sharedText? t = some r) :
    s.node r = .text t := by
  match t with
  | [] =>
    cases h
    rfl
  | [c] =>
    simp only [Node.sharedText?] at h
    split at h
    · cases h
      rfl
    · cases h
  | _ :: _ :: _ => cases h

theorem node_of_shared? {s : Store} {n : Node} {r : Ref} (h : n.shared? = some r) :
    s.node r = n := by
  cases n with
  | none | bool _ | mode _ | classifier _ | context _ =>
    cases h
    rfl
  | integer value =>
    simp only [Node.shared?] at h
    split at h
    · cases h
      rfl
    · cases h
  | text value => exact node_of_sharedText? h
  | tuple items =>
    cases items with
    | nil =>
      cases h
      rfl
    | cons item items => cases h
  | _ => cases h

theorem node_put_shared {s : Store} {n : Node} {r : Ref} (h : n.shared? = some r) :
    (s.put n).2.node (s.put n).1 = n := by
  simp only [put, h]
  exact node_of_shared? h

/-- A reference to a placed object refers to that object. -/
theorem node_put (s : Store) (n : Node) : (s.put n).2.node (s.put n).1 = n := by
  cases h : n.shared? with
  | none => exact node_put_new h
  | some r => exact node_put_shared h

end Store

end Expectation

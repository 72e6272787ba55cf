import Expectation.Engine.Equality
import Expectation.Proofs.Classifier.Comparison
import Expectation.Proofs.Classifier.Resolution

/-!
# Engines that compare values by their parts

Where a list, a tuple or a dictionary is compared by the parts that it holds, a comparison goes down
in both values at once. The types of such an engine may raise faults of their own, and the parts of
a value may lead back to it. The standard example has a type for each kind of container.
-/

namespace Expectation

namespace Engine

/-- The type that two values have in common asks only about parts of the first and parts of the
second. -/
def AsksPartsOf (e : Engine) (s : Store) (a b : Ref) : Prop :=
  ∀ type, e.classifiers.resolveCommon s a b = .ok (some type) →
    (type.behaviour.equal s a b).AsksPairs (s.parts a) (s.parts b)

/-- Whatever is reached from two values is compared by its parts. -/
def ComparesParts (e : Engine) (s : Store) (a b : Ref) : Prop :=
  ∀ x ∈ s.reach a, ∀ y ∈ s.reach b, e.AsksPartsOf s x y

/-- A type may raise a fault by itself when two values are compared: when it is asked whether they
are of it, or when it compares them. -/
def Raises (e : Engine) (s : Store) (a b : Ref) (cause : Fault) : Prop :=
  (∃ type ∈ e.classifiers.newestFirst,
    type.identifies s a = .error cause ∨ type.identifies s b = .error cause) ∨
  ∃ type, e.classifiers.resolveCommon s a b = .ok (some type) ∧
    (type.behaviour.equal s a b).Raises cause

/-- A type may raise a fault by itself for values that are reached from two values. -/
def RaisesBelow (e : Engine) (s : Store) (a b : Ref) (cause : Fault) : Prop :=
  ∃ x ∈ s.reach a, ∃ y ∈ s.reach b, e.Raises s x y cause

end Engine

namespace Classifier

/-- The type of the values of one kind, which are compared in one way. -/
def ofKind (name : Text) (kind : Kind) (equal : Equal) (serial : Nat) : Classifier :=
  Definition.derive
    ⟨name, none, some ⟨.given serial, Identify.kinds [kind]⟩,
      some ⟨.given (serial + 1), equal⟩, none,
      none⟩ .universal

variable {name : Text} {kind : Kind} {equal : Equal} {serial : Nat} {s : Store}

/-- The values of the type are those of the kind. -/
@[simp] theorem identifies_ofKind (value : Ref) :
    (ofKind name kind equal serial).identifies s value =
      .ok (decide ((s.node value).kind = kind)) :=
  Definition.identifies_derive rfl .universal s value

end Classifier

namespace ClassifierRegistry

/-- Two values have the type of a kind in common if both are of the kind. -/
theorem firstCommon_cons_ofKind {name : Text} {kind : Kind} {equal : Equal} {serial : Nat}
    {s : Store} (a b : Ref) (types : List Classifier) :
    firstCommon s a b (.ofKind name kind equal serial :: types) =
      if (s.node a).kind = kind ∧ (s.node b).kind = kind then
        .ok (some (.ofKind name kind equal serial))
      else firstCommon s a b types := by
  rw [firstCommon, Classifier.identifies_ofKind, Classifier.identifies_ofKind]
  by_cases ha : (s.node a).kind = kind
  · by_cases hb : (s.node b).kind = kind
    · simp [ha, hb]
    · simp [ha, hb]
  · simp [ha]

end ClassifierRegistry

namespace Structural

/-- The type of lists. -/
def listType (lists : Equal) : Classifier := .ofKind "list" .list lists 0

/-- The type of tuples, which are compared item by item. -/
def tupleType : Classifier := .ofKind "tuple" .tuple Equal.items 2

/-- The type of dictionaries, which are compared by their entries. -/
def dictType : Classifier := .ofKind "dict" .dict Equal.entries 4

/-- An engine with a type for each kind of container; lists are compared in a given way. -/
def engine (settings : Settings) (lists : Equal) : Engine :=
  { Engine.create settings with
    classifiers := .ofList [listType lists, tupleType, dictType, .universal] }

/-- The engine in which every comparison below the first is watched. -/
def watchful (lists : Equal) : Engine := engine ⟨.text, 3, 0, 2, 100⟩ lists

/-- The type that two values have in common. -/
def common (s : Store) (lists : Equal) (a b : Ref) : Classifier :=
  if (s.node a).kind = .list ∧ (s.node b).kind = .list then listType lists
  else if (s.node a).kind = .tuple ∧ (s.node b).kind = .tuple then tupleType
  else if (s.node a).kind = .dict ∧ (s.node b).kind = .dict then dictType
  else .universal

variable {settings : Settings} {lists : Equal} {s : Store}

/-- Two containers of one kind have its type in common, and any other values the universal type. -/
theorem resolveCommon_engine (a b : Ref) :
    (engine settings lists).classifiers.resolveCommon s a b = .ok (some (common s lists a b)) := by
  show ClassifierRegistry.firstCommon s a b [listType lists, tupleType, dictType, .universal] = _
  rw [listType, ClassifierRegistry.firstCommon_cons_ofKind,
    tupleType, ClassifierRegistry.firstCommon_cons_ofKind,
    dictType, ClassifierRegistry.firstCommon_cons_ofKind]
  unfold common
  split_ifs <;> rfl

/-- No type of the engine faults when it is asked about a value. -/
theorem identifies_engine_ne_error {type : Classifier}
    (h : type ∈ (engine settings lists).classifiers.newestFirst) (value : Ref) (cause : Fault) :
    type.identifies s value ≠ .error cause := by
  have hmem : type ∈ [listType lists, tupleType, dictType, .universal] := h
  simp only [List.mem_cons, List.not_mem_nil, or_false] at hmem
  rcases hmem with rfl | rfl | rfl | rfl
  · simp [listType]
  · simp [tupleType]
  · simp [dictType]
  · simp [Classifier.identifies, Classifier.behaviour, Behaviour.universal]

/-- The engine compares values by their parts if it compares lists so. -/
theorem comparesParts_engine
    (h : ∀ a b, (s.node a).kind = .list → (s.node b).kind = .list →
      (lists s a b).AsksPairs (s.parts a) (s.parts b)) (a b : Ref) :
    (engine settings lists).ComparesParts s a b := by
  intro x _ y _ type htype
  rw [resolveCommon_engine, Except.ok.injEq, Option.some.injEq] at htype
  subst htype
  unfold common
  split_ifs with hlist htuple hdict
  · exact h x y hlist.1 hlist.2
  · exact Comparison.asksPairs_items y (by simp [htuple.1]) (by simp [htuple.2])
  · exact Comparison.asksPairs_entries y
  · exact Comparison.asksPairs_universal s x y _ _

/-- The engine compares values by their parts if it compares lists item by item. -/
theorem comparesParts_items (settings : Settings) (s : Store) (a b : Ref) :
    (engine settings Equal.items).ComparesParts s a b :=
  comparesParts_engine
    (fun _ y hx hy => Comparison.asksPairs_items y (by simp [hx]) (by simp [hy])) a b

end Structural

end Expectation

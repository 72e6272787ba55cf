import Expectation.Engine.Inspection
import Expectation.Proofs.Classifier.Inspection
import Expectation.Proofs.Classifier.Resolution

/-!
# Engines that print values part by part

Where the types of an engine hand the parts of a value to the engine to be printed, an inspection
goes down in the value. The types may raise faults of their own, and the parts of a value may lead
back to it. The standard example has a type of lists and a type of dictionaries.
-/

namespace Expectation

namespace Engine

/-- The type of a value has only parts of it printed. -/
def PrintsPartsOf (e : Engine) (s : Store) (a : Ref) : Prop :=
  ∀ type, e.classifiers.resolve s a = .ok type →
    ∀ output depth, (type.behaviour.inspect s output a depth).PrintsOnly (s.parts a)

/-- Whatever is reached from a value is printed by its parts. -/
def PrintsParts (e : Engine) (s : Store) (a : Ref) : Prop := ∀ x ∈ s.reach a, e.PrintsPartsOf s x

/-- A type may raise a fault by itself when a value is inspected: when it is asked whether the value
is of it, or when it writes the value. -/
def RaisesOver (e : Engine) (s : Store) (a : Ref) (cause : Fault) : Prop :=
  (∃ type ∈ e.classifiers.newestFirst, type.identifies s a = .error cause) ∨
  ∃ type, e.classifiers.resolve s a = .ok type ∧
    ∃ output depth, (type.behaviour.inspect s output a depth).Raises cause

/-- A type may raise a fault by itself for a value that is reached from a value. -/
def RaisesWithin (e : Engine) (s : Store) (a : Ref) (cause : Fault) : Prop :=
  ∃ x ∈ s.reach a, e.RaisesOver s x cause

end Engine

namespace Printing

/-- The type of the values of one kind, which are written in one way. -/
def typeOfKind (name : Text) (kind : Kind) (inspect : Inspect) (serial : Nat) : Classifier :=
  Definition.derive
    ⟨name, none, some ⟨.given serial, Identify.kinds [kind]⟩, none,
      some ⟨.given (serial + 1), inspect⟩, none⟩ .universal

/-- The type of lists. -/
def listType (lists : Inspect) : Classifier := typeOfKind "list" .list lists 0

/-- The type of dictionaries, which are written by their entries. -/
def dictType : Classifier := typeOfKind "dict" .dict Inspect.entries 2

/-- An engine with a type of lists and a type of dictionaries; lists are written in a given way. -/
def engine (lists : Inspect) : Engine :=
  { Engine.create .default with classifiers := .ofList [listType lists, dictType, .universal] }

/-- The type of a value. -/
def typeOf (s : Store) (lists : Inspect) (a : Ref) : Classifier :=
  if (s.node a).kind = .list then listType lists
  else if (s.node a).kind = .dict then dictType
  else .universal

variable {lists : Inspect} {s : Store} {a : Ref}

/-- Lists are written in the given way. -/
@[simp] theorem inspect_listType : (listType lists).behaviour.inspect = lists := rfl

/-- Dictionaries are written by their entries. -/
@[simp] theorem inspect_dictType : dictType.behaviour.inspect = Inspect.entries := rfl

/-- The values of the type of a kind are those of the kind. -/
theorem identifies_typeOfKind (name : Text) (kind : Kind) (inspect : Inspect) (serial : Nat) :
    (typeOfKind name kind inspect serial).identifies s a =
      .ok (decide ((s.node a).kind = kind)) :=
  Definition.identifies_derive rfl .universal s a

/-- A list or a dictionary is of its type, and any other value of the universal type. -/
theorem resolve_engine (s : Store) (lists : Inspect) (a : Ref) :
    (engine lists).classifiers.resolve s a = .ok (typeOf s lists a) := by
  have hfirst : ClassifierRegistry.firstIdentifying s a [listType lists, dictType, .universal] =
      .ok (some (typeOf s lists a)) := by
    simp only [ClassifierRegistry.firstIdentifying, listType, dictType, identifies_typeOfKind,
      typeOf]
    by_cases hlist : (s.node a).kind = .list
    · simp [hlist]
    · by_cases hdict : (s.node a).kind = .dict
      · simp [hdict]
      · simp [hlist, hdict, Classifier.identifies, Classifier.behaviour, Behaviour.universal]
  have hlisted : (engine lists).classifiers.newestFirst =
      [listType lists, dictType, .universal] := rfl
  rw [ClassifierRegistry.resolve, hlisted, hfirst]

/-- The engine prints values by their parts if it prints lists so. -/
theorem printsParts_engine
    (h : ∀ b, (s.node b).kind = .list → ∀ output depth,
      (lists s output b depth).PrintsOnly (s.parts b)) (a : Ref) :
    (engine lists).PrintsParts s a := by
  intro x _ type htype output depth
  rw [resolve_engine, Except.ok.injEq] at htype
  subst htype
  unfold typeOf
  split_ifs with hlist hdict
  · exact h x hlist output depth
  · exact Inspection.printsOnly_entries output depth s x
  · exact Inspection.printsOnly_universal output depth s x

/-- The engine prints values by their parts if it prints lists item by item. -/
theorem printsParts_items (s : Store) (a : Ref) : (engine Inspect.items).PrintsParts s a := by
  refine printsParts_engine (fun b hb output depth => ?_) a
  cases hn : s.node b with
  | list items =>
    exact (Inspection.alike_items output depth depth hn hn rfl).printsOnly fun _ _ h => h.mem_parts
  | _ => simp [hn, Node.kind] at hb

end Printing

end Expectation

import Expectation.Classifier.Registry
import Expectation.Classifier.Standard

/-!
# Finding the type of values

The type that two values have in common is a listed one that identifies both, whichever of them is
asked about first. Where the universal type is listed a search never comes back without a type; only
the fault of a type that is asked can end it.
-/

namespace Expectation

/-- The values of a type that is defined by a kind are those of the kind. -/
theorem Definition.identifies_derive {d : Definition} {kind : Kind} {origin : Origin}
    (h : d.identify = some ⟨origin, Identify.kinds [kind]⟩) (base : Classifier) (s : Store)
    (value : Ref) :
    (d.derive base).identifies s value = .ok (decide ((s.node value).kind = kind)) := by
  simp [Classifier.identifies, Classifier.behaviour, derive, behaviour, h, Identify.kinds]

namespace ClassifierRegistry

variable {s : Store} {a b : Ref} {types : List Classifier} {type : Classifier} {cause : Fault}

/-- The type of one value is the type that it has in common with itself. -/
theorem firstCommon_self (s : Store) (a : Ref) (types : List Classifier) :
    firstCommon s a a types = firstIdentifying s a types := by
  induction types with
  | nil => rfl
  | cons type types ih =>
    rw [firstCommon, firstIdentifying, ih]
    rcases type.identifies s a with fault | _ | _ <;> rfl

/-- A common type is one of those that are searched, and identifies both values. -/
theorem identifies_of_firstCommon (h : firstCommon s a b types = .ok (some type)) :
    type ∈ types ∧ type.identifies s a = .ok true ∧ type.identifies s b = .ok true := by
  induction types with
  | nil => cases h
  | cons first types ih =>
    have hlater (h : firstCommon s a b types = .ok (some type)) :
        type ∈ first :: types ∧ type.identifies s a = .ok true ∧
          type.identifies s b = .ok true :=
      ⟨List.mem_cons_of_mem _ (ih h).1, (ih h).2⟩
    rw [firstCommon] at h
    split at h
    · next ha =>
      split at h
      · next hb =>
        cases h
        exact ⟨List.mem_cons_self, ha, hb⟩
      · exact hlater h
      · cases h
    · exact hlater h
    · cases h

/-- Only the fault of a type that is asked ends a search. -/
theorem exists_fault_of_firstCommon (h : firstCommon s a b types = .error cause) :
    ∃ type ∈ types, type.identifies s a = .error cause ∨ type.identifies s b = .error cause := by
  induction types with
  | nil => cases h
  | cons first types ih =>
    have hlater (h : firstCommon s a b types = .error cause) :
        ∃ type ∈ first :: types,
          type.identifies s a = .error cause ∨ type.identifies s b = .error cause := by
      obtain ⟨type, hmem, hfault⟩ := ih h
      exact ⟨type, List.mem_cons_of_mem _ hmem, hfault⟩
    rw [firstCommon] at h
    split at h
    · split at h
      · cases h
      · exact hlater h
      · next hb =>
        cases h
        exact ⟨first, List.mem_cons_self, .inr hb⟩
    · exact hlater h
    · next ha =>
      cases h
      exact ⟨first, List.mem_cons_self, .inl ha⟩

/-- A fault that ends the search for the type of a value is one that a listed type raises. -/
theorem exists_fault_of_resolve {registry : ClassifierRegistry}
    (h : registry.resolve s a = .error cause) :
    ∃ type ∈ registry.newestFirst, type.identifies s a = .error cause := by
  rw [resolve, ← firstCommon_self] at h
  split at h
  · cases h
  · cases h
  · next hfault =>
    cases h
    simpa using exists_fault_of_firstCommon hfault

/-- A search comes back with a type if one of them identifies both values. -/
theorem firstCommon_ne_none (hmem : type ∈ types) (ha : type.identifies s a = .ok true)
    (hb : type.identifies s b = .ok true) : firstCommon s a b types ≠ .ok none := by
  induction types with
  | nil => cases hmem
  | cons first types ih =>
    intro h
    rw [firstCommon] at h
    rcases List.mem_cons.1 hmem with rfl | hmem
    · rw [ha, hb] at h
      cases h
    · split at h
      · split at h
        · cases h
        · exact ih hmem h
        · cases h
      · exact ih hmem h
      · cases h

/-- It does not matter which of two values is asked about first, unless a type faults. -/
theorem firstCommon_swap {found found' : Option Classifier}
    (h : firstCommon s a b types = .ok found) (h' : firstCommon s b a types = .ok found') :
    found' = found := by
  induction types with
  | nil =>
    cases h
    cases h'
    rfl
  | cons first types ih =>
    rw [firstCommon] at h h'
    cases ha : first.identifies s a with
    | error fault => simp [ha] at h
    | ok ofA =>
      cases hb : first.identifies s b with
      | error fault => simp [hb] at h'
      | ok ofB =>
        cases ofA <;> cases ofB <;> simp only [ha, hb] at h h'
        case true.true =>
          cases h
          cases h'
          rfl
        all_goals exact ih h h'

variable {registry : ClassifierRegistry}

/-- With the universal type listed, a value is of a listed type that identifies it, unless a type
faults for it. -/
theorem resolve_eq_or_fault (h : .universal ∈ registry.newestFirst) (s : Store) (value : Ref) :
    (∃ type ∈ registry.newestFirst, type.identifies s value = .ok true ∧
      registry.resolve s value = .ok type) ∨
    ∃ type ∈ registry.newestFirst, ∃ cause, type.identifies s value = .error cause ∧
      registry.resolve s value = .error cause := by
  rw [resolve, ← firstCommon_self]
  cases hfound : firstCommon s value value registry.newestFirst with
  | error cause =>
    obtain ⟨type, hmem, hfault⟩ := exists_fault_of_firstCommon hfound
    rw [or_self] at hfault
    exact .inr ⟨type, hmem, cause, hfault, rfl⟩
  | ok found =>
    cases found with
    | none => exact absurd hfound (firstCommon_ne_none h rfl rfl)
    | some type =>
      obtain ⟨hmem, htype, -⟩ := identifies_of_firstCommon hfound
      exact .inl ⟨type, hmem, htype, rfl⟩

/-- With the universal type listed, two values have a listed type in common that identifies both,
unless a type faults for one of them. -/
theorem resolveCommon_eq_or_fault (h : .universal ∈ registry.newestFirst) (s : Store)
    (a b : Ref) :
    (∃ type ∈ registry.newestFirst, type.identifies s a = .ok true ∧
      type.identifies s b = .ok true ∧ registry.resolveCommon s a b = .ok (some type)) ∨
    ∃ type ∈ registry.newestFirst, ∃ cause,
      (type.identifies s a = .error cause ∨ type.identifies s b = .error cause) ∧
        registry.resolveCommon s a b = .error cause := by
  rw [resolveCommon]
  cases hfound : firstCommon s a b registry.newestFirst with
  | error cause =>
    obtain ⟨type, hmem, hfault⟩ := exists_fault_of_firstCommon hfound
    exact .inr ⟨type, hmem, cause, hfault, rfl⟩
  | ok found =>
    cases found with
    | none => exact absurd hfound (firstCommon_ne_none h rfl rfl)
    | some type =>
      obtain ⟨hmem, ha, hb⟩ := identifies_of_firstCommon hfound
      exact .inl ⟨type, hmem, ha, hb, rfl⟩

end ClassifierRegistry

end Expectation

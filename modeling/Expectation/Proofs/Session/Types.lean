import Expectation.Proofs.Engine.Evolution
import Expectation.Proofs.Session.Dispatch

/-!
# Types of the engines of a session

Whatever was registered with an engine and however often it was cloned, its types are in step with
its index and its rules, and a type that is refused leaves the session as it was. So a request for
the type of a value, or of two values, comes back with a registered type, unless a type faults.
-/

namespace Expectation.Act

variable {settings : Settings} {σ : Session} {id : EngineId}

theorem exec_resolve (id : EngineId) (value : Ref) (σ : Session) :
    (resolve id value).exec σ = ((σ.engineAt id).classifiers.resolve σ.store value, σ) := by
  rw [resolve, exec_bind_of_ok (exec_engine id σ), exec_bind_of_ok (exec_store σ), exec_ofExcept]

theorem exec_resolveCommon (id : EngineId) (a b : Ref) (σ : Session) :
    (resolveCommon id a b).exec σ =
      ((σ.engineAt id).classifiers.resolveCommon σ.store a b, σ) := by
  rw [resolveCommon, exec_bind_of_ok (exec_engine id σ), exec_bind_of_ok (exec_store σ),
    exec_ofExcept]

/-- The names of the types of an engine that comes about from a new one are different and indexed
each with its type; the universal type comes last and is the only one without a base; the base of
any other comes behind it, so that its line runs down the list, without repetition, to the universal
type; and exactly the registered types have tables of rules. A type that is refused changes nothing.
A value, and likewise two values, are found to be of a registered type, unless the fault of a
registered type for one of them ends the search. -/
theorem registries_of_reached (h : Engine.Reached settings (σ.engineAt id)) :
    (σ.engineAt id).InStep ∧
    (∀ type ∈ (σ.engineAt id).classifiers.newestFirst,
      type.lineage.Nodup ∧ type.lineage.Sublist (σ.engineAt id).classifiers.newestFirst ∧
        type.lineage.getLast? = some .universal) ∧
    (∀ given fields cause, ((addType id given fields).exec σ).1 = .error cause →
      ((addType id given fields).exec σ).2 = σ) ∧
    (∀ value,
      (∃ type ∈ (σ.engineAt id).classifiers.newestFirst,
        (resolve id value).exec σ = (.ok type, σ)) ∨
      ∃ type ∈ (σ.engineAt id).classifiers.newestFirst, ∃ cause,
        type.identifies σ.store value = .error cause ∧
          (resolve id value).exec σ = (.error cause, σ)) ∧
    (∀ a b,
      (∃ type ∈ (σ.engineAt id).classifiers.newestFirst,
        (resolveCommon id a b).exec σ = (.ok (some type), σ)) ∨
      ∃ type ∈ (σ.engineAt id).classifiers.newestFirst, ∃ cause,
        (type.identifies σ.store a = .error cause ∨ type.identifies σ.store b = .error cause) ∧
          (resolveCommon id a b).exec σ = (.error cause, σ)) := by
  have hstep := h.inStep
  refine ⟨hstep, ?_, ?_, ?_, ?_⟩
  · intro type hmem
    obtain ⟨newer, older, hlist⟩ := List.append_of_mem hmem
    have hline : type.lineage.Sublist (σ.engineAt id).classifiers.newestFirst := by
      rw [hlist]
      exact (hstep.lineage_sublist hlist).trans (List.sublist_append_right _ _)
    exact ⟨(List.Nodup.of_map _ hstep.distinct).sublist hline, hline, type.getLast?_lineage⟩
  · intro given fields cause hfault
    rw [exec_addType] at hfault ⊢
    split at hfault
    · cases hfault
    · rfl
  · intro value
    rw [exec_resolve]
    rcases ClassifierRegistry.resolve_eq_or_fault hstep.universal_mem σ.store value with
      ⟨type, hmem, -, heq⟩ | ⟨type, hmem, cause, hfault, heq⟩
    · exact .inl ⟨type, hmem, by rw [heq]⟩
    · exact .inr ⟨type, hmem, cause, hfault, by rw [heq]⟩
  · intro a b
    rw [exec_resolveCommon]
    rcases ClassifierRegistry.resolveCommon_eq_or_fault hstep.universal_mem σ.store a b with
      ⟨type, hmem, -, -, heq⟩ | ⟨type, hmem, cause, hfault, heq⟩
    · exact .inl ⟨type, hmem, by rw [heq]⟩
    · exact .inr ⟨type, hmem, cause, hfault, by rw [heq]⟩

-- A type of some name that faults for every value.
private def faultyDefinition (name : Text) : Definition ⊕ Proposal :=
  .inl ⟨name, none, some ⟨.given 0, .faulty (.raised "RuntimeError" "broken")⟩, none, none, none⟩

private def brokenEngine : Engine :=
  (Engine.create .default).attempt (.type (faultyDefinition ['o']) .empty)

private theorem reached_brokenEngine : Engine.Reached .default brokenEngine :=
  Engine.Reached.create.attempt _

private def holding (e : Engine) : Session :=
  { Session.empty (.basic false) 1 with engines := #[e] }

/-- A clone of an engine with a type of its own is in step, and a second type of that name is
refused and changes nothing. -/
theorem registries_cloned :
    ((holding brokenEngine.clone).engineAt 0).InStep ∧
      ((addType 0 (faultyDefinition ['o']) .empty).exec (holding brokenEngine.clone)).2 =
        holding brokenEngine.clone := by
  have hreached : Engine.Reached .default ((holding brokenEngine.clone).engineAt 0) :=
    reached_brokenEngine.clone
  have h := registries_of_reached hreached
  have hrefused : ((addType 0 (faultyDefinition ['o']) .empty).exec
      (holding brokenEngine.clone)).1 = .error (.configuration (.typeDefined ['o'])) := rfl
  exact ⟨h.1, h.2.2.1 _ _ _ hrefused⟩

/-- Where a type faults for a value, the search for the type of the value comes back with none, and
so does the search for a type that it has in common with itself. -/
theorem resolve_brokenEngine :
    Engine.Reached .default ((holding brokenEngine).engineAt 0) ∧
      (∀ type, ((resolve 0 .none).exec (holding brokenEngine)).1 ≠ .ok type) ∧
      ∀ type, ((resolveCommon 0 .none .none).exec (holding brokenEngine)).1 ≠ .ok (some type) := by
  refine ⟨reached_brokenEngine, ?_, ?_⟩
  · intro type h
    have hfault : ((resolve 0 .none).exec (holding brokenEngine)).1 =
        .error (.raised "RuntimeError" "broken") := rfl
    rw [hfault] at h
    cases h
  · intro type h
    have hfault : ((resolveCommon 0 .none .none).exec (holding brokenEngine)).1 =
        .error (.raised "RuntimeError" "broken") := rfl
    rw [hfault] at h
    cases h

end Expectation.Act

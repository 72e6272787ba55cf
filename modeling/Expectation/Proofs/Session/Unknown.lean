import Mathlib.Logic.Basic
import Expectation.Proofs.Assertion.Suggestion
import Expectation.Proofs.Engine.Evolution
import Expectation.Proofs.Session.Dispatch

/-!
# Unknown assertions

A name that stands for nothing on the line of a subject's type is reported together with the types
that carry it, or, if there are none, with another name that was perhaps meant. Three searches have
part in this: that for a rule along the line, that for types among all, newest first, and that for
the closest name, oldest type first.
-/

namespace Expectation

namespace Engine

/-- One of the calls registers a name for a type. -/
def Names (e : Engine) (calls : List Registration) (typeName name : Text) : Prop :=
  ∃ rule, e.Carries calls typeName name rule

/-- An unknown assertion whose name is registered for some of the types, none of the line, and which
lists just these types in their order. -/
structure NamedElsewhere (e : Engine) (calls : List Registration) (types line : List Classifier)
    (u : UnknownAssertion) : Prop where
  nonempty : u.definedFor ≠ []
  exactly : ∃ carriers : List Classifier, carriers.Sublist types ∧
    (∀ type, type ∈ carriers ↔ type ∈ types ∧ e.Names calls type.name u.name) ∧
      u.definedFor = carriers.map Classifier.name
  apart : ∀ type ∈ line, type.name ∉ u.definedFor
  suggestion : u.suggestion = none

/-- An unknown assertion whose name is registered for none of the types. It comes with another name
that is registered, if any is. -/
structure NamedNowhere (e : Engine) (calls : List Registration) (types : List Classifier)
    (u : UnknownAssertion) : Prop where
  nowhere : ∀ type ∈ types, ¬ e.Names calls type.name u.name
  definedFor : u.definedFor = []
  suggestion_eq_none_iff : u.suggestion = none ↔ ∀ typeName name, ¬ e.Names calls typeName name
  suggested : ∀ name, u.suggestion = some name →
    name ≠ u.name ∧ ∃ type ∈ types, e.Names calls type.name name

section

variable {settings : Settings} {calls : List Registration} {s : Store} {subject : Ref} {name : Text}
  {type : Classifier} {u : UnknownAssertion}

/-- The names of a type are those that calls registered for it. -/
theorem mem_names_afterAll_iff {typeName : Text} :
    name ∈ ((create settings).afterAll calls).assertions.names typeName ↔
      (create settings).Names calls typeName name := by
  rw [AssertionRegistry.names, ← Table.contains_iff_mem_keys, Table.contains,
    Option.isSome_iff_exists]
  simp only [rules_afterAll_iff, get?_rules_create, reduceCtorEq, false_or]
  rfl

/-- The types that a name is defined for are those that a call registered it for. -/
theorem mem_definedFor_afterAll_iff {types : List Classifier} :
    type ∈ ((create settings).afterAll calls).assertions.definedFor name types ↔
      type ∈ types ∧ (create settings).Names calls type.name name := by
  rw [AssertionRegistry.definedFor, List.mem_filter, Table.contains_iff_mem_keys]
  exact and_congr_right fun _ => mem_names_afterAll_iff

/-- A name that is defined for no type was registered for none. -/
theorem not_names_of_definedFor_eq_nil {types : List Classifier}
    (h : ((create settings).afterAll calls).assertions.definedFor name types = []) :
    ∀ other ∈ types, ¬ (create settings).Names calls other.name name := by
  intro other hother hnames
  have hmem := mem_definedFor_afterAll_iff.2 ⟨hother, hnames⟩
  rw [h] at hmem
  cases hmem

/-- A name is registered for no type but a listed one. -/
theorem mem_newestFirst_of_names {typeName : Text}
    (h : (create settings).Names calls typeName name) :
    typeName ∈ ((create settings).afterAll calls).classifiers.newestFirst.map Classifier.name := by
  have hstep := (InStep.create settings).afterAll calls
  rw [← hstep.tabled, ← Table.contains_iff_mem_keys]
  rw [← mem_names_afterAll_iff, AssertionRegistry.names, AssertionRegistry.rules] at h
  cases htable : ((create settings).afterAll calls).assertions.tables.get? typeName with
  | none =>
    rw [htable] at h
    cases h
  | some table => rw [Table.contains, htable]; rfl

/-- An unknown assertion is named elsewhere or nowhere, and not both. -/
theorem unknownAssertion_afterAll {line : List Classifier}
    (hline : ∀ other ∈ line, ¬ (create settings).Names calls other.name name)
    (h : ((create settings).afterAll calls).unknownAssertion s subject type name = .ok u) :
    u.name = name ∧ u.typeName = type.name ∧
      Xor ((create settings).NamedElsewhere calls
          ((create settings).afterAll calls).classifiers.newestFirst line u)
        ((create settings).NamedNowhere calls
          ((create settings).afterAll calls).classifiers.newestFirst u) := by
  rcases unknownAssertion_eq_ok h with
    ⟨first, others, hcarriers, rfl⟩ | ⟨hnone, suggestion, hs, rfl⟩
  · refine ⟨rfl, rfl, Or.inl ⟨?_, fun hnowhere => by cases hnowhere.definedFor⟩⟩
    have hexactly : ∀ other, other ∈ first :: others ↔
        other ∈ ((create settings).afterAll calls).classifiers.newestFirst ∧
          (create settings).Names calls other.name name := by
      intro other
      rw [← hcarriers]
      exact mem_definedFor_afterAll_iff
    refine ⟨by simp, ⟨first :: others, ?_, hexactly, rfl⟩, ?_, rfl⟩
    · rw [← hcarriers]
      exact List.filter_sublist
    · intro other hother hmem
      obtain ⟨carrier, hcarrier, hsame⟩ := List.mem_map.1 hmem
      refine hline other hother ?_
      rw [← hsame]
      exact ((hexactly carrier).1 hcarrier).2
  · refine ⟨rfl, rfl, Or.inr ⟨?_, fun helsewhere => helsewhere.nonempty rfl⟩⟩
    have hnowhere := not_names_of_definedFor_eq_nil hnone
    refine ⟨hnowhere, rfl, (suggest_eq_none_iff hs).trans ⟨?_, ?_⟩, ?_⟩
    · intro hempty typeName other hnames
      obtain ⟨found, hfound, rfl⟩ := List.mem_map.1 (mem_newestFirst_of_names hnames)
      rw [← mem_names_afterAll_iff, hempty found hfound] at hnames
      cases hnames
    · intro hnothing found _
      exact List.eq_nil_iff_forall_not_mem.2 fun other hother =>
        hnothing _ other (mem_names_afterAll_iff.1 hother)
    · rintro other rfl
      obtain ⟨found, hfound, hother⟩ := exists_of_suggest hs
      refine ⟨?_, found, hfound, mem_names_afterAll_iff.1 hother⟩
      rintro rfl
      exact hnowhere found hfound (mem_names_afterAll_iff.1 hother)

end

end Engine

namespace Act

variable {settings : Settings} {calls : List Registration} {σ : Session} {engineId : EngineId}
  {subject name : Ref} {text : Text} {newer older : List Classifier} {type : Classifier}

/-- A name that no type of the line of a subject's type carries is reported as unknown, with the
name of the type. Either it is registered for other types, and all of these are listed, newest
first; or it is registered for none, and another name that is registered is suggested, if there is
any. But a type that faults ends the search for the type of the subject, and if the name is
registered for no type it ends the search for a suggestion. -/
theorem exec_evaluate_unknown
    (he : σ.engineAt engineId = (Engine.create settings).afterAll calls)
    (hname : σ.store.text? name = some text)
    (htypes : (Engine.create settings).typesAdded calls ++ [.universal] = newer ++ type :: older)
    (hnewer : ∀ other ∈ newer, other.identifies σ.store subject = .ok false)
    (hline : ∀ other ∈ type.lineage, ¬ (Engine.create settings).Names calls other.name text)
    (arguments : List Ref) (depth : Nat) :
    (type.identifies σ.store subject = .ok true →
      (∃ u, (evaluate (depth + 1) engineId subject name arguments).exec σ =
          (.error (.unknownAssertion u), σ) ∧
        u.name = text ∧ u.typeName = type.name ∧
        Xor ((Engine.create settings).NamedElsewhere calls (newer ++ type :: older) type.lineage u)
          ((Engine.create settings).NamedNowhere calls (newer ++ type :: older) u)) ∨
      ((∀ other ∈ newer ++ type :: older, ¬ (Engine.create settings).Names calls other.name text) ∧
        ∃ other ∈ older, ∃ cause, other.identifies σ.store subject = .error cause ∧
          (evaluate (depth + 1) engineId subject name arguments).exec σ = (.error cause, σ))) ∧
    (∀ cause, type.identifies σ.store subject = .error cause →
      (evaluate (depth + 1) engineId subject name arguments).exec σ = (.error cause, σ)) := by
  have hnewest : ((Engine.create settings).afterAll calls).classifiers.newestFirst =
      newer ++ type :: older := by
    rw [Engine.newestFirst_afterAll, ← htypes]
    rfl
  constructor
  · intro htype
    have hresolve := ClassifierRegistry.resolve_of_identifies hnewest hnewer htype
    have hrule : ((Engine.create settings).afterAll calls).assertions.resolve? type text =
        none := by
      refine AssertionRegistry.findOn?_eq_none_iff.2 fun other hother => ?_
      refine Option.eq_none_iff_forall_ne_some.2 fun rule hfound => hline other hother ⟨rule, ?_⟩
      rw [AssertionRegistry.find?, Engine.rules_afterAll_iff, Engine.get?_rules_create] at hfound
      exact hfound.resolve_left (by simp)
    have hdispatch := Engine.dispatch_of_unresolved hresolve hrule
    rw [← he] at hdispatch
    cases hunknown : ((Engine.create settings).afterAll calls).unknownAssertion σ.store subject type
        text with
    | ok u =>
      rw [he, hunknown, ← he] at hdispatch
      have hu := Engine.unknownAssertion_afterAll hline hunknown
      rw [hnewest] at hu
      exact Or.inl ⟨u, exec_evaluate_of_error hname hdispatch depth, hu⟩
    | error cause =>
      rw [he, hunknown, ← he] at hdispatch
      obtain ⟨hnone, other, hother, hfault⟩ := Engine.exists_of_unknownAssertion_eq_error hunknown
      rw [hnewest] at hnone hother
      refine Or.inr ⟨Engine.not_names_of_definedFor_eq_nil hnone, other, ?_, cause, hfault,
        exec_evaluate_of_error hname hdispatch depth⟩
      -- Neither the type of the subject nor a newer one faults.
      rcases List.mem_append.1 hother with hmem | hmem
      · rw [hnewer other hmem] at hfault
        cases hfault
      · rcases List.mem_cons.1 hmem with rfl | hmem
        · rw [htype] at hfault
          cases hfault
        · exact hmem
  · intro cause hfault
    have hresolve := ClassifierRegistry.resolve_of_fault hnewest hnewer hfault
    refine exec_evaluate_of_error hname ?_ depth
    rw [he, Engine.dispatch, hresolve]

private def typeOf (name : Text) (identify : Identify) : Registration :=
  .type (.inl ⟨name, none, some ⟨.given 0, identify⟩, none, none, none⟩) .empty

-- A type of no value, for which the handler of the only cell is registered under the name `a`.
private def namedForOther : List Registration :=
  [typeOf ['p'] (.constant false), .assertion ⟨#[.handler 0], #[]⟩ [.char 'p', .char 'a', .cell 0]]

private def evaluatingAfter (calls : List Registration) : Session :=
  { Session.empty (.basic false) 1 with engines := #[(Engine.create .default).afterAll calls] }

/-- A name that is registered for another type is reported with that type. -/
theorem exec_evaluate_namedForOther :
    ∃ u other, (evaluate 1 0 .none (.char 'a') []).exec (evaluatingAfter namedForOther) =
        (.error (.unknownAssertion u), evaluatingAfter namedForOther) ∧
      other.name = ['p'] ∧
      (Engine.create .default).NamedElsewhere namedForOther [other, .universal] [.universal] u := by
  obtain ⟨other, htypes, hother, hidentifies⟩ : ∃ other : Classifier,
      (Engine.create .default).typesAdded namedForOther ++ [.universal] =
        [other] ++ .universal :: [] ∧ other.name = ['p'] ∧
          other.identifies (evaluatingAfter namedForOther).store .none = .ok false :=
    ⟨_, rfl, rfl, rfl⟩
  have hcarried : (Engine.create .default).Names namedForOther other.name ['a'] := by
    rw [hother]
    exact Engine.mem_names_afterAll_iff.1 (by decide +kernel)
  have hline : ∀ type ∈ Classifier.universal.lineage,
      ¬ (Engine.create .default).Names namedForOther type.name ['a'] := by
    intro type htype
    rw [List.mem_singleton.1 htype, ← Engine.mem_names_afterAll_iff]
    decide +kernel
  have hnewer : ∀ type ∈ [other],
      type.identifies (evaluatingAfter namedForOther).store .none = .ok false := by
    simpa using hidentifies
  have he : (evaluatingAfter namedForOther).engineAt 0 =
      (Engine.create .default).afterAll namedForOther := rfl
  have ht : (evaluatingAfter namedForOther).store.text? (.char 'a') = some ['a'] := rfl
  rcases (exec_evaluate_unknown he ht htypes hnewer hline [] 0).1 rfl with
    ⟨u, hrun, hname, -, ⟨helsewhere, -⟩ | ⟨hnowhere, -⟩⟩ | ⟨-, faulty, hmem, -⟩
  · exact ⟨u, other, hrun, hother, helsewhere⟩
  · have hnone := hnowhere.nowhere other (by simp)
    rw [hname] at hnone
    exact absurd hcarried hnone
  · cases hmem

-- A type that faults for every value, and a newer one of every value.
private def faultyOlder : List Registration :=
  [typeOf ['o'] (.faulty (.raised "RuntimeError" "broken")), typeOf ['n'] (.constant true)]

/-- Where an older type than that of the subject faults, a name that no type carries is not reported
as unknown. -/
theorem exec_evaluate_faultyOlder :
    ∃ type older,
      (Engine.create .default).typesAdded faultyOlder ++ [.universal] = type :: older ∧
      type.identifies (evaluatingAfter faultyOlder).store .none = .ok true ∧
      (∀ other ∈ type.lineage, ¬ (Engine.create .default).Names faultyOlder other.name ['x']) ∧
      ∀ u, ((evaluate 1 0 .none (.char 'x') []).exec (evaluatingAfter faultyOlder)).1 ≠
        .error (.unknownAssertion u) := by
  refine ⟨_, _, rfl, rfl, ?_, ?_⟩
  · rintro other _ ⟨rule, before, call, after, heq, hr⟩
    cases hr with
    | @intro s arguments =>
      have hmem : .assertion s arguments ∈ faultyOlder := by simp [heq]
      simp [faultyOlder, typeOf] at hmem
  · intro u h
    have hfault : ((evaluate 1 0 .none (.char 'x') []).exec (evaluatingAfter faultyOlder)).1 =
        .error (.raised "RuntimeError" "broken") := rfl
    rw [hfault] at h
    cases h

end Act

end Expectation

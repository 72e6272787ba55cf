import Expectation.Engine.Registration
import Expectation.Proofs.Assertion.Addition

/-!
# Histories of registrations

The types and rules of an engine are those of the calls that succeeded, in their order: a type that
is added comes in front of those before it, and a rule stands from the one call that registered it.
-/

namespace Expectation

/-- A call that registers something with an engine. -/
inductive Registration where
  | type (given : Definition ⊕ Proposal) (fields : Proposal)
  | assertion (s : Store) (arguments : List Ref)

/-- What a call that registers an assertion asks for. -/
structure AssertionRequest where
  types : List Classifier
  patterns : List (Option Text)
  handler : Option HandlerId

/-- A definition is registered under a new name on the base that it names. -/
theorem ClassifierRegistry.exists_of_register_eq_ok {registry next : ClassifierRegistry}
    {d : Definition} (h : registry.register d = .ok next) :
    ¬ registry.byName.contains d.name = true ∧ ∃ base, registry.baseOf d = .ok base ∧
      next = ⟨d.derive base :: registry.newestFirst,
        registry.byName.set d.name (d.derive base)⟩ := by
  rw [register] at h
  split at h
  · cases h
  · next hnew =>
    split at h
    · next base hbase =>
      cases h
      exact ⟨hnew, base, hbase, rfl⟩
    · cases h

namespace Engine

/-- How a call ends. -/
def register (e : Engine) : Registration → Except Fault Engine
  | .type given fields => (e.addType given fields).mapError .configuration
  | .assertion s arguments => e.addAssertion s arguments

/-- The engine after a call, which leaves it as it was if it fails. -/
def attempt (e : Engine) (call : Registration) : Engine :=
  match e.register call with
  | .ok e' => e'
  | .error _ => e

/-- The engine after calls, in order. -/
def afterAll (e : Engine) (calls : List Registration) : Engine := calls.foldl attempt e

/-- What the arguments of a call ask for; two of them leave out the types, and mean the universal
one. -/
def request (e : Engine) (s : Store) : List Ref → Except Fault AssertionRequest
  | [patterns, handler] =>
    .ok ⟨[.universal], (itemsOf s patterns).map s.text?, handlerOf? s handler⟩
  | [types, patterns, handler] =>
    (e.typesOf s (itemsOf s types)).map fun types =>
      ⟨types, (itemsOf s patterns).map s.text?, handlerOf? s handler⟩
  | _ => .error (.configuration .argumentCount)

/-- A call succeeds and registers a rule: it names the type, and the rule is that of the first
expansion of its patterns that has the name. -/
inductive Registers (e : Engine) (typeName name : Text) (rule : Rule) : Registration → Prop
  | intro {s : Store} {arguments : List Ref} {e' : Engine} {request : AssertionRequest}
      {id : HandlerId} {patterns : List Text} (hok : e.addAssertion s arguments = .ok e')
      (hrequest : e.request s arguments = .ok request)
      (htype : typeName ∈ request.types.map Classifier.name) (hhandler : request.handler = some id)
      (hpatterns : request.patterns = patterns.map some)
      (hfirst : AssertionRegistry.firstRule? id (Pattern.expansions patterns) name = some rule) :
      Registers e typeName name rule (.assertion s arguments)

/-- One of some calls registers a rule. -/
def Carries (e : Engine) (calls : List Registration) (typeName name : Text) (rule : Rule) : Prop :=
  ∃ before call after, calls = before ++ call :: after ∧
    (e.afterAll before).Registers typeName name rule call

/-- The type that a call adds, if it succeeds: it takes from its base what it leaves out. -/
def typeAdded? (e : Engine) : Registration → Option Classifier
  | .type given fields =>
    match definitionOf given fields with
    | .ok d =>
      if e.classifiers.byName.contains d.name then none
      else
        match e.classifiers.baseOf d with
        | .ok base => some (d.derive base)
        | .error _ => none
    | .error _ => none
  | .assertion .. => none

/-- The types that calls add, newest first. -/
def typesAdded (e : Engine) : List Registration → List Classifier
  | [] => []
  | call :: calls => (e.attempt call).typesAdded calls ++ (e.typeAdded? call).toList

/-- Which types values name depends on what is found under names. -/
theorem typesOf_congr {e e' : Engine}
    (h : ∀ name, e'.classifiers.get name = e.classifiers.get name) (s : Store)
    (values : List Ref) : e'.typesOf s values = e.typesOf s values := by
  have htype : ∀ value, e'.typeOf s value = e.typeOf s value := by
    intro value
    unfold typeOf
    split
    · rw [h]
    · rw [h]
    · rfl
  induction values with
  | nil => rfl
  | cons value values ih => rw [typesOf, typesOf, htype, ih]

/-- What a call asks for depends, of the engine, on what is found under names of types. -/
theorem request_congr {e e' : Engine}
    (h : ∀ name, e'.classifiers.get name = e.classifiers.get name) (s : Store)
    (arguments : List Ref) : e'.request s arguments = e.request s arguments := by
  unfold request
  split
  · rfl
  · rw [typesOf_congr h]
  · rfl

/-- A call that registers an assertion registers what it asks for. -/
theorem addAssertion_eq (e : Engine) (s : Store) (arguments : List Ref) :
    e.addAssertion s arguments = (e.request s arguments).bind fun request =>
      match e.assertions.register request.types request.patterns request.handler with
      | .ok assertions => .ok { e with assertions := assertions }
      | .error cause => .error (.configuration cause) := by
  unfold addAssertion
  split
  · rfl
  · next types patterns handler =>
    cases htypes : e.typesOf s (itemsOf s types) with
    | error cause => simp [request, htypes, Bind.bind, Except.bind, Except.map]
    | ok types =>
      simp only [request, htypes, Bind.bind, Except.bind, Except.map]
      rfl
  · next h2 h3 =>
    have hrequest : e.request s arguments = .error (.configuration .argumentCount) := by
      unfold request
      split
      · exact absurd rfl (h2 _ _)
      · exact absurd rfl (h3 _ _ _)
      · rfl
    rw [hrequest]
    rfl

/-- A call that registers an assertion registers what it asks for, and leaves all else. -/
theorem exists_of_addAssertion_eq_ok {e e' : Engine} {s : Store} {arguments : List Ref}
    (h : e.addAssertion s arguments = .ok e') :
    ∃ request, e.request s arguments = .ok request ∧
      e.assertions.register request.types request.patterns request.handler = .ok e'.assertions ∧
      e' = { e with assertions := e'.assertions } := by
  rw [addAssertion_eq] at h
  cases hrequest : e.request s arguments with
  | error cause =>
    rw [hrequest] at h
    cases h
  | ok request =>
    rw [hrequest] at h
    dsimp only [Except.bind] at h
    cases hregister : e.assertions.register request.types request.patterns request.handler with
    | error cause =>
      rw [hregister] at h
      cases h
    | ok assertions =>
      rw [hregister] at h
      cases h
      exact ⟨request, rfl, hregister, rfl⟩

/-- A call that registers an assertion leaves the types, and registers what it asks for. -/
theorem addAssertion_eq_ok {e e' : Engine} {s : Store} {arguments : List Ref}
    (h : e.addAssertion s arguments = .ok e') :
    e'.classifiers = e.classifiers ∧ ∃ request, e.request s arguments = .ok request ∧
      e.assertions.register request.types request.patterns request.handler = .ok e'.assertions := by
  obtain ⟨request, hrequest, hregister, heq⟩ := exists_of_addAssertion_eq_ok h
  exact ⟨by rw [heq], request, hrequest, hregister⟩

/-- A call that adds a type has a definition of a new name and a base for it: the type is found
under its name and comes in front, and there is room for its rules. -/
theorem exists_of_addType_eq_ok {e e' : Engine} {given : Definition ⊕ Proposal} {fields : Proposal}
    (h : e.addType given fields = .ok e') :
    ∃ d base, definitionOf given fields = .ok d ∧ ¬ e.classifiers.byName.contains d.name = true ∧
      e.classifiers.baseOf d = .ok base ∧
      e' = { e with
        classifiers := ⟨d.derive base :: e.classifiers.newestFirst,
          e.classifiers.byName.set d.name (d.derive base)⟩
        assertions := e.assertions.addType d.name } := by
  unfold addType at h
  cases hd : definitionOf given fields with
  | error cause => simp [hd, Bind.bind, Except.bind] at h
  | ok d =>
    simp only [hd, Bind.bind, Except.bind, define] at h
    cases hregister : e.classifiers.register d with
    | error cause =>
      rw [hregister] at h
      cases h
    | ok classifiers =>
      obtain ⟨hnew, base, hbase, rfl⟩ := ClassifierRegistry.exists_of_register_eq_ok hregister
      rw [hregister] at h
      cases h
      exact ⟨d, base, rfl, hnew, hbase, rfl⟩

/-- A call that adds a type puts it in front and leaves the rules. -/
theorem addType_eq_ok {e e' : Engine} {given : Definition ⊕ Proposal} {fields : Proposal}
    (h : e.addType given fields = .ok e') :
    (∀ typeName, e'.assertions.rules typeName = e.assertions.rules typeName) ∧
      ∃ type, e.typeAdded? (.type given fields) = some type ∧
        e'.classifiers.newestFirst = type :: e.classifiers.newestFirst := by
  obtain ⟨d, base, hd, hnew, hbase, rfl⟩ := exists_of_addType_eq_ok h
  exact ⟨AssertionRegistry.rules_addType _ _, _, by simp [typeAdded?, hd, hnew, hbase], rfl⟩

/-- A call that adds a type succeeds as the type is added. -/
theorem register_type_eq_ok_iff {e e' : Engine} {given : Definition ⊕ Proposal}
    {fields : Proposal} :
    e.register (.type given fields) = .ok e' ↔ e.addType given fields = .ok e' := by
  rw [register]
  cases e.addType given fields with
  | error cause => exact ⟨nofun, nofun⟩
  | ok added =>
    constructor
    all_goals
      intro h
      cases h
      rfl

/-- A call that fails to add a type adds none. -/
theorem typeAdded?_of_error {e : Engine} {given : Definition ⊕ Proposal} {fields : Proposal}
    {cause : Fault} (h : e.register (.type given fields) = .error cause) :
    e.typeAdded? (.type given fields) = none := by
  rw [typeAdded?]
  unfold register addType at h
  cases hd : definitionOf given fields with
  | error cause => rfl
  | ok d =>
    simp only [hd, Bind.bind, Except.bind, define, ClassifierRegistry.register] at h
    by_cases hold : e.classifiers.byName.contains d.name = true
    · exact if_pos hold
    · rw [if_neg hold] at h
      cases hbase : e.classifiers.baseOf d with
      | error cause => simp [hold, hbase]
      | ok base =>
        rw [hbase] at h
        cases h

variable {e : Engine} {typeName name : Text} {rule : Rule}

/-- A rule that a call registers is new. -/
theorem get?_rules_of_registers {call : Registration} (h : e.Registers typeName name rule call) :
    (e.assertions.rules typeName).get? name = none := by
  cases h with
  | intro hok hrequest htype hhandler hpatterns hfirst =>
    obtain ⟨_, request, hrequest', hregister⟩ := addAssertion_eq_ok hok
    rw [hrequest] at hrequest'
    cases hrequest'
    obtain ⟨id, texts, hid, htexts, hrules⟩ := AssertionRegistry.rules_of_register hregister
    rw [hhandler] at hid
    cases hid
    rw [hpatterns] at htexts
    cases (List.map_inj_right fun _ _ h => Option.some.inj h).1 htexts
    exact (hrules typeName name).2 htype (by rw [hfirst]; rfl)

/-- The rules after a call are those before it and those that it registers. -/
theorem rules_attempt_iff (call : Registration) :
    ((e.attempt call).assertions.rules typeName).get? name = some rule ↔
      (e.assertions.rules typeName).get? name = some rule ∨
        e.Registers typeName name rule call := by
  cases hcall : e.register call with
  | error cause =>
    rw [attempt, hcall]
    refine ⟨Or.inl, fun h => h.elim id fun hr => ?_⟩
    cases hr with
    | intro hok =>
      rw [register, hok] at hcall
      cases hcall
  | ok e' =>
    rw [attempt, hcall]
    cases call with
    | type given fields =>
      obtain ⟨hrules, _⟩ := addType_eq_ok (register_type_eq_ok_iff.1 hcall)
      dsimp only
      rw [hrules]
      refine ⟨Or.inl, fun h => h.elim id fun hr => ?_⟩
      cases hr
    | assertion s arguments =>
      obtain ⟨_, request, hrequest, hregister⟩ := addAssertion_eq_ok hcall
      obtain ⟨id, texts, hid, htexts, hrules⟩ := AssertionRegistry.rules_of_register hregister
      dsimp only
      rw [(hrules typeName name).1, Option.or_eq_some_iff]
      refine or_congr Iff.rfl ⟨?_, ?_⟩
      · rintro ⟨_, hnew⟩
        split at hnew
        · next htype => exact .intro hcall hrequest htype hid htexts hnew
        · cases hnew
      · intro hr
        refine ⟨get?_rules_of_registers hr, ?_⟩
        cases hr with
        | intro hok hrequest' htype hhandler hpatterns hfirst =>
          rw [hrequest] at hrequest'
          cases hrequest'
          rw [hid] at hhandler
          cases hhandler
          rw [htexts] at hpatterns
          cases (List.map_inj_right fun _ _ h => Option.some.inj h).1 hpatterns
          rw [if_pos htype, hfirst]

/-- The rules after some calls are those before them and those that one of them registers. -/
theorem rules_afterAll_iff (calls : List Registration) :
    ((e.afterAll calls).assertions.rules typeName).get? name = some rule ↔
      (e.assertions.rules typeName).get? name = some rule ∨
        e.Carries calls typeName name rule := by
  induction calls generalizing e with
  | nil => simp [afterAll, Carries]
  | cons call calls ih =>
    have hstep : e.afterAll (call :: calls) = (e.attempt call).afterAll calls := rfl
    rw [hstep, ih, rules_attempt_iff, or_assoc]
    refine or_congr Iff.rfl ⟨?_, ?_⟩
    · rintro (hr | ⟨before, other, after, rfl, hr⟩)
      · exact ⟨[], call, calls, rfl, hr⟩
      · exact ⟨call :: before, other, after, rfl, hr⟩
    · rintro ⟨before, other, after, heq, hr⟩
      cases before with
      | nil =>
        cases heq
        exact Or.inl hr
      | cons first before =>
        cases heq
        exact Or.inr ⟨before, other, after, rfl, hr⟩

private theorem rule_unique {call : Registration} {rule' : Rule}
    (h : e.Registers typeName name rule call) (h' : e.Registers typeName name rule' call) :
    rule = rule' := by
  have hrule := (rules_attempt_iff call).2 (Or.inr h)
  have hrule' := (rules_attempt_iff call).2 (Or.inr h')
  rw [hrule] at hrule'
  exact Option.some.inj hrule'

private theorem not_registers_later {before between : List Registration}
    {call call' : Registration} {rule' : Rule}
    (h : (e.afterAll before).Registers typeName name rule call) :
    ¬ (e.afterAll (before ++ call :: between)).Registers typeName name rule' call' := by
  intro h'
  have hnone := get?_rules_of_registers h'
  have hsome := (rules_afterAll_iff (e := e) (before ++ call :: between)).2
    (Or.inr ⟨before, call, between, rfl, h⟩)
  rw [hnone] at hsome
  cases hsome

/-- An engine has no rule at first. -/
theorem get?_rules_create (settings : Settings) (typeName name : Text) :
    ((create settings).assertions.rules typeName).get? name = none := by
  have hrules : (create settings).assertions.rules typeName = .empty := by
    change ((Table.empty.set Classifier.universalName Table.empty).get? typeName).getD .empty = _
    rw [Table.get?_set]
    split <;> rfl
  rw [hrules]
  rfl

/-- One call of a history registers a rule under a name on a type, and no other. -/
theorem registers_unique {calls later before before' after after' : List Registration}
    {call call' : Registration} {rule' : Rule} (hcalls : calls = before ++ call :: after)
    (hlater : calls ++ later = before' ++ call' :: after')
    (h : (e.afterAll before).Registers typeName name rule call)
    (h' : (e.afterAll before').Registers typeName name rule' call') :
    before' = before ∧ call' = call ∧ rule' = rule := by
  rw [hcalls, List.append_assoc, List.cons_append] at hlater
  rcases List.append_eq_append_iff.1 hlater with
    ⟨between, hbefore, hrest⟩ | ⟨between, hbefore, hrest⟩
  · cases between with
    | nil =>
      rw [List.append_nil] at hbefore
      cases hbefore
      cases hrest
      exact ⟨rfl, rfl, rule_unique h' h⟩
    | cons first between =>
      obtain ⟨rfl, _⟩ := List.cons.inj hrest
      rw [hbefore] at h'
      exact absurd h' (not_registers_later h)
  · cases between with
    | nil =>
      rw [List.append_nil] at hbefore
      cases hbefore
      cases hrest
      exact ⟨rfl, rfl, rule_unique h' h⟩
    | cons first between =>
      obtain ⟨rfl, _⟩ := List.cons.inj hrest
      rw [hbefore] at h
      exact absurd h (not_registers_later h')

/-- The types after a call are those before it, behind the one that it adds. -/
theorem newestFirst_attempt (call : Registration) :
    (e.attempt call).classifiers.newestFirst =
      (e.typeAdded? call).toList ++ e.classifiers.newestFirst := by
  rw [attempt]
  cases hcall : e.register call with
  | ok e' =>
    cases call with
    | type given fields =>
      obtain ⟨_, type, htype, hnewest⟩ := addType_eq_ok (register_type_eq_ok_iff.1 hcall)
      rw [htype]
      exact hnewest
    | assertion s arguments => exact congrArg _ (addAssertion_eq_ok hcall).1
  | error cause =>
    cases call with
    | type given fields => rw [typeAdded?_of_error hcall]; rfl
    | assertion s arguments => rfl

/-- The types after some calls are those before them, behind those that the calls add. -/
theorem newestFirst_afterAll (calls : List Registration) :
    (e.afterAll calls).classifiers.newestFirst =
      e.typesAdded calls ++ e.classifiers.newestFirst := by
  induction calls generalizing e with
  | nil => rfl
  | cons call calls ih =>
    have hstep : e.afterAll (call :: calls) = (e.attempt call).afterAll calls := rfl
    rw [hstep, ih, typesAdded, List.append_assoc, newestFirst_attempt]

end Engine

end Expectation

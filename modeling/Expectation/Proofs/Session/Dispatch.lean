import Expectation.Classifier.Standard
import Expectation.Document.BasicConsole
import Expectation.Proofs.Engine.History
import Expectation.Proofs.Session.Run
import Expectation.Session.Requests

/-!
# Dispatch

Which handler an evaluation runs is determined by the calls that registered types and assertions
with the engine. The type of the subject is the newest that identifies it, and the rule of the name
is that of the nearest type that the type is derived from and that carries the name.
-/

namespace Expectation

namespace ClassifierRegistry

variable {s : Store} {value : Ref} {newer older : List Classifier} {type : Classifier}

private theorem firstIdentifying_append
    (hnewer : ∀ other ∈ newer, other.identifies s value = .ok false) :
    firstIdentifying s value (newer ++ older) = firstIdentifying s value older := by
  induction newer with
  | nil => rfl
  | cons other newer ih =>
    rw [List.cons_append, firstIdentifying, hnewer other List.mem_cons_self]
    exact ih fun other hother => hnewer other (List.mem_cons_of_mem _ hother)

/-- A value is of the newest type that identifies it. -/
theorem resolve_of_identifies {registry : ClassifierRegistry}
    (h : registry.newestFirst = newer ++ type :: older)
    (hnewer : ∀ other ∈ newer, other.identifies s value = .ok false)
    (htype : type.identifies s value = .ok true) : registry.resolve s value = .ok type := by
  rw [resolve, h, firstIdentifying_append hnewer, firstIdentifying, htype]

/-- A fault of a type ends the search for the type of a value, unless a newer one identifies it. -/
theorem resolve_of_fault {registry : ClassifierRegistry} {cause : Fault}
    (h : registry.newestFirst = newer ++ type :: older)
    (hnewer : ∀ other ∈ newer, other.identifies s value = .ok false)
    (htype : type.identifies s value = .error cause) :
    registry.resolve s value = .error cause := by
  rw [resolve, h, firstIdentifying_append hnewer, firstIdentifying, htype]

end ClassifierRegistry

/-- Only the fault of a type ends the search for a suggestion. -/
theorem Candidate.ofTypes_eq_error {s : Store} {subject : Ref} {asked : Text}
    {assertions : AssertionRegistry} {identifying : Nat} {types : List Classifier} {cause : Fault}
    (h : ofTypes s subject asked assertions identifying types = .error cause) :
    ∃ type ∈ types, type.identifies s subject = .error cause := by
  induction types generalizing identifying with
  | nil => cases h
  | cons type types ih =>
    cases htype : type.identifies s subject with
    | error fault =>
      simp only [ofTypes, htype, Bind.bind, Except.bind, Except.error.injEq] at h
      exact ⟨type, List.mem_cons_self, by rw [htype, h]⟩
    | ok identified =>
      simp only [ofTypes, htype, Bind.bind, Except.bind] at h
      split at h
      · next hrest =>
        cases h
        obtain ⟨other, hother, hfault⟩ := ih hrest
        exact ⟨other, List.mem_cons_of_mem _ hother, hfault⟩
      · cases h

namespace Engine

variable {e : Engine} {s : Store} {subject : Ref} {name : Text} {type : Classifier}
  {u : UnknownAssertion}

/-- The search for a rule of a name that stands for nothing on the type of a subject ends with the
report of the name, or with the fault that keeps the name from being reported. -/
theorem dispatch_of_unresolved (htype : e.classifiers.resolve s subject = .ok type)
    (hrule : e.assertions.resolve? type name = none) :
    e.dispatch s subject name =
      .error (match e.unknownAssertion s subject type name with
        | .ok unknown => .unknownAssertion unknown
        | .error cause => cause) := by
  rw [dispatch, htype]
  simp only [hrule]
  cases e.unknownAssertion s subject type name <;> rfl

/-- Only the fault of a type keeps a name from being reported as unknown, and only where no type
carries the name. -/
theorem exists_of_unknownAssertion_eq_error {cause : Fault}
    (h : e.unknownAssertion s subject type name = .error cause) :
    e.assertions.definedFor name e.classifiers.newestFirst = [] ∧
      ∃ other ∈ e.classifiers.newestFirst, other.identifies s subject = .error cause := by
  unfold unknownAssertion at h
  split at h
  · next hnone =>
    refine ⟨hnone, ?_⟩
    split at h
    · cases h
    · next fault hsuggest =>
      cases h
      unfold suggest at hsuggest
      cases hcandidates : Candidate.ofTypes s subject name e.assertions 0
          e.classifiers.newestFirst.reverse with
      | ok candidates =>
        rw [hcandidates] at hsuggest
        cases hsuggest
      | error fault =>
        rw [hcandidates] at hsuggest
        cases hsuggest
        obtain ⟨other, hother, hfault⟩ := Candidate.ofTypes_eq_error hcandidates
        exact ⟨other, List.mem_reverse.1 hother, hfault⟩
  · cases h

/-- An unknown assertion lists the types that carry its name, or no type carries it and it comes
with what is suggested. -/
theorem unknownAssertion_eq_ok
    (h : e.unknownAssertion s subject type name = .ok u) :
    (∃ first others, e.assertions.definedFor name e.classifiers.newestFirst = first :: others ∧
      u = ⟨name, type.name, (first :: others).map Classifier.name, none⟩) ∨
    (e.assertions.definedFor name e.classifiers.newestFirst = [] ∧
      ∃ suggestion, suggest s subject name e.classifiers e.assertions = .ok suggestion ∧
        u = ⟨name, type.name, [], suggestion⟩) := by
  unfold unknownAssertion at h
  split at h
  · next hnone =>
    split at h
    · next suggestion hsuggest =>
      cases h
      exact Or.inr ⟨hnone, suggestion, hsuggest, rfl⟩
    · cases h
  · next hne =>
    cases h
    obtain ⟨first, others, heq⟩ := List.exists_cons_of_ne_nil fun hnil => hne hnil
    exact Or.inl ⟨first, others, heq, by rw [heq]⟩

/-- A name that stands for nothing on the type of a subject is unknown, unless a type faults while
a suggestion is looked for. -/
theorem dispatch_of_unknown (htype : e.classifiers.resolve s subject = .ok type)
    (hname : e.assertions.resolve? type name = none) :
    ∃ cause, e.dispatch s subject name = .error cause ∧
      ((∃ unknown, cause = .unknownAssertion unknown ∧ unknown.name = name ∧
          unknown.typeName = type.name) ∨
        ∃ other ∈ e.classifiers.newestFirst, other.identifies s subject = .error cause) := by
  have hdispatch := dispatch_of_unresolved htype hname
  cases hunknown : e.unknownAssertion s subject type name with
  | ok unknown =>
    rw [hunknown] at hdispatch
    refine ⟨_, hdispatch, Or.inl ⟨unknown, rfl, ?_⟩⟩
    rcases unknownAssertion_eq_ok hunknown with ⟨_, _, -, rfl⟩ | ⟨-, _, -, rfl⟩
    · exact ⟨rfl, rfl⟩
    · exact ⟨rfl, rfl⟩
  | error cause =>
    rw [hunknown] at hdispatch
    exact ⟨_, hdispatch, Or.inr (exists_of_unknownAssertion_eq_error hunknown).2⟩

end Engine

namespace Session

variable {σ : Session} {id other : EngineId} {e : Engine}

/-- The session in which an engine is replaced. -/
def withEngine (σ : Session) (id : EngineId) (e : Engine) : Session :=
  { σ with engines := σ.engines.setIfInBounds id e }

@[simp] theorem size_engines_withEngine (σ : Session) (id : EngineId) (e : Engine) :
    (σ.withEngine id e).engines.size = σ.engines.size := by
  simp [withEngine]

/-- A replaced engine is the new one. -/
theorem engineAt_withEngine_self (h : id < σ.engines.size) :
    (σ.withEngine id e).engineAt id = e := by
  simp [engineAt, withEngine, h]

/-- Every other engine stays. -/
theorem engineAt_withEngine_of_ne (h : other ≠ id) :
    (σ.withEngine id e).engineAt other = σ.engineAt other := by
  simp [engineAt, withEngine, Array.getElem?_setIfInBounds_ne (Ne.symm h)]

end Session

namespace Act

/-- To change an engine, unless that is refused, is to replace it or to change nothing. -/
theorem exec_changeEngine (id : EngineId) (change : Engine → Except Fault Engine) (σ : Session) :
    (changeEngine id change).exec σ =
      match change (σ.engineAt id) with
      | .ok e => (.ok (), σ.withEngine id e)
      | .error cause => (.error cause, σ) := by
  rw [changeEngine, exec_bind_of_ok (exec_engine id σ), exec_bind, exec_ofExcept]
  cases change (σ.engineAt id) <;> rfl

/-- The request to add a type replaces the engine or changes nothing. -/
theorem exec_addType (id : EngineId) (given : Definition ⊕ Proposal) (fields : Proposal)
    (σ : Session) :
    (addType id given fields).exec σ =
      match (σ.engineAt id).addType given fields with
      | .ok e => (.ok (), σ.withEngine id e)
      | .error cause => (.error (.configuration cause), σ) := by
  rw [addType, exec_changeEngine]
  cases (σ.engineAt id).addType given fields <;> rfl

/-- An evaluation ends with the fault of the search for a rule. -/
theorem exec_evaluate_of_error {engineId : EngineId} {subject name : Ref} {arguments : List Ref}
    {σ : Session} {text : Text} {cause : Fault} (hname : σ.store.text? name = some text)
    (h : (σ.engineAt engineId).dispatch σ.store subject text = .error cause) (depth : Nat) :
    (evaluate (depth + 1) engineId subject name arguments).exec σ = (.error cause, σ) := by
  rw [evaluate, exec_bind_of_ok (exec_store σ)]
  simp only [hname]
  rw [exec_bind_of_ok (exec_engine _ σ), h]
  exact exec_bind_of_error (exec_ofExcept _ σ)

variable {settings : Settings} {calls : List Registration} {σ : Session} {engineId : EngineId}
  {subject name : Ref} {text : Text} {newer older : List Classifier} {type : Classifier}

/-- Dispatch is determined by the history of an engine. Where every newer type says that the
subject is not of it, a type that identifies the subject decides: the evaluation runs the handler
that the one call registered which carries the name to the nearest type of the line, in a context
with the name and the flags of the first expansion; if no call does, the assertion is unknown,
unless some type faults while a suggestion is looked for. A type that faults ends the
evaluation. -/
theorem exec_evaluate_of_history
    (he : σ.engineAt engineId = (Engine.create settings).afterAll calls)
    (hname : σ.store.text? name = some text)
    (htypes : (Engine.create settings).typesAdded calls ++ [.universal] = newer ++ type :: older)
    (hnewer : ∀ other ∈ newer, other.identifies σ.store subject = .ok false)
    (arguments : List Ref) (depth : Nat) :
    (type.identifies σ.store subject = .ok true →
      (∀ nearer owner farther rule, type.lineage = nearer ++ owner :: farther →
        (∀ other ∈ nearer, ∀ rule',
          ¬ (Engine.create settings).Carries calls other.name text rule') →
        (Engine.create settings).Carries calls owner.name text rule →
        ∃ c cells, Begun c ⟨cells, σ.store.contexts.push c⟩ engineId subject text type rule.flags
            arguments ∧
          (evaluate (depth + 1) engineId subject name arguments).exec σ =
            (discard (run (evaluate depth)
              (σ.handling rule σ.store.contexts.size subject arguments))).exec
                { σ with store := ⟨cells, σ.store.contexts.push c⟩ }) ∧
      ((∀ other ∈ type.lineage, ∀ rule,
          ¬ (Engine.create settings).Carries calls other.name text rule) →
        ∃ cause, (evaluate (depth + 1) engineId subject name arguments).exec σ =
            (.error cause, σ) ∧
          ((∃ unknown, cause = .unknownAssertion unknown ∧ unknown.name = text ∧
              unknown.typeName = type.name) ∨
            ∃ other ∈ newer ++ type :: older,
              other.identifies σ.store subject = .error cause))) ∧
    (∀ cause, type.identifies σ.store subject = .error cause →
      (evaluate (depth + 1) engineId subject name arguments).exec σ = (.error cause, σ)) ∧
    (∀ later before call after before' call' after' typeName text' rule rule',
      calls = before ++ call :: after → calls ++ later = before' ++ call' :: after' →
        ((Engine.create settings).afterAll before).Registers typeName text' rule call →
        ((Engine.create settings).afterAll before').Registers typeName text' rule' call' →
        before' = before ∧ call' = call ∧ rule' = rule) := by
  have hnewest : (σ.engineAt engineId).classifiers.newestFirst = newer ++ type :: older := by
    rw [he, Engine.newestFirst_afterAll, ← htypes]
    rfl
  have hrules : ∀ other rule, (σ.engineAt engineId).assertions.find? other text = some rule ↔
      (Engine.create settings).Carries calls other.name text rule := by
    intro other rule
    rw [he, AssertionRegistry.find?, Engine.rules_afterAll_iff]
    rw [Engine.get?_rules_create]
    simp
  have hnone : ∀ other, (∀ rule, ¬ (Engine.create settings).Carries calls other.name text rule) →
      (σ.engineAt engineId).assertions.find? other text = none := by
    intro other hother
    exact Option.eq_none_iff_forall_ne_some.2
      fun rule hrule => hother rule ((hrules other rule).1 hrule)
  refine ⟨fun htype => ⟨?_, ?_⟩, ?_,
    fun _ _ _ _ _ _ _ _ _ _ _ h h' hr hr' => Engine.registers_unique h h' hr hr'⟩
  · intro nearer owner farther rule hline hnearer hcarries
    have hresolve := ClassifierRegistry.resolve_of_identifies hnewest hnewer htype
    have hrule : (σ.engineAt engineId).assertions.resolve? type text = some (owner, rule) :=
      AssertionRegistry.findOn?_eq_some_iff.2 ⟨nearer, farther, hline,
        fun other hother => hnone other (hnearer other hother), (hrules owner rule).2 hcarries⟩
    obtain ⟨c, cells, hbegin, hc⟩ :=
      exec_beginContext engineId subject text type rule.flags arguments σ
    have hdispatch : (σ.engineAt engineId).dispatch σ.store subject text = .ok (type, rule) := by
      rw [Engine.dispatch, hresolve]
      simp only [hrule]
    exact ⟨c, cells, hc, exec_evaluate ⟨hname, hdispatch, hbegin⟩ depth⟩
  · intro hline
    have hresolve := ClassifierRegistry.resolve_of_identifies hnewest hnewer htype
    have hrule : (σ.engineAt engineId).assertions.resolve? type text = none :=
      AssertionRegistry.findOn?_eq_none_iff.2 fun other hother => hnone other (hline other hother)
    obtain ⟨cause, hdispatch, hcause⟩ := Engine.dispatch_of_unknown hresolve hrule
    rw [hnewest] at hcause
    exact ⟨cause, exec_evaluate_of_error hname hdispatch depth, hcause⟩
  · intro cause hfault
    have hresolve := ClassifierRegistry.resolve_of_fault hnewest hnewer hfault
    refine exec_evaluate_of_error hname ?_ depth
    rw [Engine.dispatch, hresolve]

private def definitionOfKind (name : Text) (identify : Identify) : Registration :=
  .type (.inl ⟨name, none, some ⟨.given 0, identify⟩, none, none, none⟩) .empty

-- The handler of the third cell, with two patterns that overlap and two of which one is malformed.
private def offered : Store :=
  ⟨#[.list [.cell 3, .char 'a'], .list [.char 'b', .char '['], .handler 0, .text "[x] a"], #[]⟩

-- A type that identifies every value is added. A call registers `[x] a` and `a`, which both expand
-- to `a`, and a later one fails for the second of its patterns.
private def overlapping : List Registration :=
  [definitionOfKind ['t'] (.constant true), .assertion offered [.cell 0, .cell 2],
    .assertion offered [.cell 1, .cell 2]]

private def overlappingRule : Rule := ⟨0, .ofList [(['x'], false)], "[x] a"⟩

private def overlappingType : Classifier :=
  Definition.derive ⟨['t'], none, some ⟨.given 0, .constant true⟩, none, none, none⟩ .universal

private def dispatching (calls : List Registration) : Session :=
  { Session.empty (.basic false) 1 with engines := #[(Engine.create .default).afterAll calls] }

private theorem carries_overlapping :
    (Engine.create .default).Carries overlapping Classifier.universalName ['a']
      overlappingRule := by
  have hrule : (((Engine.create .default).afterAll overlapping).assertions.rules
      Classifier.universalName).get? ['a'] = some overlappingRule := by
    decide +kernel
  simpa [Engine.get?_rules_create] using (Engine.rules_afterAll_iff overlapping).1 hrule

private theorem not_carries_overlapping (rule : Rule) :
    ¬ (Engine.create .default).Carries overlapping overlappingType.name ['a'] rule := by
  intro hcarries
  have hrule := (Engine.rules_afterAll_iff overlapping).2 (Or.inr hcarries)
  have hnone : (((Engine.create .default).afterAll overlapping).assertions.rules
      overlappingType.name).get? ['a'] = none := by
    decide +kernel
  rw [hnone] at hrule
  cases hrule

/-- The rule that the universal type carries is that of the first pattern with the expansion, and it
is found from the added type; the call that failed has no part in it. -/
theorem exec_evaluate_overlapping :
    ∃ c cells, Begun c ⟨cells, #[c]⟩ 0 .none ['a'] overlappingType overlappingRule.flags [] ∧
      (evaluate 1 0 .none (.char 'a') []).exec (dispatching overlapping) =
        (discard (run (evaluate 0) .skip)).exec
          { dispatching overlapping with store := ⟨cells, #[c]⟩ } := by
  have htypes : (Engine.create .default).typesAdded overlapping ++ [.universal] =
      [] ++ overlappingType :: [.universal] := rfl
  have hname : (dispatching overlapping).store.text? (.char 'a') = some ['a'] := rfl
  have he : (dispatching overlapping).engineAt 0 =
      (Engine.create .default).afterAll overlapping := rfl
  have hnewer : ∀ other ∈ ([] : List Classifier),
      other.identifies (dispatching overlapping).store .none = .ok false := by simp
  have h := exec_evaluate_of_history he hname htypes hnewer [] 0
  exact (h.1 rfl).1 [overlappingType] .universal [] overlappingRule rfl
    (by simpa using not_carries_overlapping) carries_overlapping

-- A type that faults for every value, and a newer one that identifies every value.
private def faultyBelow : List Registration :=
  [definitionOfKind ['o'] (.faulty (.raised "RuntimeError" "broken")),
    definitionOfKind ['n'] (.constant true)]

/-- An assertion that no call registered, evaluated with a subject that the newest type identifies,
is not reported as unknown where an older type faults. -/
theorem exec_evaluate_faultyBelow :
    ∃ type older,
      (Engine.create .default).typesAdded faultyBelow ++ [.universal] = type :: older ∧
      type.identifies .empty .none = .ok true ∧
      (∀ other ∈ type.lineage, ∀ rule,
        ¬ (Engine.create .default).Carries faultyBelow other.name ['x'] rule) ∧
      ∀ unknown, ((evaluate 1 0 .none (.char 'x') []).exec (dispatching faultyBelow)).1 ≠
        .error (.unknownAssertion unknown) := by
  refine ⟨_, _, rfl, rfl, ?_, ?_⟩
  · rintro other _ rule ⟨before, call, after, heq, hr⟩
    cases hr with
    | @intro s arguments =>
      have hmem : .assertion s arguments ∈ faultyBelow := by
        rw [heq]
        simp
      simp [faultyBelow, definitionOfKind] at hmem
  · intro unknown h
    have hfault : ((evaluate 1 0 .none (.char 'x') []).exec (dispatching faultyBelow)).1 =
        .error (.raised "RuntimeError" "broken") := rfl
    rw [hfault] at h
    cases h

end Act

end Expectation

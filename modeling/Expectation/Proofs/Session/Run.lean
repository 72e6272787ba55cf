import Expectation.Proofs.Value.Building
import Expectation.Proofs.Value.FlagDictionary

/-!
# Runs of actions

How an action ends from a session, and the session that it leaves. Every primitive action has its
equation here, so that later proofs run actions step by step and never open the monad.
-/

namespace Expectation

namespace Session

/-- The context of an invocation; unknown invocations have a blank one. -/
def contextAt (σ : Session) (id : ContextId) : Context := σ.store.contextAt id

/-- A failure; unknown ones are empty. -/
def failureAt (σ : Session) (id : FailureId) : Failure :=
  σ.failures.getD id ⟨.empty defaultIndentWidth, .none, .none, none, [], none⟩

/-- An engine; unknown ones are new. -/
def engineAt (σ : Session) (id : EngineId) : Engine := σ.engines.getD id (.create .default)

/-- The session with the context of an invocation replaced. -/
def withContext (σ : Session) (id : ContextId) (c : Context) : Session :=
  { σ with store := σ.store.withContext id c }

/-- The session with a failure replaced. -/
def withFailure (σ : Session) (id : FailureId) (f : Failure) : Session :=
  { σ with failures := σ.failures.setIfInBounds id f }

@[simp] theorem size_contexts_withContext (σ : Session) (id : ContextId) (c : Context) :
    (σ.withContext id c).store.contexts.size = σ.store.contexts.size :=
  σ.store.size_contexts_withContext id c

/-- A replaced context is the new one. -/
theorem contextAt_withContext_self (σ : Session) (id : ContextId) (c : Context)
    (h : id < σ.store.contexts.size) : (σ.withContext id c).contextAt id = c :=
  σ.store.contextAt_withContext_self c h

/-- Every other context stays. -/
theorem contextAt_withContext_of_ne (σ : Session) {id other : ContextId} (c : Context)
    (h : other ≠ id) : (σ.withContext id c).contextAt other = σ.contextAt other :=
  σ.store.contextAt_withContext_of_ne c h

/-- The session in which a context is one nested call deeper. -/
def entered (σ : Session) (id : ContextId) : Session :=
  σ.withContext id { σ.contextAt id with nesting := (σ.contextAt id).nesting + 1 }

@[simp] theorem size_contexts_entered (σ : Session) (id : ContextId) :
    (σ.entered id).store.contexts.size = σ.store.contexts.size :=
  σ.size_contexts_withContext id _

/-- Within a nested call its context is one level deeper. -/
theorem contextAt_entered (σ : Session) {id : ContextId} (h : id < σ.store.contexts.size) :
    (σ.entered id).contextAt id =
      { σ.contextAt id with nesting := (σ.contextAt id).nesting + 1 } :=
  σ.contextAt_withContext_self id _ h

/-- The session in which a context is one nested call less deep. -/
def exited (σ : Session) (id : ContextId) : Session :=
  σ.withContext id { σ.contextAt id with nesting := (σ.contextAt id).nesting - 1 }

@[simp] theorem size_failures_withFailure (σ : Session) (id : FailureId) (f : Failure) :
    (σ.withFailure id f).failures.size = σ.failures.size := by
  simp [withFailure]

/-- A replaced failure is the new one. -/
theorem failureAt_withFailure_self (σ : Session) (id : FailureId) (f : Failure)
    (h : id < σ.failures.size) : (σ.withFailure id f).failureAt id = f := by
  simp [failureAt, withFailure, h]

/-- Every other failure stays. -/
theorem failureAt_withFailure_of_ne (σ : Session) {id other : FailureId} (f : Failure)
    (h : other ≠ id) : (σ.withFailure id f).failureAt other = σ.failureAt other := by
  simp [failureAt, withFailure, Array.getElem?_setIfInBounds_ne (Ne.symm h)]

end Session

namespace Act

variable {α β : Type}

/-- How an action ends from a session, and the session that it leaves. -/
def exec (act : Act α) (σ : Session) : Except Fault α × Session := act σ

@[simp] theorem exec_pure (a : α) (σ : Session) : (pure a : Act α).exec σ = (.ok a, σ) := rfl

/-- A sequence goes on from an answer and ends with a fault. -/
theorem exec_bind (x : Act α) (f : α → Act β) (σ : Session) :
    (x >>= f).exec σ =
      match x.exec σ with
      | (.ok a, τ) => (f a).exec τ
      | (.error cause, τ) => (.error cause, τ) := by
  unfold exec
  simp only [bind, ExceptT.bind, ExceptT.mk, StateT.bind]
  rcases x σ with ⟨answer | cause, τ⟩ <;> rfl

theorem exec_bind_of_ok {x : Act α} {f : α → Act β} {σ τ : Session} {a : α}
    (h : x.exec σ = (.ok a, τ)) : (x >>= f).exec σ = (f a).exec τ := by
  rw [exec_bind, h]

theorem exec_bind_of_error {x : Act α} {f : α → Act β} {σ τ : Session} {cause : Fault}
    (h : x.exec σ = (.error cause, τ)) : (x >>= f).exec σ = (.error cause, τ) := by
  rw [exec_bind, h]

@[simp] theorem exec_outcome (x : Act α) (σ : Session) :
    (outcome x).exec σ = (.ok (x.exec σ).1, (x.exec σ).2) := rfl

@[simp] theorem exec_ofExcept (result : Except Fault α) (σ : Session) :
    (ofExcept result).exec σ = (result, σ) := by
  cases result <;> rfl

@[simp] theorem exec_get (σ : Session) : (get : Act Session).exec σ = (.ok σ, σ) := rfl

@[simp] theorem exec_modify (f : Session → Session) (σ : Session) :
    (modify f : Act PUnit).exec σ = (.ok .unit, f σ) := rfl

@[simp] theorem exec_ofTraced (traced : Traced α) (σ : Session) :
    (ofTraced traced).exec σ =
      (traced.outcome, { σ with log := σ.log ++ traced.records }) := by
  rw [ofTraced, exec_bind_of_ok (exec_modify _ σ), exec_ofExcept]

@[simp] theorem exec_store (σ : Session) : store.exec σ = (.ok σ.store, σ) := rfl

@[simp] theorem exec_put (node : Node) (σ : Session) :
    (put node).exec σ = (.ok (σ.store.put node).1, { σ with store := (σ.store.put node).2 }) := rfl

@[simp] theorem exec_engine (id : EngineId) (σ : Session) :
    (engine id).exec σ = (.ok (σ.engineAt id), σ) := rfl

@[simp] theorem exec_failure (id : FailureId) (σ : Session) :
    (failure id).exec σ = (.ok (σ.failureAt id), σ) := rfl

@[simp] theorem exec_addFailure (f : Failure) (σ : Session) :
    (addFailure f).exec σ = (.ok σ.failures.size, { σ with failures := σ.failures.push f }) := rfl

@[simp] theorem exec_setFailure (id : FailureId) (f : Failure) (σ : Session) :
    (setFailure id f).exec σ =
      (.ok (), σ.withFailure id f) := rfl

@[simp] theorem exec_context (id : ContextId) (σ : Session) :
    (context id).exec σ = (.ok (σ.contextAt id), σ) := rfl

@[simp] theorem exec_addContext (c : Context) (σ : Session) :
    (addContext c).exec σ =
      (.ok σ.store.contexts.size, { σ with store := (σ.store.addContext c).2 }) := rfl

@[simp] theorem exec_changeContext (id : ContextId) (f : Context → Context) (σ : Session) :
    (changeContext id f).exec σ =
      (.ok (), σ.withContext id (f (σ.contextAt id))) := rfl

/-- A context as an invocation begins with it, and the values of its flags and arguments. -/
structure Begun (c : Context) (s : Store) (engineId : EngineId) (subject : Ref) (name : Text)
    (type : Classifier) (flags : Flags) (arguments : List Ref) : Prop where
  engine : c.engine = engineId
  subject : c.subject = subject
  name : c.name = name
  typeName : c.typeName = type.name
  errorMode : c.errorMode = .mode .default
  nesting : c.nesting = 0
  memory : c.memory = .initial
  arguments : s.node c.arguments = .list arguments
  flags : ∃ entries, s.node c.flags = .dict entries ∧ s.ReadsAs entries flags.entries

/-- An invocation always gets a context, the next one, with the name and the flags of its rule. -/
theorem exec_beginContext (engineId : EngineId) (subject : Ref) (name : Text) (type : Classifier)
    (flags : Flags) (arguments : List Ref) (σ : Session) :
    ∃ c cells, (beginContext engineId subject name type flags arguments).exec σ =
        (.ok σ.store.contexts.size,
          { σ with store := ⟨cells, σ.store.contexts.push c⟩ }) ∧
      Begun c ⟨cells, σ.store.contexts.push c⟩ engineId subject name type flags arguments := by
  obtain ⟨dictionary, s', entries, hb, hd, hr⟩ := build_flags σ.classifier σ.store flags
  have hbuild : (build flags.template).exec σ = (.ok dictionary, { σ with store := s' }) := by
    rw [build, exec_bind_of_ok (exec_get σ), hb, exec_bind_of_ok (exec_ofExcept _ σ)]
    rfl
  have hcontexts : (s'.put (.list arguments)).2.contexts = σ.store.contexts := by
    rw [Store.contexts_put, Template.contexts_build _ hb]
  refine ⟨⟨engineId, subject, name, dictionary, (s'.put (.list arguments)).1, type.name,
    .mode .default, 0, .initial⟩, (s'.put (.list arguments)).2.cells, ?_, ?_⟩
  · rw [beginContext, exec_bind_of_ok hbuild, exec_bind_of_ok (exec_put _ _), exec_addContext,
      Store.addContext, hcontexts]
  · refine ⟨rfl, rfl, rfl, rfl, rfl, rfl, rfl, ?_, entries, ?_, hr.put (.list arguments)⟩
    · exact Store.node_put s' (.list arguments)
    exact (Store.node_put_of_ne_none _ (by simp [hd])).trans hd

@[simp] theorem exec_handlerOf (rule : Rule) (σ : Session) :
    (handlerOf rule).exec σ = (.ok (σ.handlerAt rule.handler), σ) := rfl

end Act

/-- What the handler of a rule does with a context for a subject and further arguments. -/
def Session.handling (σ : Session) (rule : Rule) (id : ContextId) (subject : Ref)
    (arguments : List Ref) : Program :=
  σ.handlerAt rule.handler (.context id) subject arguments

namespace Act

/-- An evaluation begins: the name is a text for which the type of the subject has a rule, and the
invocation gets its context. -/
structure Begins (engineId : EngineId) (subject name : Ref) (arguments : List Ref) (σ : Session)
    (text : Text) (type : Classifier) (rule : Rule) (id : ContextId) (τ : Session) : Prop where
  name : σ.store.text? name = some text
  dispatch : (σ.engineAt engineId).dispatch σ.store subject text = .ok (type, rule)
  context : (beginContext engineId subject text type rule.flags arguments).exec σ = (.ok id, τ)

/-- The context of an evaluation that begins is new. -/
theorem Begins.begun {engineId : EngineId} {subject name : Ref} {arguments : List Ref}
    {σ τ : Session} {text : Text} {type : Classifier} {rule : Rule} {id : ContextId}
    (h : Begins engineId subject name arguments σ text type rule id τ) :
    Begun (τ.contextAt id) τ.store engineId subject text type rule.flags arguments := by
  obtain ⟨c, cells, hbegin, hc⟩ :=
    exec_beginContext engineId subject text type rule.flags arguments σ
  rw [h.context] at hbegin
  cases hbegin
  rwa [Session.contextAt, Store.contextAt_size_push]

/-- An evaluation that begins is a run of the rule's handler. -/
theorem exec_evaluate {engineId : EngineId} {subject name : Ref} {arguments : List Ref}
    {σ τ : Session} {text : Text} {type : Classifier} {rule : Rule} {id : ContextId}
    (h : Begins engineId subject name arguments σ text type rule id τ) (depth : Nat) :
    (evaluate (depth + 1) engineId subject name arguments).exec σ =
      (discard (run (evaluate depth) (τ.handling rule id subject arguments))).exec τ := by
  rw [evaluate, exec_bind_of_ok (exec_store σ)]
  simp only [h.name]
  rw [exec_bind_of_ok (exec_engine _ σ), h.dispatch, exec_bind_of_ok (exec_ofExcept _ σ),
    exec_bind_of_ok h.context]
  rfl

/-- What a nested call of a context makes of the end of the call: a failure that leaves the
outermost level is composed. -/
def settle (id : ContextId) (result : Except Fault Unit) (σ : Session) :
    Except Fault Unit × Session :=
  match result with
  | .error (.failure inner) =>
    if (σ.contextAt id).nesting = 1 then (compose id inner).exec σ else (result, σ)
  | _ => (result, σ)

/-- Only failures are settled otherwise than they ended. -/
theorem settle_of_not_failure (id : ContextId) {result : Except Fault Unit} (σ : Session)
    (h : ∀ inner, result ≠ .error (.failure inner)) : settle id result σ = (result, σ) := by
  unfold settle
  split
  · exact absurd rfl (h _)
  · rfl

/-- A nested call enters the context, runs, settles and exits. -/
theorem exec_nestedCall (id : ContextId) (call : Act Unit) (σ : Session) :
    (nestedCall id call).exec σ =
      let ended := call.exec (σ.entered id)
      let settled := settle id ended.1 ended.2
      (settled.1, settled.2.exited id) := by
  rw [nestedCall, exec_bind_of_ok (exec_changeContext _ _ σ)]
  change (outcome call >>= _).exec (σ.entered id) = _
  rw [exec_bind_of_ok (exec_outcome _ _)]
  rcases call.exec (σ.entered id) with ⟨result, τ⟩
  dsimp only
  split
  · rw [exec_bind_of_ok (exec_context _ _), settle]
    split
    · rw [exec_bind_of_ok (exec_outcome _ _), exec_bind_of_ok (exec_changeContext _ _ _),
        exec_ofExcept]
      rfl
    · rw [exec_bind_of_ok (exec_pure _ _), exec_bind_of_ok (exec_changeContext _ _ _),
        exec_ofExcept]
      rfl
  · next h =>
    rw [exec_bind_of_ok (exec_pure _ _), exec_bind_of_ok (exec_changeContext _ _ _),
      exec_ofExcept, settle_of_not_failure id τ fun inner he => h inner he]
    rfl

section

variable {id : ContextId} {call : Act Unit} {result : Except Fault Unit} {σ τ : Session}

/-- A nested call that ends with no failure ends as what is called. -/
theorem exec_nestedCall_of_not_failure (hcall : call.exec (σ.entered id) = (result, τ))
    (h : ∀ inner, result ≠ .error (.failure inner)) :
    (nestedCall id call).exec σ = (result, τ.exited id) := by
  rw [exec_nestedCall, hcall]
  simp only [settle_of_not_failure id τ h]

/-- A nested call within another of its context ends as what is called, also where that fails. -/
theorem exec_nestedCall_of_nested (hcall : call.exec (σ.entered id) = (result, τ))
    (hn : (τ.contextAt id).nesting ≠ 1) :
    (nestedCall id call).exec σ = (result, τ.exited id) := by
  rw [exec_nestedCall, hcall]
  simp only [settle, hn, if_false]
  split <;> rfl

/-- A nested call that fails from outside of any other ends with what its context composes. -/
theorem exec_nestedCall_of_failure {υ : Session} {f : FailureId}
    (hcall : call.exec (σ.entered id) = (.error (.failure f), τ))
    (hn : (τ.contextAt id).nesting = 1) (hc : (compose id f).exec τ = (result, υ)) :
    (nestedCall id call).exec σ = (result, υ.exited id) := by
  rw [exec_nestedCall, hcall]
  simp only [settle, hn, if_true, hc]

/-- A nested call fails only where what is called fails. -/
theorem fails_of_exec_nestedCall {g : FailureId}
    (h : (nestedCall id call).exec σ = (.error (.failure g), τ)) :
    ∃ f υ, call.exec (σ.entered id) = (.error (.failure f), υ) := by
  rcases hcall : call.exec (σ.entered id) with ⟨result, υ⟩
  by_cases hfails : ∃ f, result = .error (.failure f)
  · obtain ⟨f, rfl⟩ := hfails
    exact ⟨f, υ, rfl⟩
  · rw [exec_nestedCall_of_not_failure hcall fun f hf => hfails ⟨f, hf⟩] at h
    cases h
    exact absurd ⟨g, rfl⟩ hfails

end

@[simp] theorem exec_unmarkedName (id : ContextId) (name : Text) (σ : Session) :
    (unmarkedName id name).exec σ =
      (.ok (Marker.unmark (flagIsSet σ.store (σ.contextAt id)) name), σ) := rfl

/-- A call through a context is a nested call under the name with its markers replaced, which is
placed among the values. -/
theorem exec_call_context {evaluate : Evaluator} {id : ContextId} {subject name : Ref}
    {arguments : List Ref} {σ : Session} {marked : Text} (hn : σ.store.text? name = some marked) :
    (call evaluate id .context subject name arguments).exec σ =
      let unmarked := σ.store.put
        (.text (Marker.unmark (flagIsSet σ.store (σ.contextAt id)) marked))
      (nestedCall id (evaluate (σ.contextAt id).engine subject unmarked.1 arguments)).exec
        { σ with store := unmarked.2 } := by
  rw [call, exec_bind_of_ok (exec_context _ σ)]
  dsimp only
  rw [exec_bind_of_ok (exec_store σ)]
  simp only [hn]
  rfl

end Act

end Expectation

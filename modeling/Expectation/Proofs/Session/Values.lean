import Expectation.Proofs.Session.Events
import Expectation.Proofs.Session.Faults

/-!
# Values on failures

A failure has values on it so that its message can show their difference, and loses them as it is
finalized. Where values are left on a failure after a run, they were there before, or a handler
attached them in the run, or a type faulted on them as the failure arose. A failure gets a cause
only from the context that composes it.
-/

namespace Expectation

/-- There are no values on a failure. -/
def Failure.IsClear (f : Failure) : Prop := f.actual = .none ∧ f.expected = .none

/-- The values on a failure are those on another. -/
def Failure.SameValues (f g : Failure) : Prop := f.actual = g.actual ∧ f.expected = g.expected

namespace Session

/-- A failure that is replaced by one without values has none. -/
theorem isClear_withFailure {σ : Session} {id : FailureId} {f : Failure} (h : f.IsClear) :
    ((σ.withFailure id f).failureAt id).IsClear := by
  by_cases hid : id < σ.failures.size
  · rwa [failureAt_withFailure_self _ _ _ hid]
  · have hnone : (σ.withFailure id f).failureAt id =
        ⟨.empty defaultIndentWidth, .none, .none, none, [], none⟩ := by
      simp [failureAt, withFailure, hid]
    rw [hnone]
    exact ⟨rfl, rfl⟩

/-- What events account for between two sessions: the values on failures and the causes of
failures. -/
structure Accounts (σ : Session) (events : List Event) (τ : Session) : Prop where
  values : ∀ g, (τ.failureAt g).IsClear ∨ (τ.failureAt g).SameValues (σ.failureAt g) ∨
    .attaches g ∈ events ∨ ∃ cause, .faults g cause ∈ events
  causes : ∀ g, (τ.failureAt g).cause = (σ.failureAt g).cause ∨
    ∃ id inner, .composes id inner ∈ events ∧ (τ.failureAt g).cause = some inner

namespace Accounts

variable {σ τ υ : Session} {events events' : List Event}

/-- Where failures stay there is nothing to account for. -/
theorem of_failures (h : τ.failures = σ.failures) : σ.Accounts events τ where
  values g := Or.inr (Or.inl (by rw [failureAt, failureAt, h]; exact ⟨rfl, rfl⟩))
  causes g := Or.inl (by rw [failureAt, failureAt, h])

/-- Where one failure changes, its values and its cause are to be accounted for. -/
theorem of_others (id : FailureId) (h : ∀ g, g ≠ id → τ.failureAt g = σ.failureAt g)
    (hv : (τ.failureAt id).IsClear ∨ .attaches id ∈ events ∨ ∃ cause, .faults id cause ∈ events)
    (hc : (τ.failureAt id).cause = (σ.failureAt id).cause ∨
      ∃ context inner, .composes context inner ∈ events ∧
        (τ.failureAt id).cause = some inner) : σ.Accounts events τ where
  values g := by
    by_cases hg : g = id
    · subst hg
      exact hv.imp_right Or.inr
    · rw [h g hg]
      exact Or.inr (Or.inl ⟨rfl, rfl⟩)
  causes g := by
    by_cases hg : g = id
    · subst hg
      exact hc
    · exact Or.inl (by rw [h g hg])

/-- A failure may be replaced by one of the same cause, without values or with values that are
attached to it. -/
theorem of_withFailure {id : FailureId} {f : Failure}
    (hτ : τ.failures = (σ.withFailure id f).failures)
    (hv : f.IsClear ∨ .attaches id ∈ events) (hc : f.cause = (σ.failureAt id).cause) :
    σ.Accounts events τ := by
  have hat : ∀ g, τ.failureAt g = (σ.withFailure id f).failureAt g := by
    intro g
    rw [failureAt, failureAt, hτ]
  by_cases hid : id < σ.failures.size
  · refine of_others id (fun g hg => ?_) ?_ (Or.inl ?_)
    · rw [hat, failureAt_withFailure_of_ne _ _ hg]
    · rw [hat, failureAt_withFailure_self _ _ _ hid]
      exact hv.imp_right Or.inl
    · rw [hat, failureAt_withFailure_self _ _ _ hid, hc]
  · exact of_failures (hτ.trans (Array.setIfInBounds_eq_of_size_le (Nat.le_of_not_lt hid)))

/-- A failure may arise without values, or with values that a type faults on, and with no cause but
one that it is composed from. -/
theorem of_push {f : Failure} (hτ : τ.failures = σ.failures.push f)
    (hv : f.IsClear ∨ ∃ cause, .faults σ.failures.size cause ∈ events)
    (hc : f.cause = none ∨ ∃ id inner, .composes id inner ∈ events ∧ f.cause = some inner) :
    σ.Accounts events τ := by
  have hnew : τ.failureAt σ.failures.size = f := by simp [failureAt, hτ]
  refine of_others σ.failures.size (fun g hg => ?_) ?_ ?_
  · simp [failureAt, hτ, Array.getElem?_push, hg]
  · rw [hnew]
    exact hv.imp_right Or.inr
  · rw [hnew]
    refine hc.imp_left fun hnone => ?_
    simp [hnone, failureAt]

/-- The events of two runs, one after the other, account for both. -/
theorem trans (h : σ.Accounts events τ) (h' : τ.Accounts events' υ) :
    σ.Accounts (events ++ events') υ where
  values g := by
    rcases h'.values g with hclear | ⟨ha, he⟩ | hattached | ⟨cause, hfaults⟩
    · exact Or.inl hclear
    · rcases h.values g with hclear | hsame | hattached | ⟨cause, hfaults⟩
      · exact Or.inl ⟨ha.trans hclear.1, he.trans hclear.2⟩
      · exact Or.inr (Or.inl ⟨ha.trans hsame.1, he.trans hsame.2⟩)
      · exact Or.inr (Or.inr (Or.inl (List.mem_append_left _ hattached)))
      · exact Or.inr (Or.inr (Or.inr ⟨cause, List.mem_append_left _ hfaults⟩))
    · exact Or.inr (Or.inr (Or.inl (List.mem_append_right _ hattached)))
    · exact Or.inr (Or.inr (Or.inr ⟨cause, List.mem_append_right _ hfaults⟩))
  causes g := by
    rcases h'.causes g with hsame | ⟨id, inner, hmem, hcause⟩
    · rcases h.causes g with hsame' | ⟨id, inner, hmem, hcause⟩
      · exact Or.inl (hsame.trans hsame')
      · exact Or.inr ⟨id, inner, List.mem_append_left _ hmem, hsame.trans hcause⟩
    · exact Or.inr ⟨id, inner, List.mem_append_right _ hmem, hcause⟩

/-- What leaves failures as they are may come before. -/
theorem of_failures_trans (hf : τ.failures = σ.failures) (h : τ.Accounts events υ) :
    σ.Accounts events υ := by
  have hfirst : σ.Accounts [] τ := of_failures hf
  exact hfirst.trans h

/-- What leaves failures as they are may follow. -/
theorem trans_of_failures (h : σ.Accounts events τ) (hf : υ.failures = τ.failures) :
    σ.Accounts events υ := by
  have hlast : τ.Accounts [] υ := of_failures hf
  rw [← List.append_nil events]
  exact h.trans hlast

end Accounts

end Session

namespace Act

variable {events : List Event} {engineId : EngineId} {σ : Session}

/-- To finalize a failure is to replace it by one of the same cause without values, or else nothing
happens to failures and a type has faulted on the values. -/
theorem failures_finalize (engineId : EngineId) (id : FailureId) (σ : Session) :
    (∃ f : Failure, f.IsClear ∧ f.cause = (σ.failureAt id).cause ∧
      ((finalize engineId id).exec σ).2.failures = (σ.withFailure id f).failures) ∨
    ((finalize engineId id).exec σ).2.failures = σ.failures ∧
      ∃ cause, (σ.engineAt engineId).shownDifference σ.store (σ.failureAt id).actual
        (σ.failureAt id).expected = .error cause := by
  rw [exec_finalize_eq]
  dsimp only
  split
  · next cause hfault => exact Or.inr ⟨rfl, cause, hfault⟩
  · next difference _ =>
    split
    · next format _ =>
      exact Or.inl ⟨(σ.failureAt id).finalized σ.console
          (σ.engineAt engineId).settings.renderWidth difference format,
        ⟨Failure.actual_finalized .., Failure.expected_finalized ..⟩,
        Failure.cause_finalized .., rfl⟩
    · exact Or.inl ⟨(σ.failureAt id).cleared difference, ⟨rfl, rfl⟩, rfl, rfl⟩

/-- A failure that is finalized is accounted for without an event. -/
theorem accounts_finalize (engineId : EngineId) (id : FailureId) (σ : Session) :
    σ.Accounts [] ((finalize engineId id).exec σ).2 := by
  rcases failures_finalize engineId id σ with ⟨f, hclear, hcause, hτ⟩ | ⟨hτ, -⟩
  · exact .of_withFailure hτ (Or.inl hclear) hcause
  · exact .of_failures hτ

/-- A failure that arises and is finalized has no values, unless a type faults on them. -/
theorem accounts_addFailure_finalize {f : Failure}
    (hv : ∀ event ∈ arisenEvents engineId f.actual f.expected σ, event ∈ events)
    (hc : f.cause = none ∨ ∃ id inner, .composes id inner ∈ events ∧ f.cause = some inner) :
    σ.Accounts events
      ((finalize engineId σ.failures.size).exec { σ with failures := σ.failures.push f }).2 := by
  have hnew :
      ({ σ with failures := σ.failures.push f } : Session).failureAt σ.failures.size = f := by
    simp [Session.failureAt]
  rcases failures_finalize engineId σ.failures.size { σ with failures := σ.failures.push f } with
    ⟨f', hclear, hcause, hτ⟩ | ⟨hτ, cause, hfault⟩
  · have hpush : (σ.failures.push f).setIfInBounds σ.failures.size f' = σ.failures.push f' := by
      grind
    rw [hnew] at hcause
    refine .of_push (hτ.trans hpush) (Or.inl hclear) ?_
    rwa [hcause]
  · rw [hnew] at hfault
    change (σ.engineAt engineId).shownDifference σ.store f.actual f.expected = _ at hfault
    refine .of_push hτ (Or.inr ⟨cause, hv _ ?_⟩) hc
    simp [arisenEvents, hfault]

/-- To go on with what leaves every session as it is leaves the session of what comes before. -/
theorem session_bind {α β : Type} {x : Act α} {f : α → Act β} (σ : Session)
    (hf : ∀ a τ, ((f a).exec τ).2 = τ) : ((x >>= f).exec σ).2 = (x.exec σ).2 := by
  rw [exec_bind]
  rcases x.exec σ with ⟨cause | answer, τ⟩
  · rfl
  · exact hf answer τ

theorem accounts_failWithBody (engineId : EngineId) (body : Document) (actual expected : Ref)
    (σ : Session) :
    σ.Accounts (arisenEvents engineId actual expected σ)
      ((failWithBody engineId body actual expected).exec σ).2 := by
  rw [failWithBody, exec_bind_of_ok (exec_addFailure _ _), session_bind _ fun _ _ => rfl]
  exact accounts_addFailure_finalize (fun _ h => h) (Or.inl rfl)

theorem accounts_failWith (engineId : EngineId) (message : Message) (arguments : List Ref)
    (actual expected : Ref) (σ : Session) :
    σ.Accounts (failEvents engineId message arguments actual expected σ)
      ((failWith engineId message arguments actual expected).exec σ).2 := by
  cases message with
  | fault cause => exact .of_failures rfl
  | value message =>
    rw [failWith, exec_bind_of_ok (exec_engine _ _), exec_bind_of_ok (exec_store _), exec_bind,
      exec_ofExcept, failEvents]
    cases (σ.engineAt engineId).body σ.store message arguments with
    | error cause => exact .of_failures rfl
    | ok body => exact accounts_failWithBody engineId body actual expected σ

/-- A failure whose message is written is accounted for if the writing is. -/
theorem accounts_failWriting {writer : Document → Act (Option Document)}
    {writing : Document → Session → List Event} (actual expected : Ref)
    (h : ∀ document, σ.Accounts (writing document σ) ((writer document).exec σ).2) :
    σ.Accounts (failWritingEvents engineId writer writing actual expected σ)
      ((failWriting engineId writer actual expected).exec σ).2 := by
  have hwritten := h (σ.engineAt engineId).newDocument
  rw [failWriting, exec_bind_of_ok (exec_engine _ _), exec_bind, failWritingEvents]
  rcases hrun : (writer (σ.engineAt engineId).newDocument).exec σ with ⟨cause | answer, τ⟩
  · rw [hrun] at hwritten
    exact hwritten.trans (.of_failures rfl)
  · rw [hrun] at hwritten
    exact hwritten.trans (accounts_failWithBody engineId _ actual expected τ)

/-- A composed failure is accounted for by the events of composing it. -/
theorem accounts_compose (id : ContextId) (inner : FailureId) (σ : Session) :
    σ.Accounts (composeEvents id inner σ) ((compose id inner).exec σ).2 := by
  rw [composeEvents]
  rcases exec_compose_cases id inner σ with ⟨cause, log, hrun, -⟩ | ⟨-, output, log, hrun⟩
  · rw [hrun]
    exact .of_failures rfl
  · rw [hrun, session_bind _ fun _ _ => rfl]
    generalize hf : composedFrom (σ.failureAt inner) inner output = f
    let logged : Session := { σ with log := log }
    have harises : σ.failures.size < ((finalize (σ.contextAt id).engine σ.failures.size).exec
        { logged with failures := σ.failures.push f }).2.failures.size := by
      refine Nat.lt_of_lt_of_le ?_ (steady_finalize _ _ _).2.2
      simp
    rw [if_pos harises]
    refine .of_failures_trans (τ := logged) rfl (accounts_addFailure_finalize ?_ ?_)
    · rw [← hf]
      exact fun event hevent => List.mem_cons_of_mem _ hevent
    · exact Or.inr ⟨id, inner, List.mem_cons_self, by rw [← hf]; rfl⟩

theorem accounts_settle (id : ContextId) (result : Except Fault Unit) (σ : Session) :
    σ.Accounts (settleEvents id result σ) (settle id result σ).2 := by
  rcases result with cause | _
  · cases cause with
    | failure inner =>
      unfold settleEvents settle
      dsimp only
      split
      · exact accounts_compose id inner σ
      · exact .of_failures rfl
    | _ => exact .of_failures rfl
  · exact .of_failures rfl

/-- A call as from outside is accounted for by what is called. -/
theorem accounts_outermostCall (engineId : EngineId) {call : Act Unit}
    (h : σ.Accounts events (call.exec σ).2) :
    σ.Accounts events ((outermostCall engineId call).exec σ).2 := by
  rw [outermostCall, exec_bind_of_ok (exec_outcome _ _)]
  dsimp only
  split
  · next id _ =>
    rw [exec_bind_of_ok (exec_failure _ _)]
    split
    · rw [session_bind _ fun _ _ => rfl, ← List.append_nil events]
      exact h.trans (accounts_finalize engineId id _)
    · exact h
  · rw [exec_ofExcept]
    exact h

/-- A nested call is accounted for by the events of what is called and of its end. -/
theorem accounts_nestedCall (id : ContextId) {call : Act Unit} {calling : Session → List Event}
    (h : ∀ τ : Session, τ.Accounts (calling τ) (call.exec τ).2) (σ : Session) :
    σ.Accounts (nestedEvents id call calling σ) ((nestedCall id call).exec σ).2 := by
  rw [exec_nestedCall]
  have hsettled := accounts_settle id (call.exec (σ.entered id)).1 (call.exec (σ.entered id)).2
  exact .of_failures_trans (τ := σ.entered id) rfl
    (.trans_of_failures ((h (σ.entered id)).trans hsettled) rfl)

section

variable {α β : Type}

/-- An action that leaves failures as they are. -/
def Spares (act : Act α) : Prop := ∀ σ, (act.exec σ).2.failures = σ.failures

theorem spares_bind {x : Act α} {f : α → Act β} (hx : Spares x) (hf : ∀ a, Spares (f a)) :
    Spares (x >>= f) := by
  intro σ
  rw [exec_bind]
  have h := hx σ
  rcases hr : x.exec σ with ⟨cause | answer, τ⟩
  · rw [hr] at h
    exact h
  · rw [hr] at h
    exact (hf answer τ).trans h

theorem spares_ofExcept (result : Except Fault α) : Spares (ofExcept result) := by
  intro σ
  simp

theorem spares_ofTraced (traced : Traced α) : Spares (ofTraced traced) := by
  intro σ
  simp

/-- What the engine of a context does for the values of a session leaves failures as they are. -/
theorem spares_traced (id : ContextId) (f : Engine → Store → Traced α) :
    Spares (do ofTraced (f (← engine (← context id).engine) (← store))) :=
  spares_bind (fun _ => rfl) fun _ => spares_bind (fun _ => rfl) fun _ =>
    spares_bind (fun _ => rfl) fun _ => spares_ofTraced _

theorem spares_setFormat (id : ContextId) (value : Ref) :
    Spares (do
      let engineId := (← context id).engine
      setEngine engineId (← ofExcept ((← engine engineId).setFormat (← store) value))) :=
  spares_bind (fun _ => rfl) fun _ => spares_bind (fun _ => rfl) fun _ =>
    spares_bind (fun _ => rfl) fun _ => spares_bind (spares_ofExcept _) fun _ _ => rfl

theorem spares_setFlag (id : ContextId) (name : Text) (value : Ref) :
    Spares (setFlag id name value) := by
  refine spares_bind (fun _ => rfl) fun c => spares_bind (fun _ => rfl) fun s => ?_
  split <;> exact fun _ => rfl

theorem spares_pushArgument (id : ContextId) (value : Ref) : Spares (pushArgument id value) := by
  refine spares_bind (fun _ => rfl) fun c => spares_bind (fun _ => rfl) fun s => ?_
  split <;> exact fun _ => rfl

end

/-- The events of evaluations account for them. -/
def AccountedFor (evaluate : Evaluator) (events : EvaluationEvents) : Prop :=
  ∀ engineId subject name arguments (σ : Session),
    σ.Accounts (events engineId subject name arguments σ)
      ((evaluate engineId subject name arguments).exec σ).2

section

variable {evaluate : Evaluator} {evaluating : EvaluationEvents}

theorem accounts_call (id : ContextId) (he : AccountedFor evaluate evaluating) (route : Route)
    (subject name : Ref) (arguments : List Ref) (σ : Session) :
    σ.Accounts (callEvents evaluate evaluating id route subject name arguments σ)
      ((call evaluate id route subject name arguments).exec σ).2 := by
  rw [call, exec_bind_of_ok (exec_context _ _)]
  cases route with
  | bare => exact he _ _ _ _ σ
  | engine => exact accounts_outermostCall _ (he _ _ _ _ σ)
  | context =>
    dsimp only
    rw [exec_bind_of_ok (exec_store _), callEvents]
    cases hn : σ.store.text? name with
    | none => exact .of_failures rfl
    | some marked =>
      have hnested := accounts_nestedCall id
        (he (σ.contextAt id).engine subject (placed id marked σ).1 arguments) (placed id marked σ).2
      exact .of_failures_trans (τ := (placed id marked σ).2) rfl hnested

/-- What takes a route from a context is accounted for by what is done. -/
theorem accounts_routed (id : ContextId) (act : EngineId → Act Unit)
    (calling : EngineId → Session → List Event)
    (h : ∀ engineId (τ : Session), τ.Accounts (calling engineId τ) ((act engineId).exec τ).2)
    (route : Route) (σ : Session) :
    σ.Accounts (routedEvents id route (act (σ.contextAt id).engine)
        (calling (σ.contextAt id).engine) σ)
      ((routed id route act).exec σ).2 := by
  rw [routed, exec_bind_of_ok (exec_context _ _)]
  cases route with
  | context => exact accounts_nestedCall id (h _) σ
  | engine | bare => exact h _ σ

/-- What takes a route from the context that a value is, is accounted for by what is done. -/
theorem accounts_routedThrough (value : Ref) (act : EngineId → Act Unit)
    (calling : EngineId → Session → List Event)
    (h : ∀ engineId (τ : Session), τ.Accounts (calling engineId τ) ((act engineId).exec τ).2)
    (route : Route) (σ : Session) :
    σ.Accounts (routedThroughEvents value route act calling σ)
      ((routedThrough value route act).exec σ).2 := by
  cases value with
  | context id => exact accounts_routed id act calling h route σ
  | _ => exact .of_failures rfl

/-- Every command that goes through a context is accounted for: failures arise and are composed by
two of them. -/
theorem accounts_performIn (id : ContextId) (he : AccountedFor evaluate evaluating)
    (command : ContextCommand) (σ : Session) :
    σ.Accounts (performInEvents evaluate evaluating id command σ)
      ((performIn evaluate id command).exec σ).2 := by
  cases command with
  | call route subject name arguments => exact accounts_call id he route subject name arguments σ
  | fail route message arguments actual expected =>
    exact accounts_routed id
      (fun engineId => failWith engineId message arguments actual expected)
      (fun engineId => failEvents engineId message arguments actual expected)
      (fun _ => accounts_failWith _ message arguments actual expected) route σ
  | setFlag name value => exact .of_failures (spares_setFlag id name value σ)
  | pushArgument value => exact .of_failures (spares_pushArgument id value σ)
  | setFormat value => exact .of_failures (spares_setFormat id value σ)
  | equal a b => exact .of_failures (spares_traced id (fun e s => e.equal s a b) σ)
  | inspect value depth =>
    exact .of_failures (spares_traced id (fun e s => e.inspect s value depth) σ)
  | diff actual expected =>
    exact .of_failures (spares_traced id (fun e s => e.diff s actual expected) σ)
  | standardMessage =>
    refine .of_failures ?_
    change ((standardMessage id).exec σ).2.failures = _
    rw [exec_standardMessage]
  | _ => exact .of_failures rfl

/-- Every command is accounted for: values are attached by one. -/
theorem accounts_perform (he : AccountedFor evaluate evaluating) (command : Command)
    (σ : Session) :
    σ.Accounts (performEvents evaluate evaluating command σ)
      ((perform evaluate command).exec σ).2 := by
  cases command with
  | attach f actual expected => exact .of_withFailure rfl (Or.inr (List.mem_singleton.2 rfl)) rfl
  | build template =>
    exact .of_failures (spares_bind (fun _ => rfl) (fun _ =>
      spares_bind (spares_ofExcept _) fun _ _ => rfl) σ)
  | through value command =>
    cases value with
    | context id => exact accounts_performIn id he command σ
    | _ => exact .of_failures (spares_bind (fun _ => rfl) (fun _ => spares_ofExcept _) σ)
  | _ => exact .of_failures rfl

/-- A program is accounted for by its events. -/
theorem accounts_run (he : AccountedFor evaluate evaluating) (program : Program) (σ : Session) :
    σ.Accounts (runEvents evaluate evaluating program σ) ((run evaluate program).exec σ).2 := by
  induction program generalizing σ with
  | done answer => exact .of_failures rfl
  | raise cause => exact .of_failures rfl
  | perform command next ih =>
    rw [run, exec_bind_of_ok (exec_outcome _ _)]
    exact (accounts_perform he command σ).trans (ih _ _)
  | failWriting context route writer actual expected next ihwriter ihnext =>
    have hfirst := accounts_routedThrough context
      (fun engineId => failWriting engineId (fun document => run evaluate (writer document))
        actual expected)
      (fun engineId => failWritingEvents engineId
        (fun document => run evaluate (writer document))
        (fun document => runEvents evaluate evaluating (writer document)) actual expected)
      (fun _ τ => accounts_failWriting actual expected fun document => ihwriter document τ) route σ
    rw [run, exec_bind_of_ok (exec_outcome _ _)]
    exact hfirst.trans (ihnext _ _)

end

/-- Evaluations are accounted for by their events, however deep they nest. -/
theorem accountedFor_evaluate (depth : Nat) :
    AccountedFor (evaluate depth) (evaluateEvents depth) := by
  induction depth with
  | zero => exact fun _ _ _ _ _ => .of_failures rfl
  | succ depth ih =>
    intro engineId subject name arguments σ
    rw [evaluate, exec_bind_of_ok (exec_store _), evaluateEvents]
    cases hn : σ.store.text? name with
    | none => exact .of_failures rfl
    | some text =>
      dsimp only
      rw [exec_bind_of_ok (exec_engine _ _)]
      cases hd : (σ.engineAt engineId).dispatch σ.store subject text with
      | error cause => exact .of_failures rfl
      | ok found =>
        obtain ⟨type, rule⟩ := found
        obtain ⟨c, cells, hb, -⟩ :=
          exec_beginContext engineId subject text type rule.flags arguments σ
        dsimp only
        rw [exec_bind_of_ok (exec_ofExcept _ _), exec_bind_of_ok hb, hb,
          exec_bind_of_ok (exec_handlerOf _ _)]
        let begun : Session := { σ with store := ⟨cells, σ.store.contexts.push c⟩ }
        have hrun := accounts_run ih
          (begun.handling rule σ.store.contexts.size subject arguments) begun
        rw [← session_bind (f := fun _ => (pure () : Act Unit)) begun fun _ _ => rfl] at hrun
        exact .of_failures_trans (τ := begun) rfl hrun

/-- A failure that a call from outside ends with has no values, as it is finalized where it has
some; but as the difference of the values is looked for, a type may raise another. -/
theorem isClear_of_outermostCall {call : Act Unit} {τ : Session} {f : FailureId}
    (h : (outermostCall engineId call).exec σ = (.error (.failure f), τ)) :
    (τ.failureAt f).IsClear ∨
      ∃ id υ, call.exec σ = (.error (.failure id), υ) ∧
        (υ.engineAt engineId).shownDifference υ.store (υ.failureAt id).actual
          (υ.failureAt id).expected = .error (.failure f) := by
  rw [outermostCall, exec_bind_of_ok (exec_outcome _ _)] at h
  rcases hcall : call.exec σ with ⟨result, υ⟩
  rw [hcall] at h
  dsimp only at h
  split at h
  · next id =>
    rw [exec_bind_of_ok (exec_failure _ _)] at h
    split at h
    · rw [exec_bind] at h
      rcases exec_finalize_cases engineId id υ with ⟨cause, ω, hfinal, hi⟩ | ⟨-, ω, hfinal, -⟩
      · rw [hfinal] at h
        cases h
        exact Or.inr ⟨id, υ, rfl, hi.shownDifference_eq⟩
      · rw [hfinal] at h
        cases h
        obtain ⟨difference, format, log, -, -, rfl⟩ := finalize_eq_ok hfinal
        exact Or.inl (Session.isClear_withFailure
          ⟨Failure.actual_finalized .., Failure.expected_finalized ..⟩)
    · next hclear =>
      cases h
      exact Or.inl ⟨Decidable.not_not.1 (not_or.1 hclear).1,
        Decidable.not_not.1 (not_or.1 hclear).2⟩
  · next hother =>
    rw [exec_ofExcept] at h
    cases h
    exact absurd rfl (hother f)

/-- A failure that a call from outside ends with has no values, unless a type raised it instead of
the difference of the values on the failure that the evaluation ended with. Of all failures there
are, also those that it was composed from, one that has values had them before the call, or a
handler attached some to it during the call, or a type faulted on them as it arose; and one that has
another cause than before was composed from it by a context. -/
theorem isClear_of_expect {subject name : Ref} {arguments : List Ref} {τ : Session}
    {f : FailureId}
    (h : (expect engineId subject name arguments).exec σ = (.error (.failure f), τ)) :
    ((τ.failureAt f).IsClear ∨
      ∃ id υ, (evaluate σ.nestingLimit engineId subject name arguments).exec σ =
          (.error (.failure id), υ) ∧
        (υ.engineAt engineId).shownDifference υ.store (υ.failureAt id).actual
          (υ.failureAt id).expected = .error (.failure f)) ∧
    σ.Accounts (evaluateEvents σ.nestingLimit engineId subject name arguments σ) τ := by
  have hexpect : (expect engineId subject name arguments).exec σ =
      (outermostCall engineId (evaluate σ.nestingLimit engineId subject name arguments)).exec σ :=
    exec_bind_of_ok (exec_get σ)
  rw [hexpect] at h
  refine ⟨isClear_of_outermostCall h, ?_⟩
  have hcalled := accountedFor_evaluate σ.nestingLimit engineId subject name arguments σ
  have houter := accounts_outermostCall engineId hcalled
  rwa [h] at houter

private def attachingRule : Rule := ⟨0, .empty, ['a']⟩

private def passingRule : Rule := ⟨1, .empty, ['b']⟩

-- The assertion `a` fails and attaches values to its failure, and `b` calls `a`.
private def attachingBelow : Session :=
  { Session.empty (.basic false) 2 with
    handlers :=
      #[fun context _ _ =>
          .perform (.through context (.fail .context (.value .none) [] .none .none))
            (.attaching (.bool true) (.bool false)),
        fun context subject _ =>
          .perform (.through context (.call .context subject (.char 'a') [])) .ofExcept]
    engines := #[{ Engine.create .default with
      assertions := (AssertionRegistry.initial.addRule Classifier.universalName ['a']
        attachingRule).addRule Classifier.universalName ['b'] passingRule }] }

private def faultOf? : Except Fault Unit → Option Fault
  | .ok _ => none
  | .error cause => some cause

/-- The failure of `b` has lost the values that were attached to the failure of `a`. The failure of
`a`, which is its cause, has them still, and they were attached to it during the call. -/
theorem attaches_attachingBelow :
    ∃ τ, (expect 0 (.bool true) (.char 'b') []).exec attachingBelow = (.error (.failure 2), τ) ∧
      (τ.failureAt 2).IsClear ∧ (τ.failureAt 2).cause = some 1 ∧ ¬ (τ.failureAt 1).IsClear ∧
      .attaches 1 ∈ evaluateEvents 2 0 (.bool true) (.char 'b') [] attachingBelow := by
  rcases hrun : (expect 0 (.bool true) (.char 'b') []).exec attachingBelow with ⟨result, τ⟩
  have hended : faultOf? ((expect 0 (.bool true) (.char 'b') []).exec attachingBelow).1 =
      some (.failure 2) := by decide +kernel
  have houter : let f := ((expect 0 (.bool true) (.char 'b') []).exec attachingBelow).2.failureAt 2
      f.actual = .none ∧ f.expected = .none ∧ f.cause = some 1 := by
    decide +kernel
  have hinner : let f := ((expect 0 (.bool true) (.char 'b') []).exec attachingBelow).2.failureAt 1
      f.actual = .bool true ∧ f.expected = .bool false := by
    decide +kernel
  rw [hrun] at hended houter hinner
  cases result with
  | ok _ => cases hended
  | error cause =>
    cases hended
    obtain ⟨ha, hx, hc⟩ := houter
    have hne : (τ.failureAt 1).actual ≠ .none := by simp [hinner.1]
    refine ⟨τ, rfl, ⟨ha, hx⟩, hc, fun hclear => hne hclear.1, ?_⟩
    obtain ⟨-, haccounts⟩ := isClear_of_expect hrun
    have hnofault : (evaluateEvents 2 0 (.bool true) (.char 'b') [] attachingBelow).all
        (fun event => match event with | .faults .. => false | _ => true) = true := by
      decide +kernel
    rcases haccounts.values 1 with hclear | hsame | hattached | ⟨cause, hfaults⟩
    · exact absurd hclear.1 hne
    · exact absurd hsame.1 hne
    · exact hattached
    · exact absurd (List.all_eq_true.1 hnofault _ hfaults) (by simp)

end Act

end Expectation

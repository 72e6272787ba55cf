import Expectation.Proofs.Session.Run

/-!
# What an evaluation leaves alone

Running a program, whatever it does and through whatever contexts, keeps the engine and the nesting
level of every context, and changes nothing of an engine but its format. So does an evaluation,
which runs a program.
-/

namespace Expectation

/-- The same engine up to its format, which stays one that exists. -/
structure Engine.Reformatted (e e' : Engine) : Prop where
  eq_format : e' = { e with format := e'.format }
  format_exists : (Format.ofName? e.format).isSome → (Format.ofName? e'.format).isSome

/-- What a program may do to a session. -/
structure Session.Evolves (σ τ : Session) : Prop where
  contexts_le : σ.store.contexts.size ≤ τ.store.contexts.size
  engine : ∀ id < σ.store.contexts.size, (τ.contextAt id).engine = (σ.contextAt id).engine
  nesting : ∀ id < σ.store.contexts.size, (τ.contextAt id).nesting = (σ.contextAt id).nesting
  engines : ∀ id, (σ.engineAt id).Reformatted (τ.engineAt id)
  failures_le : σ.failures.size ≤ τ.failures.size

namespace Engine.Reformatted

/-- Every engine is one with itself. -/
theorem refl (e : Engine) : e.Reformatted e := ⟨rfl, id⟩

/-- Changes of format follow one another. -/
theorem trans {e e' e'' : Engine} (h : e.Reformatted e') (h' : e'.Reformatted e'') :
    e.Reformatted e'' := by
  refine ⟨?_, fun hf => h'.format_exists (h.format_exists hf)⟩
  rw [h'.eq_format, h.eq_format]

/-- The settings stay. -/
theorem settings_eq {e e' : Engine} (h : e.Reformatted e') : e'.settings = e.settings := by
  rw [h.eq_format]

end Engine.Reformatted

namespace Session.Evolves

variable {σ τ υ : Session} {id : ContextId}

/-- Contexts and engines that stay are no change. -/
theorem of_eq (hc : τ.store.contexts = σ.store.contexts) (he : τ.engines = σ.engines)
    (hf : σ.failures.size ≤ τ.failures.size) : Evolves σ τ where
  contexts_le := Nat.le_of_eq (by rw [hc])
  engine id _ := by rw [contextAt, contextAt, Store.contextAt, Store.contextAt, hc]
  nesting id _ := by rw [contextAt, contextAt, Store.contextAt, Store.contextAt, hc]
  engines id := by
    rw [show τ.engineAt id = σ.engineAt id by rw [engineAt, engineAt, he]]
    exact .refl _
  failures_le := hf

/-- Doing nothing is no change. -/
theorem refl (σ : Session) : Evolves σ σ := of_eq rfl rfl (Nat.le_refl _)

/-- Changes follow one another. -/
theorem trans (h : Evolves σ τ) (h' : Evolves τ υ) : Evolves σ υ where
  contexts_le := Nat.le_trans h.contexts_le h'.contexts_le
  engine id hid := by
    rw [h'.engine id (Nat.lt_of_lt_of_le hid h.contexts_le), h.engine id hid]
  nesting id hid := by
    rw [h'.nesting id (Nat.lt_of_lt_of_le hid h.contexts_le), h.nesting id hid]
  engines id := (h.engines id).trans (h'.engines id)
  failures_le := Nat.le_trans h.failures_le h'.failures_le

/-- A context may be replaced by one of the same engine and nesting level. -/
theorem of_withContext (σ : Session) (c : Context) (he : c.engine = (σ.contextAt id).engine)
    (hn : c.nesting = (σ.contextAt id).nesting) : Evolves σ (σ.withContext id c) where
  contexts_le := by simp
  engine other hother := by
    by_cases hsame : other = id
    · subst hsame
      rw [σ.contextAt_withContext_self other c hother, he]
    · rw [σ.contextAt_withContext_of_ne c hsame]
  nesting other hother := by
    by_cases hsame : other = id
    · subst hsame
      rw [σ.contextAt_withContext_self other c hother, hn]
    · rw [σ.contextAt_withContext_of_ne c hsame]
  engines id := .refl _
  failures_le := Nat.le_refl _

/-- What happens between the beginning and the end of a nested call evens out. -/
theorem of_entered (h : Evolves (σ.entered id) τ) : Evolves σ (τ.exited id) := by
  have hle : σ.store.contexts.size ≤ τ.store.contexts.size := by simpa using h.contexts_le
  refine ⟨by simpa [exited] using hle, fun other hother => ?_, fun other hother => ?_, h.engines,
    h.failures_le⟩
  · have hkept := h.engine other (by simpa using hother)
    by_cases hsame : other = id
    · subst hsame
      rw [σ.contextAt_entered hother] at hkept
      rw [exited, contextAt_withContext_self _ _ _ (Nat.lt_of_lt_of_le hother hle)]
      exact hkept
    · rw [exited, contextAt_withContext_of_ne _ _ hsame, hkept, entered,
        contextAt_withContext_of_ne _ _ hsame]
  · have hkept := h.nesting other (by simpa using hother)
    by_cases hsame : other = id
    · subst hsame
      rw [σ.contextAt_entered hother] at hkept
      rw [exited, contextAt_withContext_self _ _ _ (Nat.lt_of_lt_of_le hother hle)]
      exact Nat.sub_eq_of_eq_add hkept
    · rw [exited, contextAt_withContext_of_ne _ _ hsame, hkept, entered,
        contextAt_withContext_of_ne _ _ hsame]

/-- A new context is no change to those that were there before. -/
theorem of_push (σ : Session) (cells : Array Node) (c : Context) :
    Evolves σ { σ with store := ⟨cells, σ.store.contexts.push c⟩ } where
  contexts_le := by simp
  engine id hid := by
    rw [contextAt, Store.contextAt_push_of_lt cells c hid, contextAt, Store.contextAt]
  nesting id hid := by
    rw [contextAt, Store.contextAt_push_of_lt cells c hid, contextAt, Store.contextAt]
  engines id := .refl _
  failures_le := Nat.le_refl _

end Session.Evolves

namespace Act

variable {α β : Type}

/-- An action that keeps contexts and engines and loses no failure. -/
def Steady (act : Act α) : Prop :=
  ∀ σ, (act.exec σ).2.store.contexts = σ.store.contexts ∧
    (act.exec σ).2.engines = σ.engines ∧ σ.failures.size ≤ (act.exec σ).2.failures.size

/-- An action that a program may do. -/
def Orderly (act : Act α) : Prop := ∀ σ : Session, σ.Evolves (act.exec σ).2

/-- The session that an action leaves. -/
theorem Orderly.evolves {act : Act α} (h : Orderly act) {σ τ : Session}
    {result : Except Fault α} (hr : act.exec σ = (result, τ)) : σ.Evolves τ := by
  have hσ := h σ
  rw [hr] at hσ
  exact hσ

theorem steady_pure (a : α) : Steady (pure a) := fun _ => ⟨rfl, rfl, Nat.le_refl _⟩

theorem steady_throw (cause : Fault) : Steady (throw cause : Act α) :=
  fun _ => ⟨rfl, rfl, Nat.le_refl _⟩

theorem steady_bind {x : Act α} {f : α → Act β} (hx : Steady x) (hf : ∀ a, Steady (f a)) :
    Steady (x >>= f) := by
  intro σ
  rw [exec_bind]
  have h := hx σ
  rcases hr : x.exec σ with ⟨answer | cause, τ⟩
  · rw [hr] at h
    exact h
  · rw [hr] at h
    have h' := hf cause τ
    exact ⟨h'.1.trans h.1, h'.2.1.trans h.2.1, Nat.le_trans h.2.2 h'.2.2⟩

theorem steady_ofExcept (result : Except Fault α) : Steady (ofExcept result) := by
  intro σ
  simp

theorem steady_ofTraced (traced : Traced α) : Steady (ofTraced traced) := by
  intro σ
  simp

theorem steady_store : Steady store := fun _ => ⟨rfl, rfl, Nat.le_refl _⟩

theorem steady_put (node : Node) : Steady (put node) :=
  fun σ => ⟨σ.store.contexts_put node, rfl, Nat.le_refl _⟩

theorem steady_change (ref : Ref) (node : Node) : Steady (change ref node) :=
  fun σ => ⟨σ.store.contexts_change ref node, rfl, Nat.le_refl _⟩

theorem steady_engine (id : EngineId) : Steady (engine id) := fun _ => ⟨rfl, rfl, Nat.le_refl _⟩

theorem steady_failure (id : FailureId) : Steady (failure id) := fun _ => ⟨rfl, rfl, Nat.le_refl _⟩

theorem steady_addFailure (f : Failure) : Steady (addFailure f) :=
  fun _ => ⟨rfl, rfl, by simp⟩

theorem steady_setFailure (id : FailureId) (f : Failure) : Steady (setFailure id f) :=
  fun _ => ⟨rfl, rfl, by simp⟩

theorem steady_context (id : ContextId) : Steady (context id) := fun _ => ⟨rfl, rfl, Nat.le_refl _⟩

theorem steady_record (entry : LogEntry) : Steady (record entry) :=
  fun _ => ⟨rfl, rfl, Nat.le_refl _⟩

theorem steady_get : Steady (get : Act Session) := fun _ => ⟨rfl, rfl, Nat.le_refl _⟩

theorem steady_build (template : Template) : Steady (build template) := by
  intro σ
  rw [build, exec_bind_of_ok (exec_get σ)]
  cases hb : template.build σ.classifier σ.store with
  | error cause => exact ⟨rfl, rfl, Nat.le_refl _⟩
  | ok built => exact ⟨Template.contexts_build template hb, rfl, Nat.le_refl _⟩

/-- A steady action is an orderly one. -/
theorem Steady.orderly {act : Act α} (h : Steady act) : Orderly act :=
  fun σ => .of_eq (h σ).1 (h σ).2.1 (h σ).2.2

theorem orderly_bind {x : Act α} {f : α → Act β} (hx : Orderly x)
    (hf : ∀ a, Orderly (f a)) : Orderly (x >>= f) := by
  intro σ
  rw [exec_bind]
  have h := hx σ
  rcases hr : x.exec σ with ⟨cause | answer, τ⟩
  · rw [hr] at h
    exact h
  · rw [hr] at h
    exact h.trans (hf answer τ)

theorem orderly_outcome {x : Act α} (hx : Orderly x) : Orderly (outcome x) := hx

theorem steady_withDifference (e : Engine) (f : Failure) : Steady (withDifference e f) := by
  refine steady_bind steady_store fun s => ?_
  split
  · refine steady_bind (steady_ofTraced _) fun difference => ?_
    split
    · exact steady_pure _
    · exact steady_pure _
  · exact steady_pure _

/-- To finalize a failure keeps contexts and engines. -/
theorem steady_finalize (engineId : EngineId) (id : FailureId) : Steady (finalize engineId id) := by
  refine steady_bind (steady_engine _) fun e => steady_bind (steady_failure _) fun f => ?_
  refine steady_bind (steady_withDifference e f) fun message => ?_
  dsimp only
  split
  · exact steady_bind steady_get fun session => steady_setFailure _ _
  · exact steady_bind (steady_setFailure _ _) fun _ => steady_throw _

theorem steady_failWithBody (engineId : EngineId) (body : Document) (actual expected : Ref) :
    Steady (failWithBody engineId body actual expected) := by
  refine steady_bind (steady_addFailure _) fun id => ?_
  exact steady_bind (steady_finalize _ _) fun _ => steady_throw _

theorem steady_failWith (engineId : EngineId) (message : Message) (arguments : List Ref)
    (actual expected : Ref) : Steady (failWith engineId message arguments actual expected) := by
  cases message with
  | fault cause => exact steady_throw cause
  | value value =>
    refine steady_bind (steady_engine _) fun e => steady_bind steady_store fun s => ?_
    exact steady_bind (steady_ofExcept _) fun body => steady_failWithBody _ _ _ _

theorem steady_argumentsOf (c : Context) : Steady (argumentsOf c) := by
  refine steady_bind steady_store fun s => ?_
  split
  · exact steady_pure _
  · exact steady_pure _

theorem steady_standardMessage (id : ContextId) : Steady (standardMessage id) := by
  refine steady_bind (steady_context _) fun c => steady_bind (steady_engine _) fun e => ?_
  refine steady_bind steady_store fun s => steady_bind (steady_argumentsOf c) fun arguments => ?_
  exact steady_ofTraced _

theorem steady_composedOutput (id : ContextId) (inner : Document) (mode : ErrorMode) :
    Steady (composedOutput id inner mode) := by
  cases mode with
  | default => exact steady_standardMessage id
  | bubble => exact steady_pure _
  | nested => exact steady_bind (steady_standardMessage id) fun _ => steady_pure _

theorem steady_errorModeOf (id : ContextId) : Steady (errorModeOf id) := by
  refine steady_bind (steady_context _) fun c => steady_bind steady_store fun s => ?_
  split
  · exact steady_pure _
  · exact steady_throw _

/-- To compose a failure keeps contexts and engines. -/
theorem steady_compose (id : ContextId) (inner : FailureId) : Steady (compose id inner) := by
  refine steady_bind (steady_errorModeOf id) fun mode => steady_bind (steady_failure _) fun f => ?_
  refine steady_bind (steady_composedOutput _ _ _) fun output => ?_
  refine steady_bind (steady_addFailure _) fun composed => ?_
  refine steady_bind (steady_context _) fun c => ?_
  exact steady_bind (steady_finalize _ _) fun _ => steady_throw _

/-- A call as from outside may be done where the call itself may. -/
theorem orderly_outermostCall (engineId : EngineId) {call : Act Unit} (h : Orderly call) :
    Orderly (outermostCall engineId call) := by
  refine orderly_bind (orderly_outcome h) fun result => ?_
  split
  · refine orderly_bind (steady_failure _).orderly fun f => ?_
    split
    · exact orderly_bind (steady_finalize _ _).orderly fun _ => (steady_throw _).orderly
    · exact (steady_throw _).orderly
  · exact (steady_ofExcept _).orderly

theorem orderly_settle (id : ContextId) (result : Except Fault Unit) (σ : Session) :
    σ.Evolves (settle id result σ).2 := by
  unfold settle
  split
  · split
    · exact (steady_compose _ _).orderly σ
    · exact .refl _
  · exact .refl _

/-- A nested call of any context may be made where its call may be done. -/
theorem orderly_nestedCall (id : ContextId) {call : Act Unit} (h : Orderly call) :
    Orderly (nestedCall id call) := by
  intro σ
  rw [exec_nestedCall]
  exact .of_entered ((h (σ.entered id)).trans (orderly_settle _ _ _))

theorem orderly_routed (id : ContextId) (route : Route) {act : EngineId → Act Unit}
    (h : ∀ engineId, Orderly (act engineId)) : Orderly (routed id route act) := by
  refine orderly_bind (steady_context _).orderly fun c => ?_
  cases route with
  | context => exact orderly_nestedCall id (h _)
  | engine => exact h _
  | bare => exact h _

theorem orderly_routedThrough (value : Ref) (route : Route) {act : EngineId → Act Unit}
    (h : ∀ engineId, Orderly (act engineId)) : Orderly (routedThrough value route act) := by
  cases value with
  | context id => exact orderly_routed id route h
  | _ => exact (steady_throw _).orderly

theorem orderly_changeContext (id : ContextId) (f : Context → Context)
    (he : ∀ c, (f c).engine = c.engine) (hn : ∀ c, (f c).nesting = c.nesting) :
    Orderly (changeContext id f) :=
  fun σ => .of_withContext σ _ (he _) (hn _)

theorem steady_unmarkedName (id : ContextId) (name : Text) : Steady (unmarkedName id name) :=
  steady_bind (steady_context _) fun _ => steady_bind steady_store fun _ => steady_pure _

theorem steady_setFlag (id : ContextId) (name : Text) (value : Ref) :
    Steady (setFlag id name value) := by
  refine steady_bind (steady_context _) fun c => steady_bind steady_store fun s => ?_
  split
  · refine steady_bind (steady_put _) fun key => steady_bind steady_store fun s => ?_
    exact steady_change _ _
  · exact steady_pure _

theorem steady_pushArgument (id : ContextId) (value : Ref) : Steady (pushArgument id value) := by
  refine steady_bind (steady_context _) fun c => steady_bind steady_store fun s => ?_
  split
  · exact steady_change _ _
  · exact steady_pure _

/-- A format that is set exists. -/
theorem reformatted_of_setFormat {e e' : Engine} {s : Store} {value : Ref}
    (h : e.setFormat s value = .ok e') : e.Reformatted e' := by
  unfold Engine.setFormat at h
  split at h
  · cases h
    exact .refl _
  · split at h
    · next hf =>
      cases h
      exact ⟨rfl, fun _ => by simp [hf]⟩
    · cases h
  · cases h

/-- An engine may be replaced by one that differs in its format. -/
theorem evolves_setEngine (σ : Session) (id : EngineId) {e : Engine}
    (h : (σ.engineAt id).Reformatted e) :
    σ.Evolves { σ with engines := σ.engines.setIfInBounds id e } where
  contexts_le := Nat.le_refl _
  engine _ _ := rfl
  nesting _ _ := rfl
  failures_le := Nat.le_refl _
  engines other := by
    by_cases hother : other = id
    · subst hother
      by_cases hid : other < σ.engines.size
      · simpa [Session.engineAt, hid] using h
      · have hsame : σ.engines.setIfInBounds other e = σ.engines :=
          Array.setIfInBounds_eq_of_size_le (Nat.le_of_not_lt hid)
        simpa [Session.engineAt, hsame] using Engine.Reformatted.refl _
    · simpa [Session.engineAt, Array.getElem?_setIfInBounds_ne (Ne.symm hother)] using
        Engine.Reformatted.refl _

theorem orderly_setFormat (id : ContextId) (value : Ref) :
    Orderly (do
      let engineId := (← context id).engine
      setEngine engineId (← ofExcept ((← engine engineId).setFormat (← store) value))) := by
  intro σ
  rw [exec_bind_of_ok (exec_context _ _), exec_bind_of_ok (exec_engine _ _),
    exec_bind_of_ok (exec_store _), exec_bind, exec_ofExcept]
  cases h : (σ.engineAt (σ.contextAt id).engine).setFormat σ.store value with
  | error cause => exact .refl _
  | ok e => exact evolves_setEngine σ _ (reformatted_of_setFormat h)

/-- An evaluator whose evaluations a program may make. -/
def OrderlyEvaluator (evaluate : Evaluator) : Prop :=
  ∀ engineId subject name arguments, Orderly (evaluate engineId subject name arguments)

section

variable {evaluate : Evaluator}

theorem orderly_call (h : OrderlyEvaluator evaluate) (id : ContextId) (route : Route)
    (subject name : Ref) (arguments : List Ref) :
    Orderly (call evaluate id route subject name arguments) := by
  refine orderly_bind (steady_context _).orderly fun c => ?_
  cases route with
  | bare => exact h _ _ _ _
  | engine => exact orderly_outermostCall _ (h _ _ _ _)
  | context =>
    refine orderly_bind steady_store.orderly fun s => ?_
    split
    · refine orderly_bind (steady_unmarkedName _ _).orderly fun unmarked => ?_
      refine orderly_bind (steady_put _).orderly fun name => ?_
      exact orderly_nestedCall id (h _ _ _ _)
    · exact (steady_throw _).orderly

/-- What the engine of a context does for the values there are is steady. -/
theorem steady_traced (id : ContextId) (f : Engine → Store → Traced α) :
    Steady (do ofTraced (f (← engine (← context id).engine) (← store))) := by
  refine steady_bind (steady_context id) fun c => steady_bind (steady_engine _) fun e => ?_
  exact steady_bind steady_store fun s => steady_ofTraced _

/-- Every command may be performed in any context. -/
theorem orderly_performIn (h : OrderlyEvaluator evaluate) (id : ContextId)
    (command : ContextCommand) : Orderly (performIn evaluate id command) := by
  cases command with
  | state => exact (steady_context id).orderly
  | memory => exact (steady_bind (steady_context id) fun c => steady_pure _).orderly
  | remember memory => exact orderly_changeContext id _ (fun _ => rfl) (fun _ => rfl)
  | setMode mode => exact orderly_changeContext id _ (fun _ => rfl) (fun _ => rfl)
  | setFlag name value => exact (steady_setFlag id name value).orderly
  | setSubject value => exact orderly_changeContext id _ (fun _ => rfl) (fun _ => rfl)
  | setName name => exact orderly_changeContext id _ (fun _ => rfl) (fun _ => rfl)
  | pushArgument value => exact (steady_pushArgument id value).orderly
  | format =>
    refine (steady_bind (steady_context id) fun c => ?_).orderly
    exact steady_bind (steady_engine _) fun e => steady_pure _
  | setFormat value => exact orderly_setFormat id value
  | newDocument =>
    refine (steady_bind (steady_context id) fun c => ?_).orderly
    exact steady_bind (steady_engine _) fun e => steady_pure _
  | equal a b => exact (steady_traced id fun e s => e.equal s a b).orderly
  | inspect value depth => exact (steady_traced id fun e s => e.inspect s value depth).orderly
  | diff actual expected => exact (steady_traced id fun e s => e.diff s actual expected).orderly
  | standardMessage => exact (steady_standardMessage id).orderly
  | unmark name => exact (steady_unmarkedName id name).orderly
  | call route subject name arguments => exact orderly_call h id route subject name arguments
  | fail route message arguments actual expected =>
    change Orderly (routed id route fun engineId =>
      failWith engineId message arguments actual expected)
    exact orderly_routed id route fun engineId => (steady_failWith _ _ _ _ _).orderly

/-- Every command may be performed. -/
theorem orderly_perform (h : OrderlyEvaluator evaluate) (command : Command) :
    Orderly (perform evaluate command) := by
  cases command with
  | look => exact steady_store.orderly
  | build template => exact (steady_build template).orderly
  | failureOf id => exact (steady_failure id).orderly
  | attach id actual expected =>
    exact (steady_bind (steady_failure id) fun f => steady_setFailure _ _).orderly
  | log entry => exact (steady_record entry).orderly
  | through value command =>
    cases value with
    | context id => exact orderly_performIn h id command
    | _ => exact (steady_bind steady_store fun s => steady_ofExcept _).orderly

theorem orderly_failWriting {writer : Document → Act (Option Document)}
    (h : ∀ document, Orderly (writer document)) (engineId : EngineId)
    (actual expected : Ref) : Orderly (failWriting engineId writer actual expected) := by
  refine orderly_bind (steady_engine _).orderly fun e => ?_
  exact orderly_bind (h _) fun body => (steady_failWithBody _ _ _ _).orderly

/-- Every program may be run. -/
theorem orderly_run (h : OrderlyEvaluator evaluate) (program : Program) :
    Orderly (run evaluate program) := by
  induction program with
  | done answer => exact (steady_pure _).orderly
  | raise cause => exact (steady_throw _).orderly
  | perform command next ih =>
    exact orderly_bind (orderly_outcome (orderly_perform h command)) fun result => ih result
  | failWriting context route writer actual expected next ihwriter ihnext =>
    refine orderly_bind (orderly_outcome (orderly_routedThrough context route fun engineId => ?_))
      fun result => ihnext result
    exact orderly_failWriting ihwriter engineId actual expected

end

/-- To evaluate an assertion is to run a program with a new context. -/
theorem orderly_evaluate (depth : Nat) : OrderlyEvaluator (evaluate depth) := by
  induction depth with
  | zero => exact fun _ _ _ _ => (steady_throw _).orderly
  | succ depth ih =>
    intro engineId subject name arguments
    refine orderly_bind steady_store.orderly fun s => ?_
    split
    · exact (steady_throw _).orderly
    · refine orderly_bind (steady_engine _).orderly fun e => ?_
      refine orderly_bind (steady_ofExcept _).orderly fun found => ?_
      intro σ
      obtain ⟨c, cells, hb, _⟩ :=
        exec_beginContext engineId subject _ found.1 found.2.flags arguments σ
      rw [exec_bind_of_ok hb, exec_bind_of_ok (exec_handlerOf _ _)]
      refine (Session.Evolves.of_push σ cells c).trans ?_
      exact orderly_bind (orderly_run ih _) (fun _ => (steady_pure _).orderly) _

end Act

end Expectation

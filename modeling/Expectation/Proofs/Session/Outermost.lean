import Expectation.Proofs.Pattern.Rewriting
import Expectation.Proofs.Session.Events
import Expectation.Proofs.Session.Faults

/-!
# Outermost nested calls

A handler may catch what leaves a nested call and go on, and a context may be called through again
while a nested call of it is still going on: from a message that is written, or by another handler
that the context was handed to. The context composes a failure only where it leaves the outermost of
these calls, and once for each. Any other fault passes through all that is around it as it is.
-/

namespace Expectation.Act

/-- A program begins with a nested call of a context: what is called, the events of it, the session
in which it is called, and what follows. -/
inductive NestedCalls (evaluate : Evaluator) (events : EvaluationEvents) (id : ContextId)
    (σ : Session) :
    Program → Act Unit → (Session → List Event) → Session → (Except Fault Unit → Program) → Prop
  | evaluates {subject name : Ref} {arguments : List Ref} {next : Except Fault Unit → Program}
      {marked : Text} (hn : σ.store.text? name = some marked) :
      NestedCalls evaluate events id σ
        (.perform (.through (.context id) (.call .context subject name arguments)) next)
        (evaluate (σ.contextAt id).engine subject (placed id marked σ).1 arguments)
        (events (σ.contextAt id).engine subject (placed id marked σ).1 arguments)
        (placed id marked σ).2 next
  | fails {message : Message} {arguments : List Ref} {actual expected : Ref}
      {next : Except Fault Unit → Program} :
      NestedCalls evaluate events id σ
        (.perform (.through (.context id) (.fail .context message arguments actual expected)) next)
        (failWith (σ.contextAt id).engine message arguments actual expected)
        (failEvents (σ.contextAt id).engine message arguments actual expected) σ next
  | writes {writer : Document → Program} {actual expected : Ref}
      {next : Except Fault Unit → Program} :
      NestedCalls evaluate events id σ
        (.failWriting (.context id) .context writer actual expected next)
        (failWriting (σ.contextAt id).engine (fun document => run evaluate (writer document))
          actual expected)
        (failWritingEvents (σ.contextAt id).engine
          (fun document => run evaluate (writer document))
          (fun document => runEvents evaluate events (writer document)) actual expected)
        σ next

/-- A program begins with a call, through any context on any route: what is done, in which session,
and what follows. -/
inductive Calls (evaluate : Evaluator) (σ : Session) :
    Program → Act Unit → Session → (Except Fault Unit → Program) → Prop
  | nested {events : EvaluationEvents} {id : ContextId} {program : Program} {call : Act Unit}
      {calling : Session → List Event} {τ : Session} {next : Except Fault Unit → Program}
      (h : NestedCalls evaluate events id σ program call calling τ next) :
      Calls evaluate σ program (nestedCall id call) τ next
  | outermost {id : ContextId} {subject name : Ref} {arguments : List Ref}
      {next : Except Fault Unit → Program} :
      Calls evaluate σ
        (.perform (.through (.context id) (.call .engine subject name arguments)) next)
        (outermostCall (σ.contextAt id).engine
          (evaluate (σ.contextAt id).engine subject name arguments)) σ next
  | bare {id : ContextId} {subject name : Ref} {arguments : List Ref}
      {next : Except Fault Unit → Program} :
      Calls evaluate σ
        (.perform (.through (.context id) (.call .bare subject name arguments)) next)
        (evaluate (σ.contextAt id).engine subject name arguments) σ next
  | writes {id : ContextId} {route : Route} {writer : Document → Program} {actual expected : Ref}
      {next : Except Fault Unit → Program} (hr : route ≠ .context) :
      Calls evaluate σ (.failWriting (.context id) route writer actual expected next)
        (failWriting (σ.contextAt id).engine (fun document => run evaluate (writer document))
          actual expected) σ next

/-- What is done in a session comes to something else in another session, and nothing around that
catches a fault. -/
inductive Encloses (cause : Fault) {β : Type} (inner : Act β) (υ : Session) :
    {α : Type} → Act α → Session → Prop
  | inner : Encloses cause inner υ inner υ
  | nestedCall {id : ContextId} {call : Act Unit} {σ : Session}
      (h : Encloses cause inner υ call (σ.entered id)) :
      Encloses cause inner υ (nestedCall id call) σ
  | outermostCall {engineId : EngineId} {call : Act Unit} {σ : Session}
      (h : Encloses cause inner υ call σ) : Encloses cause inner υ (outermostCall engineId call) σ
  | run {evaluate : Evaluator} {σ τ ω : Session} {program program' : Program}
      {act : Act Unit} {next : Except Fault Unit → Program}
      (hl : Leads evaluate σ program τ program') (hc : Calls evaluate τ program' act ω next)
      (hn : next (.error cause) = .raise cause) (h : Encloses cause inner υ act ω) :
      Encloses cause inner υ (run evaluate program) σ
  | evaluate {depth : Nat} {engineId : EngineId} {subject name : Ref} {arguments : List Ref}
      {σ τ : Session} {text : Text} {type : Classifier} {rule : Rule} {id : ContextId}
      (hb : Begins engineId subject name arguments σ text type rule id τ)
      (h : Encloses cause inner υ
        (Act.run (Act.evaluate depth) (τ.handling rule id subject arguments)) τ) :
      Encloses cause inner υ (evaluate (depth + 1) engineId subject name arguments) σ
  | failWriting {evaluate : Evaluator} {engineId : EngineId} {σ : Session}
      {writer : Document → Program} {actual expected : Ref}
      (h : Encloses cause inner υ
        (Act.run evaluate (writer (σ.engineAt engineId).newDocument)) σ) :
      Encloses cause inner υ
        (failWriting engineId (fun document => Act.run evaluate (writer document)) actual
          expected) σ

section

variable {evaluate : Evaluator} {events : EvaluationEvents} {id : ContextId} {σ τ : Session}
  {program : Program} {call : Act Unit} {calling : Session → List Event}
  {next : Except Fault Unit → Program}

theorem exec_routed_context (act : EngineId → Act Unit) (σ : Session) :
    (routed id .context act).exec σ = (nestedCall id (act (σ.contextAt id).engine)).exec σ := by
  rw [routed, exec_bind_of_ok (exec_context _ σ)]

theorem exec_routed_of_ne {route : Route} (hr : route ≠ .context) (act : EngineId → Act Unit)
    (σ : Session) : (routed id route act).exec σ = (act (σ.contextAt id).engine).exec σ := by
  rw [routed, exec_bind_of_ok (exec_context _ σ)]
  cases route with
  | context => exact absurd rfl hr
  | engine | bare => rfl

theorem exec_perform_call {subject name : Ref} {arguments : List Ref} {marked : Text}
    (hn : σ.store.text? name = some marked) :
    (perform evaluate (.through (.context id) (.call .context subject name arguments))).exec σ =
      (nestedCall id (evaluate (σ.contextAt id).engine subject (placed id marked σ).1
        arguments)).exec (placed id marked σ).2 :=
  exec_call_context hn

theorem exec_perform_fail (evaluate : Evaluator) (message : Message) (arguments : List Ref)
    (actual expected : Ref) (σ : Session) :
    (perform evaluate (.through (.context id)
      (.fail .context message arguments actual expected))).exec σ =
      (nestedCall id (failWith (σ.contextAt id).engine message arguments actual expected)).exec σ :=
  exec_routed_context (fun engineId => failWith engineId message arguments actual expected) σ

/-- A program that gives a command goes on from the end of what the command does. -/
theorem exec_run_perform {command : Command} {act : Act command.Answer}
    {next : Except Fault command.Answer → Program}
    (h : (perform evaluate command).exec σ = act.exec τ) :
    (run evaluate (.perform command next)).exec σ =
      (run evaluate (next (act.exec τ).1)).exec (act.exec τ).2 := by
  rw [run, exec_bind_of_ok (exec_outcome _ _), h]

/-- The events of a program that gives a command are those of the command and those of what
follows. -/
theorem runEvents_perform {command : Command} {act : Act command.Answer}
    {next : Except Fault command.Answer → Program}
    (h : (perform evaluate command).exec σ = act.exec τ) :
    runEvents evaluate events (.perform command next) σ =
      performEvents evaluate events command σ ++
        runEvents evaluate events (next (act.exec τ).1) (act.exec τ).2 := by
  rw [runEvents, h]

/-- A program that fails with a message that it writes goes on from the end of that. -/
theorem exec_run_failWriting (id : ContextId) (route : Route) (writer : Document → Program)
    (actual expected : Ref) (next : Except Fault Unit → Program) (σ : Session) :
    let failing := routed id route fun engineId =>
      failWriting engineId (fun document => run evaluate (writer document)) actual expected
    (run evaluate (.failWriting (.context id) route writer actual expected next)).exec σ =
      (run evaluate (next (failing.exec σ).1)).exec (failing.exec σ).2 := by
  rw [run, exec_bind_of_ok (exec_outcome _ _)]
  rfl

namespace NestedCalls

/-- To run the program is to make the nested call and to go on from its end. -/
theorem exec_run (h : NestedCalls evaluate events id σ program call calling τ next) :
    (run evaluate program).exec σ =
      (run evaluate (next ((nestedCall id call).exec τ).1)).exec
        ((nestedCall id call).exec τ).2 := by
  cases h with
  | evaluates hn => exact exec_run_perform (exec_perform_call hn)
  | fails => exact exec_run_perform (exec_perform_fail ..)
  | writes => rw [exec_run_failWriting, exec_routed_context]

/-- The events of the program are those of the nested call and those of what follows. -/
theorem runEvents_eq (h : NestedCalls evaluate events id σ program call calling τ next) :
    runEvents evaluate events program σ =
      nestedEvents id call calling τ ++
        runEvents evaluate events (next ((nestedCall id call).exec τ).1)
          ((nestedCall id call).exec τ).2 := by
  cases h with
  | evaluates hn =>
    refine (runEvents_perform (exec_perform_call hn)).trans (congrArg (· ++ _) ?_)
    rw [performEvents, performInEvents, callEvents]
    simp only [hn]
  | fails => exact runEvents_perform (exec_perform_fail ..)
  | writes => rw [runEvents, routedThrough, exec_routed_context, routedThroughEvents, routedEvents]

theorem nesting_eq (h : NestedCalls evaluate events id σ program call calling τ next)
    (other : ContextId) : (τ.contextAt other).nesting = (σ.contextAt other).nesting := by
  cases h with
  | evaluates => rw [contextAt_placed]
  | fails | writes => rfl

theorem size_contexts_eq (h : NestedCalls evaluate events id σ program call calling τ next) :
    τ.store.contexts.size = σ.store.contexts.size := by
  cases h with
  | evaluates => rw [contexts_placed]
  | fails | writes => rfl

theorem orderly (ho : OrderlyEvaluator evaluate)
    (h : NestedCalls evaluate events id σ program call calling τ next) : Orderly call := by
  cases h with
  | evaluates => exact ho _ _ _ _
  | fails => exact (steady_failWith _ _ _ _ _).orderly
  | writes => exact orderly_failWriting (fun document => orderly_run ho _) _ _ _

/-- What is called composes nothing in a context that has a nested call going on. -/
theorem composedBy_calling (ho : OrderlyEvaluator evaluate) (he : Elsewhere events)
    (h : NestedCalls evaluate events id σ program call calling τ next) {υ : Session}
    {other : ContextId} (hother : υ.Nested other) : composedBy other (calling υ) = [] := by
  cases h with
  | evaluates => exact he _ _ _ _ _ _ hother
  | fails => exact composedBy_failEvents ..
  | writes =>
    rw [composedBy_failWritingEvents]
    exact composedBy_runEvents ho he _ hother

end NestedCalls

/-- To run a program that begins with a call is to make the call and to go on from its end. -/
theorem Calls.exec_run {act : Act Unit} (h : Calls evaluate σ program act τ next) :
    (run evaluate program).exec σ =
      (run evaluate (next (act.exec τ).1)).exec (act.exec τ).2 := by
  cases h with
  | nested h => exact h.exec_run
  | @outermost id | @bare id => exact exec_run_perform (exec_bind_of_ok (exec_context id σ))
  | writes hr => rw [exec_run_failWriting, exec_routed_of_ne hr]

/-- A fault that is no failure passes through all that is around it, and no failure arises or
changes on its way. -/
theorem Encloses.exec {cause : Fault} {α β : Type} {inner : Act β} {act : Act α} {υ ω : Session}
    (h : Encloses cause inner υ act σ) (hcause : ∀ f, cause ≠ .failure f)
    (hinner : inner.exec υ = (.error cause, ω)) :
    ∃ ω', act.exec σ = (.error cause, ω') ∧ ω'.failures = ω.failures := by
  induction h with
  | inner => exact ⟨ω, hinner, rfl⟩
  | @nestedCall id call σ _ ih =>
    obtain ⟨ω', hcall, hkept⟩ := ih
    exact ⟨ω'.exited id,
      exec_nestedCall_of_not_failure hcall fun f hf => hcause f (Except.error.inj hf), hkept⟩
  | @outermostCall engineId call σ _ ih =>
    obtain ⟨ω', hcall, hkept⟩ := ih
    refine ⟨ω', ?_, hkept⟩
    rw [Act.outermostCall, exec_bind_of_ok (exec_outcome _ _), hcall]
    dsimp only
    split
    · next f hf => exact absurd (Except.error.inj hf) (hcause f)
    · exact exec_ofExcept _ _
  | run hl hc hn _ ih =>
    obtain ⟨ω', hact, hkept⟩ := ih
    refine ⟨ω', ?_, hkept⟩
    rw [run_of_leads hl, hc.exec_run, hact]
    simp only [hn]
    rfl
  | evaluate hb _ ih =>
    obtain ⟨ω', hrun, hkept⟩ := ih
    exact ⟨ω', by rw [exec_evaluate hb, discard]; exact exec_bind_of_error hrun, hkept⟩
  | failWriting _ ih =>
    obtain ⟨ω', hrun, hkept⟩ := ih
    exact ⟨ω', by
      rw [Act.failWriting, exec_bind_of_ok (exec_engine _ _)]
      exact exec_bind_of_error hrun, hkept⟩

/-- What becomes of a nested call of a context. -/
structure Settles (id : ContextId) (call : Act Unit) (calling : Session → List Event)
    (σ : Session) : Prop where
  nesting : ∀ other < σ.store.contexts.size,
    (((nestedCall id call).exec σ).2.contextAt other).nesting = (σ.contextAt other).nesting
  within : 0 < (σ.contextAt id).nesting →
    ((nestedCall id call).exec σ).1 = (call.exec (σ.entered id)).1 ∧
      composedBy id (nestedEvents id call calling σ) = []
  outermost : (σ.contextAt id).nesting = 0 →
    ∀ g τ, (nestedCall id call).exec σ = (.error (.failure g), τ) →
      ∃ f υ, call.exec (σ.entered id) = (.error (.failure f), υ) ∧
        composedBy id (nestedEvents id call calling σ) = [.composes id f] ∧
        ((∀ cause, ¬ Hinders id f υ cause) ∧ g = υ.failures.size ∧
            (τ.failureAt g).cause = some f ∨
          Hinders id f υ (.failure g))
  hindered : (σ.contextAt id).nesting = 0 →
    ∀ f υ cause, call.exec (σ.entered id) = (.error (.failure f), υ) → Hinders id f υ cause →
      ((nestedCall id call).exec σ).1 = .error cause
  unknownMode : (σ.contextAt id).nesting = 0 →
    ∀ f τ, call.exec (σ.entered id) = (.error (.failure f), τ) →
      ErrorMode.ofValue? τ.store (τ.contextAt id).errorMode = none →
        (nestedCall id call).exec σ =
          (.error (ErrorMode.unknown τ.store (τ.contextAt id).errorMode), τ.exited id)
  others : ∀ result τ, (∀ f, result ≠ .error (.failure f)) →
    call.exec (σ.entered id) = (result, τ) →
      (nestedCall id call).exec σ = (result, τ.exited id) ∧
        composedBy id (nestedEvents id call calling σ) = []

/-- What becomes of a nested call whose call composes nothing in the context. -/
theorem settles_of_orderly (hid : id < σ.store.contexts.size) (ho : Orderly call)
    (hcalling : composedBy id (calling (σ.entered id)) = []) : Settles id call calling σ := by
  have hlevel : ∀ {result τ}, call.exec (σ.entered id) = (result, τ) →
      (τ.contextAt id).nesting = (σ.contextAt id).nesting + 1 := by
    intro result τ hcall
    have hdeeper := nesting_of_entered ho hid
    rwa [hcall] at hdeeper
  have hone : (σ.contextAt id).nesting = 0 → ∀ {result τ},
      call.exec (σ.entered id) = (result, τ) → (τ.contextAt id).nesting = 1 := by
    intro houter result τ hcall
    rw [hlevel hcall, houter]
  constructor
  case nesting => exact (orderly_nestedCall id ho σ).nesting
  case within =>
    intro hdeep
    rcases hcall : call.exec (σ.entered id) with ⟨result, τ⟩
    have hne : (τ.contextAt id).nesting ≠ 1 := by
      have := hlevel hcall
      omega
    refine ⟨?_, composedBy_nestedEvents ⟨hid, hdeep⟩ ho hcalling⟩
    rw [exec_nestedCall_of_nested hcall hne]
  case outermost =>
    intro houter g τ hended
    obtain ⟨f, υ, hcall⟩ := fails_of_exec_nestedCall hended
    obtain ⟨cause, ω, hcompose, hcause⟩ := exec_compose_ends id f υ
    rw [exec_nestedCall_of_failure hcall (hone houter hcall) hcompose] at hended
    cases hended
    refine ⟨f, υ, hcall,
      composedBy_nestedEvents_of_failure hcalling hcall (hone houter hcall), ?_⟩
    rcases hcause with hhinders | ⟨hfree, hg, hnew⟩
    · exact Or.inr hhinders
    · cases hg
      exact Or.inl ⟨hfree, rfl, hnew⟩
  case hindered =>
    intro houter f υ cause hcall hhinders
    have hcompose : (compose id f).exec υ = (.error cause, ((compose id f).exec υ).2) :=
      Prod.ext (exec_compose_of_hinders hhinders) rfl
    rw [exec_nestedCall_of_failure hcall (hone houter hcall) hcompose]
  case unknownMode =>
    intro houter f τ hcall hmode
    have hunknown := exec_errorModeOf_eq id τ
    rw [hmode] at hunknown
    exact exec_nestedCall_of_failure hcall (hone houter hcall)
      (by rw [compose, exec_bind_of_error hunknown])
  case others =>
    intro result τ hresult hcall
    exact ⟨exec_nestedCall_of_not_failure hcall hresult,
      composedBy_nestedEvents_of_not_failure hcalling hcall hresult⟩

end

/-- Wherever a program comes to, every context is as deep as it was. A nested call of a context that
the program makes there is followed by what it does with the end of the call. Of the nested calls of
the context, also of those within another, only an outermost one that ends with a failure composes,
once, the failure that reached the context; what hinders the composing is what the call ends with
then. A fault that is no failure passes through all that is around it, and nothing is composed on
its way. -/
theorem settles_of_leads (depth : Nat) {id : ContextId} {σ τ υ : Session}
    {program program' : Program} {call : Act Unit} {calling : Session → List Event}
    {next : Except Fault Unit → Program} (hid : id < τ.store.contexts.size)
    (hl : Leads (evaluate depth) σ program τ program')
    (hn : NestedCalls (evaluate depth) (evaluateEvents depth) id τ program' call calling υ next) :
    (∀ other < σ.store.contexts.size,
      (υ.contextAt other).nesting = (σ.contextAt other).nesting) ∧
    (run (evaluate depth) program).exec σ =
      (run (evaluate depth) (next ((nestedCall id call).exec υ).1)).exec
        ((nestedCall id call).exec υ).2 ∧
    runEvents (evaluate depth) (evaluateEvents depth) program' τ =
      nestedEvents id call calling υ ++
        runEvents (evaluate depth) (evaluateEvents depth)
          (next ((nestedCall id call).exec υ).1) ((nestedCall id call).exec υ).2 ∧
    Settles id call calling υ ∧
    ∀ {cause : Fault} {α β : Type} {inner : Act β} {act : Act α} {σ υ ω : Session},
      Encloses cause inner υ act σ → (∀ f, cause ≠ .failure f) →
        inner.exec υ = (.error cause, ω) →
          ∃ ω', act.exec σ = (.error cause, ω') ∧ ω'.failures = ω.failures := by
  have ho : OrderlyEvaluator (evaluate depth) := orderly_evaluate depth
  have hevolves := evolves_of_leads ho hl
  have hυ : id < υ.store.contexts.size := by rwa [hn.size_contexts_eq]
  refine ⟨fun other hother => ?_, ?_, hn.runEvents_eq, ?_,
    fun henc hcause hinner => henc.exec hcause hinner⟩
  · exact (hn.nesting_eq other).trans (hevolves.nesting other hother)
  · rw [run_of_leads hl, hn.exec_run]
  · exact settles_of_orderly hυ (hn.orderly ho)
      (hn.composedBy_calling ho (elsewhere_evaluateEvents depth) (Session.nested_entered hυ))

private def handingRule : Rule := ⟨0, .empty, ['a']⟩

private def handedRule : Rule := ⟨1, .empty, ['b']⟩

-- The assertion `a` hands its context to `b`, which fails through the context that it is handed.
private def handingOn : Session :=
  { Session.empty (.basic false) 2 with
    handlers :=
      #[fun context subject _ =>
          .perform (.through context (.call .context subject (.char 'b') [context])) .ofExcept,
        fun _ _ arguments =>
          .perform (.through (arguments.headD .none) (.fail .context (.value .none) [] .none .none))
            .ofExcept]
    engines := #[{ Engine.create .default with
      assertions := (AssertionRegistry.initial.addRule Classifier.universalName ['a']
        handingRule).addRule Classifier.universalName ['b'] handedRule }] }

private def handingBegun : Session :=
  ((beginContext 0 (.bool true) ['a'] .universal .empty []).exec handingOn).2

private def handedCall : Act Unit := evaluate 1 0 (.bool true) (.char 'b') [.context 0]

private def handedEvents : Session → List Event :=
  evaluateEvents 1 0 (.bool true) (.char 'b') [.context 0]

/-- A failure through a context that was handed on is composed once, at the end of the nested call
in which it arose. -/
theorem composedBy_handedOn :
    ∃ f υ, handedCall.exec (handingBegun.entered 0) = (.error (.failure f), υ) ∧
      composedBy 0 (nestedEvents 0 handedCall handedEvents handingBegun) = [.composes 0 f] := by
  have hplaced : placed 0 ['b'] handingBegun = (.char 'b', handingBegun) := by
    rw [placed, Marker.unmark_eq_self (by decide) (by decide)]
    rfl
  have hn : NestedCalls (evaluate 1) (evaluateEvents 1) 0 handingBegun
      (handingBegun.handling handingRule 0 (.bool true) []) handedCall handedEvents handingBegun
      .ofExcept := by
    have hname : handingBegun.store.text? (.char 'b') = some ['b'] := rfl
    have hcalls : NestedCalls (evaluate 1) (evaluateEvents 1) 0 handingBegun
      (handingBegun.handling handingRule 0 (.bool true) []) _ _ _ _ := .evaluates hname
    rw [hplaced] at hcalls
    exact hcalls
  obtain ⟨-, -, -, hsettles, -⟩ := settles_of_leads 1 (by decide) (.refl _ _) hn
  have hended : ((nestedCall 0 handedCall).exec handingBegun).1 = .error (.failure 1) := by
    decide +kernel
  obtain ⟨f, υ, hcall, hevents, -⟩ := hsettles.outermost rfl 1 _ (Prod.ext hended rfl)
  exact ⟨f, υ, hcall, hevents⟩

-- A type that raises a failure for every value that it is to write.
private def raisingType : Classifier :=
  Definition.derive ⟨['t'], none, some ⟨.given 0, Identify.constant true⟩, none,
    some ⟨.given 1, fun _ _ _ _ => .fault (.failure 0)⟩, none⟩ .universal

-- The context of an assertion in an engine with that type, after a first failure.
private def raisingBegun : Session :=
  ((beginContext 0 (.bool true) ['a'] raisingType .empty []).exec
    { Session.empty (.basic false) 1 with
      failures := #[⟨.empty 2, .none, .none, none, [], none⟩]
      engines := #[{ Engine.create .default with
        classifiers := .ofList [raisingType, .universal] }] }).2

/-- A failure that leaves an outermost nested call need not be composed there: the second failure
reaches the context, and the first one leaves it, which a type raises as the standard message is
written. -/
theorem exec_nestedCall_raisingType :
    let failing := failWith 0 (.value .none) [] .none .none
    (raisingBegun.contextAt 0).nesting = 0 ∧
      (failing.exec (raisingBegun.entered 0)).1 = .error (.failure 1) ∧
      ((nestedCall 0 failing).exec raisingBegun).1 = .error (.failure 0) ∧
      (((nestedCall 0 failing).exec raisingBegun).2.failureAt 0).cause = none := by
  decide +kernel

end Expectation.Act

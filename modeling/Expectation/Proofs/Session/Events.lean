import Expectation.Proofs.Session.Composition

/-!
# Events of a run

While an evaluation runs, contexts compose failures, handlers attach values to them, and types may
fault on their values as they are finalized. The events of a run are listed here in order, for every
program and every evaluation. The context of a nested call composes at most once in the whole run of
the call, at its end: whatever goes through it within the call, from whichever invocation, happens a
level deeper.
-/

namespace Expectation

/-- What happens to failures in a run. -/
inductive Event where
  | composes (id : ContextId) (inner : FailureId)
  | attaches (id : FailureId)
  | faults (id : FailureId) (cause : Fault)
  deriving Repr, DecidableEq

/-- The event is that a context composes a failure. -/
def Event.isComposedBy (id : ContextId) : Event → Bool
  | composes other _ => other = id
  | attaches _ | faults .. => false

namespace Act

/-- The events of evaluations. -/
abbrev EvaluationEvents :=
  EngineId → (subject name : Ref) → (arguments : List Ref) → Session → List Event

/-- The event of finalizing a failure that arises with two values, if a type faults on them. -/
def arisenEvents (engineId : EngineId) (actual expected : Ref) (σ : Session) : List Event :=
  match (σ.engineAt engineId).shownDifference σ.store actual expected with
  | .error cause => [.faults σ.failures.size cause]
  | .ok _ => []

/-- The events of failing with a message. -/
def failEvents (engineId : EngineId) (message : Message) (arguments : List Ref)
    (actual expected : Ref) (σ : Session) : List Event :=
  match message with
  | .fault _ => []
  | .value value =>
    match (σ.engineAt engineId).body σ.store value arguments with
    | .error _ => []
    | .ok _ => arisenEvents engineId actual expected σ

/-- The events of failing with a message that is written, from those of the writing. -/
def failWritingEvents (engineId : EngineId) (writer : Document → Act (Option Document))
    (writing : Document → Session → List Event) (actual expected : Ref) (σ : Session) :
    List Event :=
  let blank := (σ.engineAt engineId).newDocument
  let written := (writer blank).exec σ
  writing blank σ ++
    match written.1 with
    | .error _ => []
    | .ok _ => arisenEvents engineId actual expected written.2

/-- The events of composing a failure: where another arises, it has the values of the former. -/
def composeEvents (id : ContextId) (inner : FailureId) (σ : Session) : List Event :=
  .composes id inner ::
    if σ.failures.size < ((compose id inner).exec σ).2.failures.size then
      arisenEvents (σ.contextAt id).engine (σ.failureAt inner).actual (σ.failureAt inner).expected σ
    else []

/-- The events at the end of a nested call, from the end of what was called: a failure that leaves
the outermost level is composed. -/
def settleEvents (id : ContextId) (result : Except Fault Unit) (σ : Session) : List Event :=
  match result with
  | .error (.failure inner) => if (σ.contextAt id).nesting = 1 then composeEvents id inner σ else []
  | _ => []

/-- There is no event at the end of what is no failure. -/
theorem settleEvents_of_not_failure (id : ContextId) {result : Except Fault Unit} (σ : Session)
    (h : ∀ inner, result ≠ .error (.failure inner)) : settleEvents id result σ = [] := by
  unfold settleEvents
  split
  · exact absurd rfl (h _)
  · rfl

/-- The events of a nested call, from those of what is called. -/
def nestedEvents (id : ContextId) (call : Act Unit) (events : Session → List Event)
    (σ : Session) : List Event :=
  let ended := call.exec (σ.entered id)
  events (σ.entered id) ++ settleEvents id ended.1 ended.2

/-- The events of what takes a route from a context. -/
def routedEvents (id : ContextId) (route : Route) (call : Act Unit) (events : Session → List Event)
    (σ : Session) : List Event :=
  match route with
  | .context => nestedEvents id call events σ
  | .engine | .bare => events σ

/-- The events of an evaluation from a context, on a route. -/
def callEvents (evaluate : Evaluator) (events : EvaluationEvents) (id : ContextId) (route : Route)
    (subject name : Ref) (arguments : List Ref) (σ : Session) : List Event :=
  let engineId := (σ.contextAt id).engine
  match route with
  | .bare | .engine => events engineId subject name arguments σ
  | .context =>
    match σ.store.text? name with
    | some marked =>
      nestedEvents id (evaluate engineId subject (placed id marked σ).1 arguments)
        (events engineId subject (placed id marked σ).1 arguments) (placed id marked σ).2
    | none => []

/-- The events of a command that goes through a context. -/
def performInEvents (evaluate : Evaluator) (events : EvaluationEvents) (id : ContextId) :
    ContextCommand → Session → List Event
  | .call route subject name arguments, σ =>
    callEvents evaluate events id route subject name arguments σ
  | .fail route message arguments actual expected, σ =>
    routedEvents id route (failWith (σ.contextAt id).engine message arguments actual expected)
      (failEvents (σ.contextAt id).engine message arguments actual expected) σ
  | _, _ => []

/-- The events of a command. -/
def performEvents (evaluate : Evaluator) (events : EvaluationEvents) :
    Command → Session → List Event
  | .attach f _ _, _ => [.attaches f]
  | .through (.context id) command, σ => performInEvents evaluate events id command σ
  | _, _ => []

/-- The events of what takes a route from the context that a value is. -/
def routedThroughEvents (value : Ref) (route : Route) (call : EngineId → Act Unit)
    (events : EngineId → Session → List Event) (σ : Session) : List Event :=
  match value with
  | .context id =>
    routedEvents id route (call (σ.contextAt id).engine) (events (σ.contextAt id).engine) σ
  | _ => []

/-- The events of a program. -/
def runEvents (evaluate : Evaluator) (events : EvaluationEvents) : Program → Session → List Event
  | .done _, _ | .raise _, _ => []
  | .perform command next, σ =>
    let ended := (perform evaluate command).exec σ
    performEvents evaluate events command σ ++ runEvents evaluate events (next ended.1) ended.2
  | .failWriting context route writer actual expected next, σ =>
    let failing (engineId : EngineId) : Act Unit :=
      failWriting engineId (fun document => run evaluate (writer document)) actual expected
    let ended := (routedThrough context route failing).exec σ
    routedThroughEvents context route failing
        (fun engineId => failWritingEvents engineId
          (fun document => run evaluate (writer document))
          (fun document => runEvents evaluate events (writer document)) actual expected) σ ++
      runEvents evaluate events (next ended.1) ended.2

/-- The events of an evaluation: those of the handler, if it comes to that. -/
def evaluateEvents : (depth : Nat) → EvaluationEvents
  | 0, _, _, _, _, _ => []
  | depth + 1, engineId, subject, name, arguments, σ =>
    match σ.store.text? name with
    | none => []
    | some text =>
      match (σ.engineAt engineId).dispatch σ.store subject text with
      | .error _ => []
      | .ok (type, rule) =>
        let begun := (beginContext engineId subject text type rule.flags arguments).exec σ
        match begun.1 with
        | .error _ => []
        | .ok id =>
          runEvents (evaluate depth) (evaluateEvents depth)
            (begun.2.handling rule id subject arguments) begun.2

/-- The compositions of a context among some events. -/
def composedBy (id : ContextId) (events : List Event) : List Event :=
  events.filter (Event.isComposedBy id)

@[simp] theorem composedBy_nil (id : ContextId) : composedBy id [] = [] := rfl

@[simp] theorem composedBy_append (id : ContextId) (events events' : List Event) :
    composedBy id (events ++ events') = composedBy id events ++ composedBy id events' := by
  simp [composedBy]

theorem composedBy_arisenEvents (id : ContextId) (engineId : EngineId) (actual expected : Ref)
    (σ : Session) : composedBy id (arisenEvents engineId actual expected σ) = [] := by
  unfold arisenEvents
  split <;> rfl

theorem composedBy_failEvents (id : ContextId) (engineId : EngineId) (message : Message)
    (arguments : List Ref) (actual expected : Ref) (σ : Session) :
    composedBy id (failEvents engineId message arguments actual expected σ) = [] := by
  unfold failEvents
  split
  · rfl
  · split
    · rfl
    · exact composedBy_arisenEvents ..

/-- To fail with a written message composes what the writing composes. -/
theorem composedBy_failWritingEvents (id : ContextId) (engineId : EngineId)
    (writer : Document → Act (Option Document)) (writing : Document → Session → List Event)
    (actual expected : Ref) (σ : Session) :
    composedBy id (failWritingEvents engineId writer writing actual expected σ) =
      composedBy id (writing (σ.engineAt engineId).newDocument σ) := by
  rw [failWritingEvents, composedBy_append]
  split
  · rw [composedBy_nil, List.append_nil]
  · rw [composedBy_arisenEvents, List.append_nil]

/-- A context composes once as it composes a failure, and no other context does. -/
theorem composedBy_composeEvents (other id : ContextId) (inner : FailureId) (σ : Session) :
    composedBy other (composeEvents id inner σ) =
      if other = id then [.composes id inner] else [] := by
  have hrest : composedBy other (if σ.failures.size < ((compose id inner).exec σ).2.failures.size
      then arisenEvents (σ.contextAt id).engine (σ.failureAt inner).actual
        (σ.failureAt inner).expected σ else []) = [] := by
    split
    · exact composedBy_arisenEvents ..
    · rfl
  rw [composeEvents, composedBy, List.filter_cons, ← composedBy, hrest]
  by_cases hsame : other = id
  · simp [Event.isComposedBy, hsame]
  · simp [Event.isComposedBy, hsame, Ne.symm hsame]

/-- Within a nested call its context is one level deeper, also when what is called has ended. -/
theorem nesting_of_entered {id : ContextId} {call : Act Unit} (h : Orderly call) {σ : Session}
    (hid : id < σ.store.contexts.size) :
    ((call.exec (σ.entered id)).2.contextAt id).nesting = (σ.contextAt id).nesting + 1 := by
  rw [(h (σ.entered id)).nesting id (by simpa using hid), σ.contextAt_entered hid]

end Act

namespace Session

/-- A nested call of some context is going on. -/
structure Nested (other : ContextId) (σ : Session) : Prop where
  known : other < σ.store.contexts.size
  positive : 0 < (σ.contextAt other).nesting

/-- It goes on whatever a program does meanwhile. -/
theorem Nested.evolves {other : ContextId} {σ τ : Session} (h : Nested other σ)
    (hevolves : σ.Evolves τ) : Nested other τ :=
  ⟨Nat.lt_of_lt_of_le h.known hevolves.contexts_le,
    by rw [hevolves.nesting other h.known]; exact h.positive⟩

/-- It goes on in further nested calls. -/
theorem Nested.entered {other : ContextId} {σ : Session} (h : Nested other σ) (id : ContextId) :
    Nested other (σ.entered id) := by
  refine ⟨by simpa using h.known, ?_⟩
  by_cases hsame : other = id
  · subst hsame
    rw [σ.contextAt_entered h.known]
    exact Nat.succ_pos _
  · rw [Session.entered, σ.contextAt_withContext_of_ne _ hsame]
    exact h.positive

/-- A nested call is going on in the session in which it begins. -/
theorem nested_entered {σ : Session} {id : ContextId} (hid : id < σ.store.contexts.size) :
    Nested id (σ.entered id) := by
  refine ⟨by simpa using hid, ?_⟩
  rw [σ.contextAt_entered hid]
  exact Nat.succ_pos _

end Session

namespace Act

section

variable {id other : ContextId} {evaluate : Evaluator} {events : EvaluationEvents} {σ : Session}

/-- While a nested call of a context is going on, the context composes nothing at the end of another
one, its own ones included. -/
theorem composedBy_nestedEvents {call : Act Unit} {calling : Session → List Event}
    (hother : σ.Nested other) (hw : Orderly call)
    (h : composedBy other (calling (σ.entered id)) = []) :
    composedBy other (nestedEvents id call calling σ) = [] := by
  rw [nestedEvents, composedBy_append, h, List.nil_append]
  unfold settleEvents
  split
  · split
    · next hone =>
      by_cases hsame : other = id
      · subst hsame
        have hdeeper := nesting_of_entered hw hother.known
        have hpos := hother.positive
        omega
      · rw [composedBy_composeEvents, if_neg hsame]
    · rfl
  · rfl

section

variable {call : Act Unit} {calling : Session → List Event} {τ : Session}

/-- A nested call that fails from outside of any other composes the failure, once. -/
theorem composedBy_nestedEvents_of_failure {f : FailureId}
    (h : composedBy id (calling (σ.entered id)) = [])
    (hcall : call.exec (σ.entered id) = (.error (.failure f), τ))
    (hn : (τ.contextAt id).nesting = 1) :
    composedBy id (nestedEvents id call calling σ) = [.composes id f] := by
  rw [nestedEvents, composedBy_append, h, List.nil_append, hcall]
  simp only [settleEvents, hn, if_true, composedBy_composeEvents]

/-- A nested call that ends with no failure composes nothing at its end. -/
theorem composedBy_nestedEvents_of_not_failure {result : Except Fault Unit}
    (h : composedBy id (calling (σ.entered id)) = [])
    (hcall : call.exec (σ.entered id) = (result, τ))
    (hresult : ∀ f, result ≠ .error (.failure f)) :
    composedBy id (nestedEvents id call calling σ) = [] := by
  rw [nestedEvents, composedBy_append, h, List.nil_append, hcall,
    settleEvents_of_not_failure id τ hresult, composedBy_nil]

end

/-- Evaluations in which no context composes that has a nested call going on. -/
def Elsewhere (events : EvaluationEvents) : Prop :=
  ∀ engineId subject name arguments (σ : Session) other, σ.Nested other →
    composedBy other (events engineId subject name arguments σ) = []

/-- No command composes in a context that has a nested call going on, whichever context it goes
through. -/
theorem composedBy_performInEvents (ho : OrderlyEvaluator evaluate) (he : Elsewhere events)
    (command : ContextCommand) (hother : σ.Nested other) :
    composedBy other (performInEvents evaluate events id command σ) = [] := by
  cases command with
  | call route subject name arguments =>
    cases route with
    | bare | engine => exact he _ _ _ _ _ _ hother
    | context =>
      rw [performInEvents, callEvents]
      split
      · have hplaced : ∀ marked, (placed id marked σ).2.Nested other := fun marked =>
          ⟨by simpa using hother.known, by simpa using hother.positive⟩
        exact composedBy_nestedEvents (hplaced _) (ho _ _ _ _)
          (he _ _ _ _ _ _ ((hplaced _).entered id))
      · rfl
  | fail route message arguments actual expected =>
    cases route with
    | bare | engine => exact composedBy_failEvents ..
    | context =>
      change composedBy other (nestedEvents id _ _ σ) = []
      exact composedBy_nestedEvents hother (steady_failWith _ _ _ _ _).orderly
        (composedBy_failEvents ..)
  | _ => rfl

theorem composedBy_performEvents (ho : OrderlyEvaluator evaluate) (he : Elsewhere events)
    (command : Command) (hother : σ.Nested other) :
    composedBy other (performEvents evaluate events command σ) = [] := by
  cases command with
  | through value command =>
    cases value with
    | context id => exact composedBy_performInEvents ho he command hother
    | _ => rfl
  | _ => rfl

/-- No program composes in a context that has a nested call going on. -/
theorem composedBy_runEvents (ho : OrderlyEvaluator evaluate) (he : Elsewhere events)
    (program : Program) (hother : σ.Nested other) :
    composedBy other (runEvents evaluate events program σ) = [] := by
  induction program generalizing σ with
  | done answer => rfl
  | raise cause => rfl
  | perform command next ih =>
    rw [runEvents, composedBy_append, composedBy_performEvents ho he command hother]
    exact ih _ (hother.evolves (orderly_perform ho command σ))
  | failWriting context route writer actual expected next ihwriter ihnext =>
    have hw : ∀ engineId, Orderly (failWriting engineId
        (fun document => run evaluate (writer document)) actual expected) := fun engineId =>
      orderly_failWriting (fun document => orderly_run ho _) engineId _ _
    rw [runEvents, composedBy_append,
      ihnext _ (hother.evolves (orderly_routedThrough context route hw σ)), List.append_nil]
    cases context with
    | context id =>
      cases route with
      | bare | engine =>
        rw [routedThroughEvents, routedEvents, composedBy_failWritingEvents]
        exact ihwriter _ hother
      | context =>
        exact composedBy_nestedEvents hother (hw _)
          ((composedBy_failWritingEvents ..).trans (ihwriter _ (hother.entered id)))
    | _ => rfl

end

/-- No evaluation composes in a context that has a nested call going on. -/
theorem elsewhere_evaluateEvents (depth : Nat) : Elsewhere (evaluateEvents depth) := by
  induction depth with
  | zero => intro _ _ _ _ _ _ _; rfl
  | succ depth ih =>
    intro engineId subject name arguments σ other hother
    rw [evaluateEvents]
    split
    · rfl
    · split
      · rfl
      · next type rule _ =>
        obtain ⟨c, cells, hb, _⟩ :=
          exec_beginContext engineId subject _ type rule.flags arguments σ
        rw [hb]
        exact composedBy_runEvents (orderly_evaluate depth) ih _
          (hother.evolves (.of_push σ cells c))

end Act

end Expectation

import Expectation.Proofs.Document.Rows
import Expectation.Proofs.Session.Run

/-!
# Finalized failures

What a finalized failure is: its document with the difference of its values under it, if there is
one to show, without the values, and with the cause it had. A failure that a context composes is a
new one, whose document is the one that the error mode asks for and whose cause is the former.
-/

namespace Expectation

/-- The difference that is shown of two values: they must be of one coarse kind. -/
def Engine.shownDifference (e : Engine) (s : Store) (actual expected : Ref) :
    Except Fault (Option Document) :=
  if s.diffable actual expected then (e.diff s actual expected).outcome else .ok none

/-- A document with a difference under it, if there is one. -/
def Document.under (d : Document) : Option Document → Document
  | none => d
  | some difference => (((d.newlines 2).text "Diff:" (some "blue")).newlines 2).append difference

/-- The row above a difference. -/
def differenceHeading : List Glyph := ("Diff:" : Text).map fun c => (c, some ("blue" : Text))

/-- A document goes on below another with an empty row, a heading, an empty row and a difference;
without a difference it is the same. -/
def Document.Extends (d : Document) (difference : Option Document) (extended : Document) : Prop :=
  match difference with
  | none => extended = d
  | some difference => extended.rows = d.rows ++ [[], differenceHeading, []] ++ difference.rows

/-- Two values of which none is there have no difference to show. -/
theorem Engine.shownDifference_none (e : Engine) (s : Store) :
    e.shownDifference s .none .none = .ok none := by
  rw [shownDifference, if_neg]
  have hk : s.coarseKind? .none = none := rfl
  simp [Store.diffable, hk]

theorem Document.extends_under (d : Document) (difference : Option Document) :
    d.Extends difference (d.under difference) := by
  cases difference with
  | none => rfl
  | some difference =>
    have hall : ("Diff:" : Text).all (fun c => c != '\n' && !isDropped c) = true := by decide
    have hplain : ∀ c ∈ ("Diff:" : Text), c ≠ '\n' ∧ isDropped c = false := by
      intro c hc
      simpa using List.all_eq_true.1 hall c hc
    exact rows_heading_append d difference "Diff:" "blue" (by decide) hplain

namespace Session

/-- A session in which a failure has got the document of its message and has been freed of its
values; other failures, the contexts, the engines and the values of the session have stayed. -/
structure Finalized (σ : Session) (id : FailureId) (output : Document) (τ : Session) : Prop where
  size : τ.failures.size = σ.failures.size
  output : (τ.failureAt id).output = output
  cause : (τ.failureAt id).cause = (σ.failureAt id).cause
  actual : (τ.failureAt id).actual = .none
  expected : (τ.failureAt id).expected = .none
  others : ∀ other, other ≠ id → τ.failureAt other = σ.failureAt other

/-- A failure is finalized where it is replaced by one that is. -/
private theorem Finalized.of_withFailure {σ τ : Session} {id : FailureId} {f : Failure}
    (hτ : τ.failures = σ.failures) (hid : id < σ.failures.size)
    (hc : f.cause = (σ.failureAt id).cause) (ha : f.actual = .none) (he : f.expected = .none) :
    σ.Finalized id f.output (τ.withFailure id f) := by
  have hself : (τ.withFailure id f).failureAt id = f :=
    failureAt_withFailure_self _ _ _ (by rw [hτ]; exact hid)
  refine ⟨by simp [hτ], by rw [hself], by rw [hself, hc], by rw [hself, ha], by rw [hself, he], ?_⟩
  intro other hother
  rw [failureAt_withFailure_of_ne _ _ hother, failureAt, failureAt, hτ]

end Session

namespace Act

/-- The document of a failure comes with the difference of its values. -/
theorem exec_withDifference (e : Engine) (f : Failure) (σ : Session) {difference : Option Document}
    (h : e.shownDifference σ.store f.actual f.expected = .ok difference) :
    ∃ log, (withDifference e f).exec σ =
      (.ok (f.output.under difference), { σ with log := log }) := by
  rw [withDifference, exec_bind_of_ok (exec_store σ)]
  unfold Engine.shownDifference at h
  split at h
  · next hd =>
    refine ⟨σ.log ++ (e.diff σ.store f.actual f.expected).records, ?_⟩
    rw [if_pos hd, exec_bind, exec_ofTraced, h]
    cases difference <;> rfl
  · next hd =>
    cases h
    exact ⟨σ.log, by rw [if_neg hd]; rfl⟩

/-- A failure of an engine with a format that exists is finalized. -/
theorem exec_finalize (engineId : EngineId) (id : FailureId) (σ : Session)
    (hid : id < σ.failures.size) (hf : (Format.ofName? (σ.engineAt engineId).format).isSome)
    {difference : Option Document}
    (hd : (σ.engineAt engineId).shownDifference σ.store (σ.failureAt id).actual
      (σ.failureAt id).expected = .ok difference) :
    ∃ τ, (finalize engineId id).exec σ = (.ok (), τ) ∧
      σ.Finalized id ((σ.failureAt id).output.under difference) τ := by
  obtain ⟨log, hw⟩ := exec_withDifference _ _ σ hd
  obtain ⟨format, hformat⟩ := Option.isSome_iff_exists.1 hf
  rw [finalize, exec_bind_of_ok (exec_engine _ σ), exec_bind_of_ok (exec_failure _ σ),
    exec_bind_of_ok hw, hformat]
  dsimp only
  rw [exec_bind_of_ok (exec_get _)]
  refine ⟨_, exec_setFailure _ _ _, ?_⟩
  generalize hg : rendered _ _ _ _ format = g
  have ho : g.output = (σ.failureAt id).output.under difference := by
    rw [← hg]
    cases format <;> rfl
  rw [← ho]
  refine .of_withFailure rfl hid ?_ ?_ ?_ <;> rw [← hg] <;> cases format <;> rfl

end Act

namespace Session

/-- A session with one more failure, which has a document and a cause and no values; the failures
that were there before have stayed. -/
structure Failed (σ : Session) (output : Document) (cause : Option FailureId) (τ : Session) :
    Prop where
  size : τ.failures.size = σ.failures.size + 1
  output : (τ.failureAt σ.failures.size).output = output
  cause : (τ.failureAt σ.failures.size).cause = cause
  actual : (τ.failureAt σ.failures.size).actual = .none
  expected : (τ.failureAt σ.failures.size).expected = .none
  others : ∀ id < σ.failures.size, τ.failureAt id = σ.failureAt id

/-- A failure that is added and finalized. -/
theorem Finalized.failed {σ τ : Session} {f : Failure} {output : Document}
    (h : ({ σ with failures := σ.failures.push f } : Session).Finalized σ.failures.size output τ) :
    σ.Failed output f.cause τ where
  size := by simpa using h.size
  output := h.output
  cause := by simpa [failureAt] using h.cause
  actual := h.actual
  expected := h.expected
  others id hid := by
    rw [h.others id (Nat.ne_of_lt hid)]
    simp [failureAt, Array.getElem?_push_lt hid, hid]

end Session

namespace Act

/-- Adding a failure and finalizing it. -/
private theorem exec_addFailure_finalize (engineId : EngineId) (f : Failure) (σ : Session)
    (hf : (Format.ofName? (σ.engineAt engineId).format).isSome) {difference : Option Document}
    (hd : (σ.engineAt engineId).shownDifference σ.store f.actual f.expected = .ok difference) :
    ∃ τ, (finalize engineId σ.failures.size).exec { σ with failures := σ.failures.push f } =
        (.ok (), τ) ∧ σ.Failed (f.output.under difference) f.cause τ := by
  have hnew :
      ({ σ with failures := σ.failures.push f } : Session).failureAt σ.failures.size = f := by
    simp [Session.failureAt]
  obtain ⟨τ, hrun, hτ⟩ := exec_finalize engineId σ.failures.size
    { σ with failures := σ.failures.push f } (by simp) hf (by rw [hnew]; exact hd)
  rw [hnew] at hτ
  exact ⟨τ, hrun, hτ.failed⟩

/-- To fail with a document is to end with a new failure that has no cause. -/
theorem exec_failWithBody (engineId : EngineId) (body : Document) (actual expected : Ref)
    (σ : Session) (hf : (Format.ofName? (σ.engineAt engineId).format).isSome)
    {difference : Option Document}
    (hd : (σ.engineAt engineId).shownDifference σ.store actual expected = .ok difference) :
    ∃ τ, (failWithBody engineId body actual expected).exec σ =
        (.error (.failure σ.failures.size), τ) ∧ σ.Failed (body.under difference) none τ := by
  obtain ⟨τ, hrun, hτ⟩ :=
    exec_addFailure_finalize engineId ⟨body, actual, expected, none, body.plain, none⟩ σ hf hd
  refine ⟨τ, ?_, hτ⟩
  rw [failWithBody, exec_bind_of_ok (exec_addFailure _ _), exec_bind_of_ok hrun]
  rfl

/-- The document of a composed failure: that of the error mode, from the standard message of the
context and the document of the former failure. -/
def composedDocument (standard inner : Document) : ErrorMode → Document
  | .default => standard
  | .bubble => inner
  | .nested => standard.newlines.indent.indentation.block inner

/-- The standard message of a context as it is in a session. -/
def standardIn (σ : Session) (id : ContextId) : Traced Document :=
  let c := σ.contextAt id
  (σ.engineAt c.engine).standardMessage σ.store c.subject c.name
    (match σ.store.node c.arguments with
    | .list items => items
    | _ => [])

private theorem exec_argumentsOf (c : Context) (σ : Session) :
    (argumentsOf c).exec σ =
      (.ok (match σ.store.node c.arguments with
        | .list items => items
        | _ => []), σ) := by
  rw [argumentsOf, exec_bind_of_ok (exec_store σ)]
  cases σ.store.node c.arguments <;> rfl

theorem exec_standardMessage (id : ContextId) (σ : Session) :
    (standardMessage id).exec σ =
      ((standardIn σ id).outcome, { σ with log := σ.log ++ (standardIn σ id).records }) := by
  rw [standardMessage, exec_bind_of_ok (exec_context _ σ), exec_bind_of_ok (exec_engine _ σ),
    exec_bind_of_ok (exec_store σ), exec_bind_of_ok (exec_argumentsOf _ σ), exec_ofTraced,
    standardIn]

theorem exec_composedOutput (id : ContextId) (standard inner : Document) (mode : ErrorMode)
    (σ : Session) (h : mode ≠ .bubble → (standardIn σ id).outcome = .ok standard) :
    ∃ log, (composedOutput id inner mode).exec σ =
      (.ok (composedDocument standard inner mode), { σ with log := log }) := by
  cases mode with
  | default => exact ⟨_, by rw [composedOutput, exec_standardMessage, h (by simp)]; rfl⟩
  | bubble => exact ⟨σ.log, rfl⟩
  | nested =>
    have hs := exec_standardMessage id σ
    rw [h (by simp)] at hs
    exact ⟨_, by rw [composedOutput, exec_bind_of_ok hs]; rfl⟩

private theorem exec_errorModeOf (id : ContextId) (σ : Session) {mode : ErrorMode}
    (h : ErrorMode.ofValue? σ.store (σ.contextAt id).errorMode = some mode) :
    (errorModeOf id).exec σ = (.ok mode, σ) := by
  rw [errorModeOf, exec_bind_of_ok (exec_context _ σ), exec_bind_of_ok (exec_store σ), h]
  rfl

/-- To compose a failure is to end with a new one: its document is the one that the error mode
asks for, with the difference of the values of the former, and its cause is the former. -/
theorem exec_compose (id : ContextId) (inner : FailureId) (σ : Session)
    (hf : (Format.ofName? (σ.engineAt (σ.contextAt id).engine).format).isSome) {mode : ErrorMode}
    (hm : ErrorMode.ofValue? σ.store (σ.contextAt id).errorMode = some mode) {standard : Document}
    (hs : mode ≠ .bubble → (standardIn σ id).outcome = .ok standard)
    {difference : Option Document}
    (hd : (σ.engineAt (σ.contextAt id).engine).shownDifference σ.store
      (σ.failureAt inner).actual (σ.failureAt inner).expected = .ok difference) :
    ∃ τ, (compose id inner).exec σ = (.error (.failure σ.failures.size), τ) ∧
      σ.Failed ((composedDocument standard (σ.failureAt inner).output mode).under difference)
        (some inner) τ := by
  obtain ⟨log, ho⟩ := exec_composedOutput id standard (σ.failureAt inner).output mode σ hs
  obtain ⟨τ, hrun, hτ⟩ := exec_addFailure_finalize (σ.contextAt id).engine
    ⟨composedDocument standard (σ.failureAt inner).output mode, (σ.failureAt inner).actual,
      (σ.failureAt inner).expected, some inner,
      (composedDocument standard (σ.failureAt inner).output mode).plain, none⟩
    { σ with log := log } hf hd
  refine ⟨τ, ?_, hτ.size, hτ.output, hτ.cause, hτ.actual, hτ.expected, hτ.others⟩
  rw [compose, exec_bind_of_ok (exec_errorModeOf id σ hm), exec_bind_of_ok (exec_failure _ σ),
    exec_bind_of_ok ho, exec_bind_of_ok (exec_addFailure _ _),
    exec_bind_of_ok (exec_context _ _)]
  exact exec_bind_of_ok hrun

end Act

end Expectation

import Expectation.Proofs.Message.Standard
import Expectation.Proofs.Session.Finalization
import Expectation.Proofs.Session.Locality
import Expectation.Proofs.Trace
import Expectation.Proofs.Value.Form

/-!
# Faults of finalizing and composing

How finalizing a failure and composing one end in every case. A finalization ends with the fault
that a function of a type raises as the difference of the values is looked for, and an unknown
format ends it after the failure has got its document. A context composes a failure only where
nothing hinders it: an unknown error mode, a standard message that is not written, or what hinders
the finalization.
-/

namespace Expectation

/-- The records that are left as the difference of two values is looked for. -/
def Engine.differenceRecords (e : Engine) (s : Store) (actual expected : Ref) : List LogEntry :=
  if s.diffable actual expected then (e.diff s actual expected).records else []

/-- What keeps an engine from finalizing a failure, with the fault that comes of it: the difference
of the values is not found for the fault, or it is and the format is unknown. -/
inductive Engine.Impedes (e : Engine) (s : Store) (f : Failure) : Fault → Prop
  | difference {cause : Fault} (h : e.shownDifference s f.actual f.expected = .error cause) :
      Impedes e s f cause
  | format {difference : Option Document}
      (hd : e.shownDifference s f.actual f.expected = .ok difference)
      (h : Format.ofName? e.format = none) :
      Impedes e s f (.unknownFormat (Text.quoted e.format))

/-- A failure keeps another from being finalized only where it comes instead of a difference. -/
theorem Engine.Impedes.shownDifference_eq {e : Engine} {s : Store} {f : Failure} {g : FailureId}
    (h : e.Impedes s f (.failure g)) :
    e.shownDifference s f.actual f.expected = .error (.failure g) := by
  cases h with
  | difference hd => exact hd

/-- A failure without its values, with their difference under its document. -/
def Failure.cleared (f : Failure) (difference : Option Document) : Failure :=
  { f with actual := .none, expected := .none, output := f.output.under difference }

/-- A failure without its values, with its message rendered. -/
def Failure.finalized (console : Console) (width : Int) (f : Failure)
    (difference : Option Document) (format : Format) : Failure :=
  Act.rendered console width (f.cleared difference) (f.output.under difference) format

namespace Failure

variable (console : Console) (width : Int) (f : Failure) (difference : Option Document)
  (format : Format)

@[simp] theorem output_finalized :
    (f.finalized console width difference format).output = f.output.under difference := by
  cases format <;> rfl

@[simp] theorem actual_finalized :
    (f.finalized console width difference format).actual = .none := by
  cases format <;> rfl

@[simp] theorem expected_finalized :
    (f.finalized console width difference format).expected = .none := by
  cases format <;> rfl

@[simp] theorem cause_finalized :
    (f.finalized console width difference format).cause = f.cause := by
  cases format <;> rfl

end Failure

namespace Act

variable {σ : Session}

/-- The document of a failure comes with the difference of its values, or the fault that a type
raises comes instead. -/
theorem exec_withDifference_eq (e : Engine) (f : Failure) (σ : Session) :
    (withDifference e f).exec σ =
      ((e.shownDifference σ.store f.actual f.expected).map f.output.under,
        { σ with log := σ.log ++ e.differenceRecords σ.store f.actual f.expected }) := by
  rw [withDifference, exec_bind_of_ok (exec_store σ)]
  unfold Engine.shownDifference Engine.differenceRecords
  split
  · rw [exec_bind, exec_ofTraced]
    cases (e.diff σ.store f.actual f.expected).outcome with
    | error cause => rfl
    | ok difference => cases difference <;> rfl
  · rw [List.append_nil]
    rfl

/-- How a finalization ends. -/
theorem exec_finalize_eq (engineId : EngineId) (id : FailureId) (σ : Session) :
    (finalize engineId id).exec σ =
      let e := σ.engineAt engineId
      let f := σ.failureAt id
      let searched : Session :=
        { σ with log := σ.log ++ e.differenceRecords σ.store f.actual f.expected }
      match e.shownDifference σ.store f.actual f.expected with
      | .error cause => (.error cause, searched)
      | .ok difference =>
        match Format.ofName? e.format with
        | some format =>
          (.ok (), searched.withFailure id
            (f.finalized σ.console e.settings.renderWidth difference format))
        | none =>
          (.error (.unknownFormat (Text.quoted e.format)),
            searched.withFailure id (f.cleared difference)) := by
  rw [finalize, exec_bind_of_ok (exec_engine _ σ), exec_bind_of_ok (exec_failure _ σ), exec_bind,
    exec_withDifference_eq]
  dsimp only
  cases (σ.engineAt engineId).shownDifference σ.store (σ.failureAt id).actual
      (σ.failureAt id).expected with
  | error cause => rfl
  | ok difference =>
    simp only [Except.map]
    cases hf : Format.ofName? (σ.engineAt engineId).format with
    | none => rfl
    | some format => rfl

/-- A finalization that answers finds out whether there is a difference to show, in a format that
exists, and replaces the failure by the finalized one. -/
theorem finalize_eq_ok {engineId : EngineId} {id : FailureId} {τ : Session}
    (h : (finalize engineId id).exec σ = (.ok (), τ)) :
    ∃ difference format log,
      (σ.engineAt engineId).shownDifference σ.store (σ.failureAt id).actual
        (σ.failureAt id).expected = .ok difference ∧
      Format.ofName? (σ.engineAt engineId).format = some format ∧
      τ = ({ σ with log := log } : Session).withFailure id
        ((σ.failureAt id).finalized σ.console (σ.engineAt engineId).settings.renderWidth difference
          format) := by
  rw [exec_finalize_eq] at h
  dsimp only at h
  split at h
  · cases h
  · next difference hd =>
    split at h
    · next format hf =>
      cases h
      exact ⟨difference, format, _, hd, hf, rfl⟩
    · cases h

/-- What keeps a failure from being finalized is what the finalization ends with. -/
theorem exec_finalize_of_impedes {engineId : EngineId} {id : FailureId} {cause : Fault}
    (h : (σ.engineAt engineId).Impedes σ.store (σ.failureAt id) cause) :
    ((finalize engineId id).exec σ).1 = .error cause := by
  rw [exec_finalize_eq]
  cases h with
  | difference hd => simp only [hd]
  | format hd hf => simp only [hd, hf]

/-- A failure is finalized and keeps its cause, or something keeps it from being finalized. -/
theorem exec_finalize_cases (engineId : EngineId) (id : FailureId) (σ : Session) :
    (∃ cause τ, (finalize engineId id).exec σ = (.error cause, τ) ∧
      (σ.engineAt engineId).Impedes σ.store (σ.failureAt id) cause) ∨
    (∀ cause, ¬ (σ.engineAt engineId).Impedes σ.store (σ.failureAt id) cause) ∧
      ∃ τ, (finalize engineId id).exec σ = (.ok (), τ) ∧
        (id < σ.failures.size → (τ.failureAt id).cause = (σ.failureAt id).cause) := by
  rw [exec_finalize_eq]
  dsimp only
  split
  · next cause hd => exact Or.inl ⟨cause, _, rfl, .difference hd⟩
  · next difference hd =>
    split
    · next format hf =>
      refine Or.inr ⟨?_, _, rfl, fun hid => ?_⟩
      · rintro cause (hd' | ⟨-, hf'⟩)
        · exact nomatch hd.symm.trans hd'
        · exact nomatch hf.symm.trans hf'
      · refine (congrArg Failure.cause (Session.failureAt_withFailure_self _ _ _ hid)).trans ?_
        exact Failure.cause_finalized ..
    · next hf => exact Or.inl ⟨_, _, rfl, .format hd hf⟩

/-- A context has an error mode, and the standard message if the mode asks for it. -/
def Written (id : ContextId) (σ : Session) : Prop :=
  ∃ mode, ErrorMode.ofValue? σ.store (σ.contextAt id).errorMode = some mode ∧
    (mode ≠ .bubble → ∃ standard, (standardIn σ id).outcome = .ok standard)

/-- What hinders a context from composing a failure, with the fault that comes of it. Each case
speaks of a session in which those before it do not hold. -/
inductive Hinders (id : ContextId) (inner : FailureId) (σ : Session) : Fault → Prop
  | mode (h : ErrorMode.ofValue? σ.store (σ.contextAt id).errorMode = none) :
      Hinders id inner σ (ErrorMode.unknown σ.store (σ.contextAt id).errorMode)
  | message {mode : ErrorMode} {cause : Fault}
      (hm : ErrorMode.ofValue? σ.store (σ.contextAt id).errorMode = some mode)
      (hb : mode ≠ .bubble) (h : (standardIn σ id).outcome = .error cause) :
      Hinders id inner σ cause
  | finalization {cause : Fault} (hw : Written id σ)
      (h : (σ.engineAt (σ.contextAt id).engine).Impedes σ.store (σ.failureAt inner) cause) :
      Hinders id inner σ cause

/-- A composed failure as it arises, before it is finalized. -/
def composedFrom (f : Failure) (inner : FailureId) (output : Document) : Failure :=
  ⟨output, f.actual, f.expected, some inner, output.plain, none⟩

/-- The error mode of a context, or the configuration fault of an unknown one. -/
theorem exec_errorModeOf_eq (id : ContextId) (σ : Session) :
    (errorModeOf id).exec σ =
      (match ErrorMode.ofValue? σ.store (σ.contextAt id).errorMode with
        | some mode => .ok mode
        | none => .error (ErrorMode.unknown σ.store (σ.contextAt id).errorMode), σ) := by
  rw [errorModeOf, exec_bind_of_ok (exec_context _ σ), exec_bind_of_ok (exec_store σ)]
  cases ErrorMode.ofValue? σ.store (σ.contextAt id).errorMode <;> rfl

/-- Where the standard message is there if it is asked for, a failure arises that is finalized. -/
private theorem exec_compose_of_written {id : ContextId} (h : Written id σ) (inner : FailureId) :
    ∃ output log, (compose id inner).exec σ =
      (finalize (σ.contextAt id).engine σ.failures.size >>= fun _ =>
        throw (.failure σ.failures.size)).exec
          { σ with
            log := log
            failures := σ.failures.push (composedFrom (σ.failureAt inner) inner output) } := by
  obtain ⟨mode, hm, hs⟩ := h
  have hmode := exec_errorModeOf_eq id σ
  rw [hm] at hmode
  have hcomposed : ∃ output log,
      (composedOutput id (σ.failureAt inner).output mode).exec σ =
        (.ok output, { σ with log := log }) := by
    by_cases hb : mode = .bubble
    · subst hb
      exact ⟨_, σ.log, rfl⟩
    · obtain ⟨standard, hstandard⟩ := hs hb
      obtain ⟨log, ho⟩ :=
        exec_composedOutput id standard (σ.failureAt inner).output mode σ fun _ => hstandard
      exact ⟨_, log, ho⟩
  obtain ⟨output, log, ho⟩ := hcomposed
  refine ⟨output, log, ?_⟩
  rw [compose, exec_bind_of_ok hmode, exec_bind_of_ok (exec_failure _ σ), exec_bind_of_ok ho,
    exec_bind_of_ok (exec_addFailure _ _), exec_bind_of_ok (exec_context _ _)]
  rfl

/-- Where the standard message is asked for and not written, composing ends with that. -/
private theorem exec_compose_of_message {id : ContextId} {mode : ErrorMode} {cause : Fault}
    (hm : ErrorMode.ofValue? σ.store (σ.contextAt id).errorMode = some mode)
    (hb : mode ≠ .bubble) (h : (standardIn σ id).outcome = .error cause) (inner : FailureId) :
    ∃ log, (compose id inner).exec σ = (.error cause, { σ with log := log }) := by
  have hmode := exec_errorModeOf_eq id σ
  rw [hm] at hmode
  have hstandard := exec_standardMessage id σ
  rw [h] at hstandard
  rw [compose, exec_bind_of_ok hmode, exec_bind_of_ok (exec_failure _ σ)]
  refine ⟨σ.log ++ (standardIn σ id).records, exec_bind_of_error ?_⟩
  cases mode with
  | bubble => exact absurd rfl hb
  | default => exact hstandard
  | nested => exact exec_bind_of_error hstandard

/-- Composing ends with what hinders it before a failure arises; or else a failure arises, which is
finalized. -/
theorem exec_compose_cases (id : ContextId) (inner : FailureId) (σ : Session) :
    (∃ cause log, (compose id inner).exec σ = (.error cause, { σ with log := log }) ∧
      Hinders id inner σ cause) ∨
    Written id σ ∧ ∃ output log, (compose id inner).exec σ =
      (finalize (σ.contextAt id).engine σ.failures.size >>= fun _ =>
        throw (.failure σ.failures.size)).exec
          { σ with
            log := log
            failures := σ.failures.push (composedFrom (σ.failureAt inner) inner output) } := by
  cases hm : ErrorMode.ofValue? σ.store (σ.contextAt id).errorMode with
  | none =>
    have hmode := exec_errorModeOf_eq id σ
    rw [hm] at hmode
    exact Or.inl ⟨_, σ.log, exec_bind_of_error hmode, .mode hm⟩
  | some mode =>
    by_cases hb : mode = .bubble
    · have hw : Written id σ := ⟨mode, hm, fun h => absurd hb h⟩
      exact Or.inr ⟨hw, exec_compose_of_written hw inner⟩
    · cases hs : (standardIn σ id).outcome with
      | error cause =>
        obtain ⟨log, hrun⟩ := exec_compose_of_message hm hb hs inner
        exact Or.inl ⟨cause, log, hrun, .message hm hb hs⟩
      | ok standard =>
        have hw : Written id σ := ⟨mode, hm, fun _ => ⟨standard, hs⟩⟩
        exact Or.inr ⟨hw, exec_compose_of_written hw inner⟩

-- A composed failure is finalized as the one that it comes from would be: it has its values.
private theorem impedes_composedFrom {id : ContextId} {inner : FailureId} (output : Document)
    (log : List LogEntry) {cause : Fault} :
    let σ' : Session :=
      { σ with
        log := log
        failures := σ.failures.push (composedFrom (σ.failureAt inner) inner output) }
    (σ'.engineAt (σ.contextAt id).engine).Impedes σ'.store (σ'.failureAt σ.failures.size) cause ↔
      (σ.engineAt (σ.contextAt id).engine).Impedes σ.store (σ.failureAt inner) cause := by
  intro σ'
  have hnew : σ'.failureAt σ.failures.size = composedFrom (σ.failureAt inner) inner output := by
    simp [σ', Session.failureAt]
  rw [hnew]
  constructor <;> rintro (hd | ⟨hd, hf⟩)
  · exact .difference hd
  · exact .format hd hf
  · exact .difference hd
  · exact .format hd hf

/-- What hinders a context from composing is what the composing ends with. -/
theorem exec_compose_of_hinders {id : ContextId} {inner : FailureId} {cause : Fault}
    (h : Hinders id inner σ cause) : ((compose id inner).exec σ).1 = .error cause := by
  cases h with
  | mode hm =>
    have hmode := exec_errorModeOf_eq id σ
    rw [hm] at hmode
    rw [compose, exec_bind_of_error hmode]
  | message hm hb hs =>
    obtain ⟨log, hrun⟩ := exec_compose_of_message hm hb hs inner
    rw [hrun]
  | finalization hw hi =>
    obtain ⟨output, log, hrun⟩ := exec_compose_of_written hw inner
    have hfinal := exec_finalize_of_impedes ((impedes_composedFrom output log).2 hi)
    rw [hrun, exec_bind]
    split
    · next hok =>
      rw [hok] at hfinal
      cases hfinal
    · next herror =>
      rw [herror] at hfinal
      exact hfinal

/-- Composing ends with what hinders it; or nothing hinders it, and it ends with a new failure,
whose cause is the one that is composed. -/
theorem exec_compose_ends (id : ContextId) (inner : FailureId) (σ : Session) :
    ∃ cause τ, (compose id inner).exec σ = (.error cause, τ) ∧
      (Hinders id inner σ cause ∨
        (∀ other, ¬ Hinders id inner σ other) ∧ cause = .failure σ.failures.size ∧
          (τ.failureAt σ.failures.size).cause = some inner) := by
  rcases exec_compose_cases id inner σ with ⟨cause, log, hrun, hcause⟩ | ⟨hw, output, log, hrun⟩
  · exact ⟨cause, _, hrun, Or.inl hcause⟩
  let σ' : Session :=
    { σ with
      log := log
      failures := σ.failures.push (composedFrom (σ.failureAt inner) inner output) }
  rw [hrun]
  rcases exec_finalize_cases (σ.contextAt id).engine σ.failures.size σ' with
    ⟨cause, τ, hfinal, hi⟩ | ⟨hfree, τ, hfinal, hcause⟩
  · have hinders := Hinders.finalization hw ((impedes_composedFrom output log).1 hi)
    exact ⟨cause, τ, exec_bind_of_error hfinal, Or.inl hinders⟩
  · refine ⟨_, τ, exec_bind_of_ok hfinal, Or.inr ⟨?_, rfl, ?_⟩⟩
    · obtain ⟨mode, hm, hs⟩ := hw
      rintro other (hm' | ⟨hm', hb, hs'⟩ | ⟨-, hi⟩)
      · exact nomatch hm.symm.trans hm'
      · obtain rfl := Option.some.inj (hm.symm.trans hm')
        obtain ⟨standard, hs⟩ := hs hb
        exact nomatch hs.symm.trans hs'
      · exact hfree other ((impedes_composedFrom output log).2 hi)
    · rw [hcause (by simp [σ'])]
      simp [σ', Session.failureAt, composedFrom]

end Act

end Expectation

import Expectation.Document.BasicConsole
import Expectation.Proofs.Engine.History
import Expectation.Proofs.Session.Dispatch
import Expectation.Proofs.Session.Faults

/-!
# Formats of engines

The format of an engine is the one that was set last, and before any was set the one that it was
made with. A format that is set exists; the one that an engine is made with is taken as it is, and
where it does not exist no failure can be rendered before another is set.
-/

namespace Expectation

/-- No format has the empty name. -/
theorem Format.name_ne_nil (format : Format) : format.name ≠ [] := by
  cases format <;> decide

namespace Engine

variable {settings : Settings} {given : Option Text} {chosen : Option Format} {e : Engine}

/-- The format that a value names. -/
def formatNamed? (s : Store) (value : Ref) : Option Format :=
  match s.node value with
  | .text name => Format.ofName? name
  | _ => none

/-- The engine after its format is set to a value, or left as it was where that is refused. -/
def afterFormat (e : Engine) (s : Store) (value : Ref) : Engine :=
  match e.setFormat s value with
  | .ok e' => e'
  | .error _ => e

/-- An engine is made, perhaps with a format given, and then goes through registrations, settings of
its format and clonings; the format is the one that was set last, if any was. -/
inductive Formatted (settings : Settings) (given : Option Text) : Option Format → Engine → Prop
  | made (types : ClassifierRegistry) (assertions : AssertionRegistry) :
      Formatted settings given none
        { ofTypes types settings given with assertions := assertions }
  | registered {chosen : Option Format} {e : Engine} (h : Formatted settings given chosen e)
      (call : Registration) : Formatted settings given chosen (e.attempt call)
  | asked {chosen : Option Format} {e : Engine} (h : Formatted settings given chosen e) (s : Store)
      (value : Ref) :
      Formatted settings given ((formatNamed? s value).or chosen) (e.afterFormat s value)
  | cloned {chosen : Option Format} {e : Engine} (h : Formatted settings given chosen e) :
      Formatted settings given chosen e.clone

/-- A format is set to the one that the value names; any other value but the none value is
refused. -/
theorem setFormat_eq (e : Engine) (s : Store) (value : Ref) :
    e.setFormat s value =
      match formatNamed? s value with
      | some format => .ok { e with format := format.name }
      | none =>
        if s.node value = .none then .ok e else .error (refusedFormat s value) := by
  cases hnode : s.node value
  case text name =>
    cases hformat : Format.ofName? name with
    | none => simp [setFormat, formatNamed?, hnode, hformat]
    | some format =>
      obtain rfl := (Format.ofName?_eq_some_iff name format).1 hformat
      simp [setFormat, formatNamed?, hnode, hformat]
  all_goals simp [setFormat, formatNamed?, hnode]

/-- A request to set a format changes nothing but the format, and that to the one named, if any. -/
theorem afterFormat_eq (e : Engine) (s : Store) (value : Ref) :
    e.afterFormat s value =
      { e with format := ((formatNamed? s value).map Format.name).getD e.format } := by
  rw [afterFormat, setFormat_eq]
  cases formatNamed? s value with
  | some format => rfl
  | none =>
    by_cases hnone : s.node value = .none <;> simp [hnone]

/-- A registration leaves the settings and the format. -/
theorem attempt_format (e : Engine) (call : Registration) :
    (e.attempt call).settings = e.settings ∧ (e.attempt call).format = e.format := by
  rw [attempt]
  cases hcall : e.register call with
  | error cause => exact ⟨rfl, rfl⟩
  | ok e' =>
    cases call with
    | type given fields =>
      obtain ⟨_, _, _, _, _, rfl⟩ :=
        exists_of_addType_eq_ok (register_type_eq_ok_iff.1 hcall)
      exact ⟨rfl, rfl⟩
    | assertion s arguments =>
      obtain ⟨_, -, -, heq⟩ := exists_of_addAssertion_eq_ok hcall
      rw [heq]
      exact ⟨rfl, rfl⟩

/-- The format at first has a name that is not empty. -/
theorem firstFormat_ne_nil (settings : Settings) (given : Option Text) :
    firstFormat settings given ≠ [] := by
  unfold firstFormat
  split
  · exact Format.name_ne_nil _
  · exact Format.name_ne_nil _
  · next name hne => exact fun hnil => hne (by rw [hnil])

/-- A format that is given and not empty is the one at first. -/
theorem firstFormat_some {name : Text} (h : name ≠ []) (settings : Settings) :
    firstFormat settings (some name) = name := by
  unfold firstFormat
  split
  · next heq => cases heq
  · next heq => exact absurd (Option.some.inj heq) h
  · next heq => exact (Option.some.inj heq).symm

/-- The format at first exists unless one is given that does not. -/
theorem isSome_firstFormat_iff :
    (Format.ofName? (firstFormat settings given)).isSome ↔
      ∀ name, given = some name → name ≠ [] → ∃ format : Format, name = format.name := by
  have hsome : ∀ name, (Format.ofName? name).isSome ↔ ∃ format : Format, name = format.name := by
    intro name
    simp only [Option.isSome_iff_exists, Format.ofName?_eq_some_iff]
  unfold firstFormat
  split
  · simp [Format.ofName?_name]
  · simp [Format.ofName?_name]
  · next name hne =>
    rw [hsome]
    constructor
    · rintro hformat _ ⟨⟩ -
      exact hformat
    · exact fun h => h name rfl fun hnil => hne (by rw [hnil])

/-- The format of an engine is the one that was set last, or else the one at first. -/
theorem Formatted.format_eq (h : Formatted settings given chosen e) :
    e.settings = settings ∧
      e.format = (chosen.map Format.name).getD (firstFormat settings given) := by
  induction h with
  | made types assertions => exact ⟨rfl, rfl⟩
  | registered _ call ih =>
    obtain ⟨hsettings, hformat⟩ := attempt_format _ call
    exact ⟨hsettings.trans ih.1, hformat.trans ih.2⟩
  | @asked chosen e _ s value ih =>
    rw [afterFormat_eq]
    refine ⟨ih.1, ?_⟩
    cases formatNamed? s value with
    | some format => rfl
    | none => exact ih.2
  | @cloned chosen e _ ih =>
    refine ⟨ih.1, ?_⟩
    have hne : e.format ≠ [] := by
      rw [ih.2]
      cases chosen with
      | none => exact firstFormat_ne_nil settings given
      | some format => exact format.name_ne_nil
    exact (firstFormat_some hne e.settings).trans ih.2

end Engine

namespace Act

variable {settings : Settings} {given : Option Text} {chosen : Option Format} {σ : Session}
  {engineId : EngineId}

/-- How a request to set a format ends. -/
theorem exec_setFormat (id : EngineId) (value : Ref) (σ : Session) :
    (setFormat id value).exec σ =
      match (σ.engineAt id).setFormat σ.store value with
      | .ok e => (.ok (), σ.withEngine id e)
      | .error cause => (.error cause, σ) := by
  rw [setFormat, exec_bind_of_ok (exec_store σ)]
  exact exec_changeEngine id _ σ

/-- The format of an engine is the one that was set last, or else the one that it was made with, and
so exists unless none was set and it was made with one that does not. A value that names a format
sets it, and one that names none is refused, apart from the none value, and changes nothing. A
finalization ends with the fault of a type or rendered in the format of the engine; only where that
does not exist it fails on the format. -/
theorem finalize_of_formatted (h : Engine.Formatted settings given chosen (σ.engineAt engineId)) :
    (σ.engineAt engineId).format =
      (chosen.map Format.name).getD (Engine.firstFormat settings given) ∧
    ((Format.ofName? (σ.engineAt engineId).format).isSome ↔ chosen.isSome ∨
      ∀ name, given = some name → name ≠ [] → ∃ format : Format, name = format.name) ∧
    (∀ value,
      if (Engine.formatNamed? σ.store value).isSome ∨ σ.store.node value = .none then
        ∃ e, (setFormat engineId value).exec σ = (.ok (), σ.withEngine engineId e) ∧
          Engine.Formatted settings given ((Engine.formatNamed? σ.store value).or chosen) e
      else (setFormat engineId value).exec σ =
        (.error (Engine.refusedFormat σ.store value), σ)) ∧
    ∀ id, ((finalize engineId id).exec σ).1 =
      match (σ.engineAt engineId).shownDifference σ.store (σ.failureAt id).actual
        (σ.failureAt id).expected with
      | .error cause => .error cause
      | .ok _ =>
        if (Format.ofName? (σ.engineAt engineId).format).isSome then .ok ()
        else .error (.unknownFormat (Text.quoted (σ.engineAt engineId).format)) := by
  have hformat := h.format_eq.2
  refine ⟨hformat, ?_, fun value => ?_, fun id => ?_⟩
  · rw [hformat]
    cases chosen with
    | none => simpa using Engine.isSome_firstFormat_iff
    | some format => simp [Format.ofName?_name]
  · have hasked := h.asked σ.store value
    rw [exec_setFormat, Engine.setFormat_eq]
    rw [Engine.afterFormat, Engine.setFormat_eq] at hasked
    cases hnamed : Engine.formatNamed? σ.store value with
    | some format =>
      rw [hnamed] at hasked
      simpa using ⟨_, rfl, hasked⟩
    | none =>
      rw [hnamed] at hasked
      by_cases hnone : σ.store.node value = .none
      · simp only [hnone, if_pos] at hasked ⊢
        simpa using ⟨_, rfl, hasked⟩
      · simp [hnone]
  · rw [exec_finalize_eq]
    dsimp only
    cases (σ.engineAt engineId).shownDifference σ.store (σ.failureAt id).actual
        (σ.failureAt id).expected with
    | error cause => rfl
    | ok difference => cases Format.ofName? (σ.engineAt engineId).format <;> rfl

private def pdfEngine : Engine := Engine.ofTypes .initial .default (some "pdf")

-- A failure has arisen with an engine that was made with a format that does not exist.
private def failingFor (e : Engine) : Session :=
  { Session.empty (.basic false) 1 with
    store := ⟨#[.text "html"], #[]⟩
    failures := #[⟨.empty 2, .none, .none, none, [], none⟩]
    engines := #[e] }

/-- With an engine that was made with a format that does not exist a failure cannot be finalized,
until a format is set. -/
theorem finalize_pdfEngine :
    ((finalize 0 0).exec (failingFor pdfEngine)).1 = .error (.unknownFormat (Text.quoted "pdf")) ∧
    ∃ e, (setFormat 0 (.cell 0)).exec (failingFor pdfEngine) =
        (.ok (), (failingFor pdfEngine).withEngine 0 e) ∧
      ((finalize 0 0).exec (failingFor e)).1 = .ok () := by
  have hmade : Engine.Formatted .default (some "pdf") none ((failingFor pdfEngine).engineAt 0) :=
    .made .initial .initial
  obtain ⟨-, -, hset, hfinalize⟩ := finalize_of_formatted hmade
  obtain ⟨e, hexec, he⟩ := hset (.cell 0)
  refine ⟨hfinalize 0, e, hexec, ?_⟩
  have he : Engine.Formatted .default (some "pdf") (some .html) ((failingFor e).engineAt 0) := he
  obtain ⟨hformat, -, -, hfinalize⟩ := finalize_of_formatted he
  rw [hfinalize 0, hformat]
  rfl

end Act

end Expectation

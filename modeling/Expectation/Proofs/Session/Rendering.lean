import Expectation.Document.BasicConsole
import Expectation.Proofs.Session.Faults

/-!
# Rendered failures

A failure may be finalized again and again, with other values on it and in another format each time.
Its message is always its document in the format of the engine. Its message in HTML is its document
as it was last rendered for HTML, at the width of that time, and stays when the format is another.
-/

namespace Expectation

/-- The format of the message that stands beside one in HTML: plain text. -/
def Format.beside : Format → Format
  | .html => .text
  | format => format

/-- The document that a failure shows in HTML and its width, after it is rendered in a format. -/
def Format.shownIn (format : Format) (output : Document) (width : Int)
    (shown : Option (Document × Int)) : Option (Document × Int) :=
  if format = .html then some (output, width) else shown

namespace Failure

variable (console : Console) (width : Int) (f : Failure) (difference : Option Document)
  (format : Format)

/-- A finalized failure has the message of its document. -/
theorem message_finalized :
    (f.finalized console width difference format).message =
      console.render (f.finalized console width difference format).output width format.beside := by
  cases format <;> rfl

/-- A finalized failure has the message of its document in HTML, or the one that it had. -/
theorem html_finalized :
    (f.finalized console width difference format).html =
      if format = .html then
        some (console.render (f.finalized console width difference format).output width .html)
      else f.html := by
  cases format <;> rfl

/-- To finalize a finalized failure in the same format is to change nothing. -/
theorem finalized_finalized :
    (f.finalized console width difference format).finalized console width none format =
      f.finalized console width difference format := by
  cases format <;> rfl

end Failure

namespace Session

/-- Between two finalizations of a failure anything may happen, but the failure keeps its document
and its messages, and the session its console. -/
structure Reattaches (σ : Session) (id : FailureId) (τ : Session) : Prop where
  console : τ.console = σ.console
  id_lt : id < τ.failures.size
  output : (τ.failureAt id).output = (σ.failureAt id).output
  message : (τ.failureAt id).message = (σ.failureAt id).message
  html : (τ.failureAt id).html = (σ.failureAt id).html

theorem withFailure_failureAt (σ : Session) (id : FailureId) :
    σ.withFailure id (σ.failureAt id) = σ := by
  by_cases hid : id < σ.failures.size
  · have hsame : σ.failures.setIfInBounds id σ.failures[id] = σ.failures := by
      rw [Array.setIfInBounds_def, dif_pos hid, Array.set_getElem_self]
    simp [withFailure, failureAt, hid, hsame]
  · rw [withFailure, Array.setIfInBounds_eq_of_size_le (Nat.le_of_not_lt hid)]

end Session

namespace Act

/-- A failure has come to a session through finalizations with one console, with anything in
between; the document and the width are those that were last rendered for HTML. -/
inductive Fares (console : Console) (engineId : EngineId) (id : FailureId) :
    Option (Document × Int) → Session → Prop
  | arisen {σ : Session} (hc : σ.console = console) (hid : id < σ.failures.size)
      (hh : (σ.failureAt id).html = none) : Fares console engineId id none σ
  | reattached {shown : Option (Document × Int)} {σ τ : Session}
      (h : Fares console engineId id shown σ) (hr : σ.Reattaches id τ) :
      Fares console engineId id shown τ
  | finalized {shown : Option (Document × Int)} {format : Format} {σ τ : Session}
      (h : Fares console engineId id shown σ)
      (hf : Format.ofName? (σ.engineAt engineId).format = some format)
      (hr : (finalize engineId id).exec σ = (.ok (), τ)) :
      Fares console engineId id
        (format.shownIn (τ.failureAt id).output (σ.engineAt engineId).settings.renderWidth shown) τ

variable {console : Console} {engineId : EngineId} {id : FailureId}
  {shown : Option (Document × Int)} {σ τ : Session} {format : Format}

/-- To finalize a failure again changes nothing. -/
theorem exec_finalize_again {f : Failure} {difference : Option Document}
    (hf : Format.ofName? (σ.engineAt engineId).format = some format)
    (hfinalized : σ.failureAt id = f.finalized σ.console
      (σ.engineAt engineId).settings.renderWidth difference format) :
    (finalize engineId id).exec σ = (.ok (), σ) := by
  have hnone := Engine.shownDifference_none (σ.engineAt engineId) σ.store
  have hrecords : (σ.engineAt engineId).differenceRecords σ.store .none .none = [] := rfl
  rw [exec_finalize_eq]
  simp only [hfinalized, Failure.actual_finalized, Failure.expected_finalized, hnone, hrecords, hf,
    List.append_nil, Failure.finalized_finalized]
  rw [← hfinalized]
  exact congrArg _ (σ.withFailure_failureAt id)

/-- What a failure shows in HTML is the document that was last rendered for HTML. -/
theorem Fares.html_eq (h : Fares console engineId id shown σ) :
    σ.console = console ∧ id < σ.failures.size ∧
      (σ.failureAt id).html = shown.map fun last => console.render last.1 last.2 .html := by
  induction h with
  | arisen hc hid hh => exact ⟨hc, hid, hh⟩
  | reattached _ hr ih => exact ⟨hr.console.trans ih.1, hr.id_lt, hr.html.trans ih.2.2⟩
  | @finalized shown format σ τ _ hf hr ih =>
    obtain ⟨difference, format', log, -, hf', rfl⟩ := finalize_eq_ok hr
    obtain rfl : format = format' := Option.some.inj (hf.symm.trans hf')
    have hself := Session.failureAt_withFailure_self { σ with log := log } id
      ((σ.failureAt id).finalized σ.console (σ.engineAt engineId).settings.renderWidth difference
        format) ih.2.1
    refine ⟨ih.1, by simpa using ih.2.1, ?_⟩
    rw [hself, Failure.html_finalized, Format.shownIn]
    split
    · rw [ih.1]
      rfl
    · exact ih.2.2

/-- A failure that is finalized, after any finalizations in any formats, stays as it is where a type
faults on its values. Otherwise it loses them and has its document with their difference; its
message is the document in the format of the engine, or as plain text beside a message in HTML; its
message in HTML is the document that was last rendered for HTML, if there is one; and to finalize it
again, in any session in which it, the console, the format and the width are the same, changes
nothing. -/
theorem rendered_of_fares (h : Fares console engineId id shown σ)
    (hf : Format.ofName? (σ.engineAt engineId).format = some format) :
    let width : Int := (σ.engineAt engineId).settings.renderWidth
    (∃ cause τ, (finalize engineId id).exec σ = (.error cause, τ) ∧
      (σ.engineAt engineId).shownDifference σ.store (σ.failureAt id).actual
        (σ.failureAt id).expected = .error cause ∧ τ.failures = σ.failures) ∨
    ∃ difference τ, (finalize engineId id).exec σ = (.ok (), τ) ∧
      (σ.engineAt engineId).shownDifference σ.store (σ.failureAt id).actual
        (σ.failureAt id).expected = .ok difference ∧
      (τ.failureAt id).output = (σ.failureAt id).output.under difference ∧
      (τ.failureAt id).actual = .none ∧ (τ.failureAt id).expected = .none ∧
      (τ.failureAt id).message =
        console.render (τ.failureAt id).output width format.beside ∧
      (τ.failureAt id).html = (format.shownIn (τ.failureAt id).output width shown).map
        (fun last => console.render last.1 last.2 .html) ∧
      Fares console engineId id (format.shownIn (τ.failureAt id).output width shown) τ ∧
      ∀ υ, υ.failureAt id = τ.failureAt id → υ.console = console →
        Format.ofName? (υ.engineAt engineId).format = some format →
          (υ.engineAt engineId).settings.renderWidth = width →
            (finalize engineId id).exec υ = (.ok (), υ) := by
  intro width
  rcases hrun : (finalize engineId id).exec σ with ⟨cause | _, τ⟩
  · have hended := hrun
    rw [exec_finalize_eq] at hended
    simp only [hf] at hended
    split at hended
    · next hfault =>
      cases hended
      exact Or.inl ⟨_, _, rfl, hfault, rfl⟩
    · cases hended
  · have hfares := h.finalized hf hrun
    have hhtml := hfares.html_eq.2.2
    obtain ⟨hconsole, hid, -⟩ := h.html_eq
    obtain ⟨difference, format', log, hd, hf', rfl⟩ := finalize_eq_ok hrun
    obtain rfl : format = format' := Option.some.inj (hf.symm.trans hf')
    have hself := Session.failureAt_withFailure_self { σ with log := log } id
      ((σ.failureAt id).finalized σ.console width difference format) hid
    refine Or.inr ⟨difference, _, rfl, hd, ?_, ?_, ?_, ?_, hhtml, hfares, ?_⟩
    · rw [hself, Failure.output_finalized]
    · rw [hself, Failure.actual_finalized]
    · rw [hself, Failure.expected_finalized]
    · rw [hself, Failure.message_finalized, hconsole]
    · intro υ hsame hυconsole hυ hυwidth
      have hagain : υ.failureAt id = (σ.failureAt id).finalized υ.console
          (υ.engineAt engineId).settings.renderWidth difference format := by
        rw [hsame, hυconsole, hυwidth, ← hconsole]
        exact hself
      exact exec_finalize_again hυ hagain

private def shortDocument : Document := ⟨[⟨['m'], none⟩], 2, 0⟩

private def engineIn (format : Format) : Engine :=
  { Engine.create .default with format := format.name }

-- A failure that has arisen, in a session whose engine renders HTML.
private def inHtml : Session :=
  { Session.empty (.basic false) 1 with
    failures := #[⟨shortDocument, .none, .none, none, ['m'], none⟩]
    engines := #[engineIn .html] }

-- The failure is finalized, and the format is plain text from then on.
private def inText : Session :=
  { ((finalize 0 0).exec inHtml).2 with engines := #[engineIn .text] }

/-- A failure that was finalized for HTML and is finalized as plain text still has its message in
HTML. -/
theorem rendered_inText :
    ∃ τ, (finalize 0 0).exec inText = (.ok (), τ) ∧ (τ.failureAt 0).message = ['m'] ∧
      (τ.failureAt 0).html = some ((Console.basic false).render shortDocument 100 .html) := by
  have harisen : Fares (.basic false) 0 0 none inHtml := .arisen rfl (by decide) rfl
  have hhtml : Format.ofName? (inHtml.engineAt 0).format = some .html := rfl
  have htext : Format.ofName? (inText.engineAt 0).format = some .text := rfl
  have hfares : Fares (.basic false) 0 0 (some (shortDocument, 100)) inText :=
    .reattached (harisen.finalized (τ := ((finalize 0 0).exec inHtml).2) hhtml rfl)
      ⟨rfl, by decide, rfl, rfl, rfl⟩
  have hrun : ((finalize 0 0).exec inText).1 = .ok () := rfl
  rcases rendered_of_fares hfares htext with
    ⟨cause, τ, hended, -⟩ | ⟨difference, τ, hended, hd, ho, -, -, hm, hh, -⟩
  · rw [hended] at hrun
    cases hrun
  · have hnone : (inText.engineAt 0).shownDifference inText.store (inText.failureAt 0).actual
        (inText.failureAt 0).expected = .ok none := rfl
    obtain rfl : none = difference := Except.ok.inj (hnone.symm.trans hd)
    refine ⟨τ, hended, ?_, hh⟩
    rw [hm, ho]
    rfl

end Act

end Expectation

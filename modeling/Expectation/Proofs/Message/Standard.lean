import Expectation.Message.Standard
import Expectation.Proofs.Trace

/-!
# Indentation of standard messages

A standard message has the indentation width of its engine and ends without indentation, whatever
its subject and arguments are.
-/

namespace Expectation

/-- Two documents that write further lines alike. -/
def Document.SameIndentation (d d' : Document) : Prop :=
  d'.indentWidth = d.indentWidth ∧ d'.level = d.level

namespace Engine

variable (e : Engine) (s : Store)

private theorem sameIndentation_writeMore (output : Document) (afterDocument : Bool)
    (arguments : List Ref) {d : Document}
    (h : (e.writeMore s output afterDocument arguments).outcome = .ok d) :
    output.SameIndentation d := by
  induction arguments generalizing output afterDocument with
  | nil =>
    cases h
    exact ⟨rfl, rfl⟩
  | cons argument arguments ih =>
    rw [writeMore] at h
    split at h
    · have hd := ih _ _ h
      exact hd
    · obtain ⟨shown, _, h⟩ := Traced.outcome_bind_eq_ok.1 h
      have hd := ih _ _ h
      cases afterDocument <;> exact hd

/-- The first argument is written as one that comes after a document: without a comma. -/
theorem writeArguments_eq_writeMore (output : Document) (arguments : List Ref) :
    e.writeArguments s output arguments = e.writeMore s output true arguments := by
  cases arguments with
  | nil => rfl
  | cons argument arguments =>
    rw [writeArguments, writeMore]
    rfl

private theorem sameIndentation_writeSubject (output subject : Document) :
    output.SameIndentation (writeSubject output subject) := by
  unfold writeSubject
  split
  · unfold Document.block
    split <;> exact ⟨rfl, rfl⟩
  · exact ⟨rfl, rfl⟩

/-- A standard message goes on like an empty document of its engine. -/
theorem sameIndentation_standardMessage (subject : Ref) (name : Text) (arguments : List Ref)
    {d : Document} (h : (e.standardMessage s subject name arguments).outcome = .ok d) :
    e.newDocument.SameIndentation d := by
  obtain ⟨shown, _, h⟩ := Traced.outcome_bind_eq_ok.1 h
  rw [writeArguments_eq_writeMore] at h
  have ha := sameIndentation_writeMore e s _ _ _ h
  have hs := sameIndentation_writeSubject (e.newDocument.error "expected") shown
  exact ⟨ha.1.trans hs.1, ha.2.trans hs.2⟩

end Engine

end Expectation

import Expectation.Proofs.Session.Run

/-!
# Causes of failures

A failure that was composed has the failure it was composed from as its cause, which is older. So
the causes of a failure end, and only what happens to older failures can change them.
-/

namespace Expectation

namespace Session

/-- A failure has the first of some documents, and its causes, which are older, the others. -/
inductive Traces (σ : Session) : FailureId → Document → List Document → Prop
  | nil {id : FailureId} (hid : id < σ.failures.size) (hc : (σ.failureAt id).cause = none) :
      Traces σ id (σ.failureAt id).output []
  | cons {id inner : FailureId} {document : Document} {documents : List Document}
      (hid : id < σ.failures.size) (hc : (σ.failureAt id).cause = some inner) (hlt : inner < id)
      (h : Traces σ inner document documents) :
      Traces σ id (σ.failureAt id).output (document :: documents)

/-- Up to one failure, all failures have kept their documents and causes. -/
def Keeps (σ : Session) (id : FailureId) (τ : Session) : Prop :=
  ∀ other ≤ id, (τ.failureAt other).output = (σ.failureAt other).output ∧
    (τ.failureAt other).cause = (σ.failureAt other).cause

namespace Traces

variable {σ τ : Session} {id : FailureId} {document : Document} {documents : List Document}

theorem id_lt (h : σ.Traces id document documents) : id < σ.failures.size := by
  cases h with
  | nil hid => exact hid
  | cons hid => exact hid

theorem output_eq (h : σ.Traces id document documents) : (σ.failureAt id).output = document := by
  cases h with
  | nil => rfl
  | cons => rfl

/-- What happens to younger failures does not matter. -/
theorem of_keeps (h : σ.Traces id document documents) (hk : σ.Keeps id τ)
    (hs : σ.failures.size ≤ τ.failures.size) : τ.Traces id document documents := by
  induction h with
  | nil hid hc =>
    obtain ⟨ho, hc'⟩ := hk _ (Nat.le_refl _)
    rw [← ho]
    exact .nil (Nat.lt_of_lt_of_le hid hs) (hc'.trans hc)
  | cons hid hc hlt _ ih =>
    obtain ⟨ho, hc'⟩ := hk _ (Nat.le_refl _)
    rw [← ho]
    refine .cons (Nat.lt_of_lt_of_le hid hs) (hc'.trans hc) hlt (ih fun other hother => ?_)
    exact hk other (Nat.le_trans hother (Nat.le_of_lt hlt))

/-- There are no more causes than older failures. -/
theorem length_le (h : σ.Traces id document documents) : documents.length ≤ id := by
  induction h with
  | nil => exact Nat.zero_le _
  | cons _ _ hlt _ ih => exact Nat.succ_le_of_lt (Nat.lt_of_le_of_lt ih hlt)

private theorem outputs_causesWithin (h : σ.Traces id document documents) (count : Nat)
    (hcount : documents.length < count) :
    (σ.causesWithin count (some id)).map Failure.output = document :: documents := by
  induction h generalizing count with
  | @nil id hid hc =>
    obtain ⟨count, rfl⟩ := Nat.exists_eq_succ_of_ne_zero (Nat.ne_of_gt hcount)
    have hf : σ.failures[id]? = some (σ.failureAt id) := by simp [failureAt, hid]
    rw [causesWithin, hf]
    simp only [hc, List.map_cons]
    cases count <;> rfl
  | @cons id _ _ _ hid hc _ _ ih =>
    obtain ⟨count, rfl⟩ := Nat.exists_eq_succ_of_ne_zero (Nat.ne_of_gt (Nat.zero_lt_of_lt hcount))
    have hf : σ.failures[id]? = some (σ.failureAt id) := by simp [failureAt, hid]
    rw [causesWithin, hf]
    simp only [hc, List.map_cons]
    rw [ih count (Nat.lt_of_succ_lt_succ hcount)]

/-- The causes of a failure have the documents along its trace, also where the failure has got
another document since. -/
theorem outputs_causes (h : σ.Traces id document documents)
    (hc : (τ.failureAt id).cause = (σ.failureAt id).cause)
    (ho : ∀ other < id, τ.failureAt other = σ.failureAt other)
    (hs : τ.failures.size = σ.failures.size) :
    (τ.causes (τ.failureAt id)).map Failure.output = documents := by
  rw [causes, hc]
  cases h with
  | nil hid hc =>
    rw [hc]
    cases τ.failures.size <;> rfl
  | @cons id inner document documents hid hc hlt h =>
    have hτ : τ.Traces inner document documents := by
      refine h.of_keeps (fun other hother => ?_) (Nat.le_of_eq hs.symm)
      rw [ho other (Nat.lt_of_le_of_lt hother hlt)]
      exact ⟨rfl, rfl⟩
    rw [hc]
    refine outputs_causesWithin hτ _ ?_
    exact Nat.lt_of_le_of_lt h.length_le (Nat.lt_trans hlt (by rw [hs]; exact hid))

end Traces

end Session

end Expectation

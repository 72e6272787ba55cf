import Expectation.Trace

/-!
# Outcomes of traced computations

How a traced sequence ends depends on how its parts end, and not on the records.
-/

namespace Expectation.Traced

variable {α β : Type}

/-- A sequence ends as what follows its first part, or with the fault of that. -/
theorem outcome_bind (x : Traced α) (f : α → Traced β) :
    (x >>= f).outcome = x.outcome.bind fun answer => (f answer).outcome := by
  obtain ⟨records, outcome⟩ := x
  cases outcome <;> rfl

/-- A sequence answers if its parts do. -/
theorem outcome_bind_eq_ok {x : Traced α} {f : α → Traced β} {b : β} :
    (x >>= f).outcome = .ok b ↔ ∃ a, x.outcome = .ok a ∧ (f a).outcome = .ok b := by
  rw [outcome_bind]
  cases x.outcome <;> simp [Except.bind]

/-- What follows a part of a sequence matters for the answers of that part only. -/
theorem bind_congr_of_ok {x : Traced α} {f g : α → Traced β}
    (h : ∀ a, x.outcome = .ok a → f a = g a) : x >>= f = x >>= g := by
  obtain ⟨records, cause | a⟩ := x
  · rfl
  · show (⟨records ++ (f a).records, (f a).outcome⟩ : Traced β) =
      ⟨records ++ (g a).records, (g a).outcome⟩
    rw [h a rfl]

end Expectation.Traced

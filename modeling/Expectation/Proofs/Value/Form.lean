import Expectation.Value.Printer

/-!
# Forms of values

All that can keep a value from having a form is an integer in it with too many digits or that its
containers nest too deep; containers that hold one another do not.
-/

namespace Expectation

/-- A fault that ends two steps is that of the first or that of the second. -/
theorem eq_error_of_bind_eq_error {α β ε : Type} {x : Except ε α} {f : α → Except ε β} {cause : ε}
    (h : x >>= f = .error cause) :
    x = .error cause ∨ ∃ answer, x = .ok answer ∧ f answer = .error cause := by
  cases x with
  | error raised =>
    cases h
    exact .inl rfl
  | ok answer => exact .inr ⟨answer, rfl, h⟩

/-- A list of answers ends with a fault only where one of them does. -/
theorem exists_of_mapM_eq_error {α β ε : Type} {f : α → Except ε β} {items : List α} {cause : ε}
    (h : items.mapM f = .error cause) : ∃ item ∈ items, f item = .error cause := by
  induction items with
  | nil => cases h
  | cons item items ih =>
    rw [List.mapM_cons] at h
    rcases eq_error_of_bind_eq_error h with hitem | ⟨answer, -, hrest⟩
    · exact ⟨item, List.mem_cons_self, hitem⟩
    · rcases eq_error_of_bind_eq_error hrest with hitems | ⟨answers, -, hanswers⟩
      · obtain ⟨other, hmem, hother⟩ := ih hitems
        exact ⟨other, List.mem_cons_of_mem _ hmem, hother⟩
      · cases hanswers

/-- An answer that is changed ends with a fault only where there is no answer. -/
theorem eq_error_of_map_eq_error {α β ε : Type} {x : Except ε α} {f : α → β} {cause : ε}
    (h : x.map f = .error cause) : x = .error cause := by
  cases x <;> cases h
  rfl

/-- An integer has a numeral unless it has too many digits. -/
theorem eq_of_numeral_eq_error {value : Int} {cause : Fault} (h : numeral value = .error cause) :
    cause = .oversizedNumeral none := by
  rw [numeral] at h
  split at h
  · cases h
    rfl
  · cases h

/-- The fault of a value without a form: an integer in it has too many digits, or it nests too
deep. -/
def Fault.OfForm (cause : Fault) : Prop := cause = .oversizedNumeral none ∨ cause = .tooNested

namespace Store

variable {s : Store} {cause : Fault}

private theorem ofForm_of_shownWithin_eq_error {depth : Nat} {around : List Ref} {r : Ref}
    (h : s.shownWithin depth around r = .error cause) : cause.OfForm := by
  induction depth generalizing around r cause with
  | zero =>
    cases h
    exact .inr rfl
  | succ depth ih =>
    rw [shownWithin] at h
    cases hn : s.node r <;> simp only [hn] at h
    case integer => exact .inl (eq_of_numeral_eq_error h)
    case list items =>
      split at h
      · cases h
      · rcases eq_error_of_bind_eq_error h with hitems | ⟨forms, -, hforms⟩
        · obtain ⟨x, -, hcause⟩ := exists_of_mapM_eq_error hitems
          exact ih hcause
        · cases hforms
    case tuple items =>
      split at h
      · cases h
      · rcases eq_error_of_bind_eq_error h with hitems | ⟨forms, -, hforms⟩
        · obtain ⟨x, -, hcause⟩ := exists_of_mapM_eq_error hitems
          exact ih hcause
        · split at hforms <;> cases hforms
    case dict entries =>
      split at h
      · cases h
      · rcases eq_error_of_bind_eq_error h with hentries | ⟨forms, -, hforms⟩
        · obtain ⟨entry, -, hcause⟩ := exists_of_mapM_eq_error hentries
          rcases eq_error_of_bind_eq_error hcause with hkey | ⟨key, -, hrest⟩
          · exact ih hkey
          · rcases eq_error_of_bind_eq_error hrest with hvalue | ⟨value, -, hwritten⟩
            · exact ih hvalue
            · cases hwritten
        · cases hforms
    case context id =>
      have hflags := eq_error_of_map_eq_error h
      split at hflags
      · cases hflags
      · exact ih hflags
    all_goals cases h

/-- A value that has no form is or holds an integer with too many digits, or nests too deep. -/
theorem ofForm_of_shown_eq_error {r : Ref} (h : s.shown r = .error cause) : cause.OfForm :=
  ofForm_of_shownWithin_eq_error h

end Store

end Expectation

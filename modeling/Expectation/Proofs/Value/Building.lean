import Expectation.Value.Template

/-!
# Building values

What is built from a template is placed in cells; no context begins or changes.
-/

namespace Expectation

/-- Two steps that end with an answer both do so. -/
theorem exists_of_bind_eq_ok {α β ε : Type} {x : Except ε α} {f : α → Except ε β} {answer : β}
    (h : x >>= f = .ok answer) : ∃ first, x = .ok first ∧ f first = .ok answer := by
  cases x with
  | ok first => exact ⟨first, rfl, h⟩
  | error cause => cases h

namespace Template

variable {search : ClassifierSearch}

/-- To place an object begins no context. -/
theorem contexts_of_put {s s' : Store} {node : Node} {value : Ref}
    (h : s.put node = (value, s')) : s'.contexts = s.contexts := by
  have hput := s.contexts_put node
  rwa [h] at hput

mutual

/-- To build a value begins no context. -/
theorem contexts_build {s s' : Store} {value : Ref} (template : Template)
    (h : template.build search s = .ok (value, s')) : s'.contexts = s.contexts := by
  cases template with
  | known _ =>
    cases h
    rfl
  | fresh node => exact contexts_of_put (Except.ok.inj h)
  | list items =>
    obtain ⟨⟨refs, t⟩, hitems, hput⟩ := exists_of_bind_eq_ok h
    rw [contexts_of_put (Except.ok.inj hput), contexts_buildAll items hitems]
  | tuple items =>
    obtain ⟨⟨refs, t⟩, hitems, hput⟩ := exists_of_bind_eq_ok h
    rw [contexts_of_put (Except.ok.inj hput), contexts_buildAll items hitems]
  | dict entries =>
    obtain ⟨⟨pairs, t⟩, hentries, hput⟩ := exists_of_bind_eq_ok h
    rw [contexts_of_put (Except.ok.inj hput), contexts_buildEntries entries hentries]
  | classifier engine name =>
    rw [build] at h
    cases hfound : search engine name <;> rw [hfound] at h <;> cases h
    rfl
  | faulty _ => cases h

/-- To build values begins no context. -/
theorem contexts_buildAll {s s' : Store} {values : List Ref} (items : List Template)
    (h : buildAll search s items = .ok (values, s')) : s'.contexts = s.contexts := by
  cases items with
  | nil =>
    cases h
    rfl
  | cons item items =>
    obtain ⟨⟨ref, t⟩, hitem, hrest⟩ := exists_of_bind_eq_ok h
    obtain ⟨⟨refs, u⟩, hitems, hall⟩ := exists_of_bind_eq_ok hrest
    cases hall
    rw [contexts_buildAll items hitems, contexts_build item hitem]

/-- To build the entries of a dictionary begins no context. -/
theorem contexts_buildEntries {s s' : Store} {done built : List (Ref × Ref)}
    (entries : List (Template × Template))
    (h : buildEntries search s done entries = .ok (built, s')) : s'.contexts = s.contexts := by
  cases entries with
  | nil =>
    cases h
    rfl
  | cons entry entries =>
    obtain ⟨key, value⟩ := entry
    obtain ⟨⟨keyRef, t⟩, hkey, hrest⟩ := exists_of_bind_eq_ok h
    obtain ⟨⟨valueRef, u⟩, hvalue, hadd⟩ := exists_of_bind_eq_ok hrest
    dsimp only at hadd
    split at hadd
    · rw [contexts_buildEntries entries hadd, contexts_build value hvalue, contexts_build key hkey]
    · cases hadd

end

end Template

end Expectation

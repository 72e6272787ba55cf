import Expectation.Proofs.Engine.Evolution
import Expectation.Proofs.Value.Form

/-!
# Refused assertions

A call that registers an assertion is refused for its arguments, for a type, for the handler, for a
pattern or for a name that is taken. Any other call succeeds, if the registries of the engine are in
step, and gives each type that it names a rule for each name among the expansions of its patterns.
-/

namespace Expectation.Engine

/-- The name that a value gives for a type, if it is a text or a type. -/
def typeName? (s : Store) (value : Ref) : Option Text :=
  match s.node value with
  | .classifier mark => some mark.name
  | .text name => some name
  | _ => none

/-- The first reference to a type in the arguments of a call that refers to none is neither a text
nor a type, and it has no form for some reason, so that it cannot be told which it is. -/
inductive Unreported (e : Engine) (s : Store) (arguments : List Ref) (cause : Fault) : Prop
  | intro {types patterns handler value : Ref} {before after : List Ref}
      (harguments : arguments = [types, patterns, handler])
      (hitems : itemsOf s types = before ++ value :: after)
      (hbefore : ∀ other ∈ before, ∃ name, typeName? s other = some name ∧
        name ∈ e.classifiers.newestFirst.map Classifier.name)
      (hvalue : typeName? s value = none) (hform : s.shown value = .error cause)

variable {e e' : Engine} {s : Store} {arguments : List Ref}

/-- What keeps a reference to a type from being told is that it has no form. -/
theorem Unreported.ofForm {cause : Fault} (h : e.Unreported s arguments cause) : cause.OfForm := by
  obtain ⟨-, -, -, -, hform⟩ := h
  exact Store.ofForm_of_shown_eq_error hform

end Expectation.Engine

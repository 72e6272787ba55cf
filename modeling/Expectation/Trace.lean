import Expectation.Fault
import Expectation.Value.Printer

/-!
# Traced answers

A handler leaves records for an observer, also where it stands in for a behaviour of a type. A
traced answer is how a computation ends, with the records that were left on the way, in order. A
fault ends a computation, and the records before it stay.
-/

namespace Expectation

/-- A record that a handler leaves for an observer. -/
inductive LogEntry where
  | values (reports : List Report)
  | deferred (name : Report) (arguments : Text) (form : Option Text)
  deriving Repr, DecidableEq

/-- How a computation ends, and the records that it leaves. -/
structure Traced (α : Type) where
  records : List LogEntry
  outcome : Except Fault α

namespace Traced

variable {α β : Type}

/-- An answer without records, which may be a fault. -/
def ofExcept (outcome : Except Fault α) : Traced α := ⟨[], outcome⟩

/-- An answer without records. -/
def done (answer : α) : Traced α := ofExcept (.ok answer)

/-- A fault without records. -/
def fault (cause : Fault) : Traced α := ofExcept (.error cause)

/-- The answer that leaves some records. -/
def record (entries : List LogEntry) : Traced Unit := ⟨entries, .ok ()⟩

/-- Go on from an answer; a fault ends the computation. -/
def bind (x : Traced α) (f : α → Traced β) : Traced β :=
  match x.outcome with
  | .ok answer => ⟨x.records ++ (f answer).records, (f answer).outcome⟩
  | .error cause => ⟨x.records, .error cause⟩

instance : Monad Traced where
  pure := done
  bind := bind

@[simp] theorem done_bind (a : α) (f : α → Traced β) : (pure a : Traced α) >>= f = f a := by
  simp [Bind.bind, bind, Pure.pure, done, ofExcept]

instance : LawfulMonad Traced := LawfulMonad.mk' Traced
  (by
    rintro α ⟨records, outcome⟩
    cases outcome <;> simp [Functor.map, bind, done, ofExcept])
  (by intro α β x f; exact done_bind x f)
  (by
    rintro α β γ ⟨records, outcome⟩ f g
    cases outcome with
    | ok answer => cases h : (f answer).outcome <;> simp [Bind.bind, bind, h]
    | error cause => simp [Bind.bind, bind])

end Traced

end Expectation

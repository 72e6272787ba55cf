/-!
# Identifiers

What is made in a session is numbered in the order in which it is made.
-/

namespace Expectation

/-- Identifies an engine of a session. -/
abbrev EngineId := Nat

/-- Identifies the context of an invocation. -/
abbrev ContextId := Nat

/-- Identifies a failure of a session. -/
abbrev FailureId := Nat

/-- Identifies what can be registered as a handler: one that is given as a function, or a context,
which can be called like one. -/
inductive HandlerId where
  | given (index : Nat)
  | context (id : ContextId)
  deriving Repr, DecidableEq

/-- A number identifies the handler that is given as a function. -/
instance (index : Nat) : OfNat HandlerId index := ⟨.given index⟩

end Expectation

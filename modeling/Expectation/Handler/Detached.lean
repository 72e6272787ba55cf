import Expectation.Handler.Program

/-!
# Handlers without a session

A handler may stand in for a behaviour of a type. What it is called with takes the places of its
context, its subject and its arguments, and nothing that it does reaches a session: it can look at
values, build new ones, keep its memory and leave records, while whatever it asks of the value in
the place of the context ends it with a fault, as the value has no such part. A context that comes
into its hands cannot be used.
-/

namespace Expectation

namespace Program

/-- Outside of a session no type is registered. -/
def noClassifiers : ClassifierSearch := fun _ name => .error (.configuration (.noSuchType name))

/-- What a program without a session works on. -/
structure Surroundings where
  store : Store
  memory : Memory

/-- Perform a command without a session: the answer, the record that is left, and what there is to
work on afterwards. -/
def performDetached (around : Surroundings) :
    (command : Command) → Except Fault command.Answer × List LogEntry × Surroundings
  | .look => (.ok around.store, [], around)
  | .build template =>
    match template.build noClassifiers around.store with
    | .ok (value, store) => (.ok value, [], { around with store := store })
    | .error cause => (.error cause, [], around)
  | .log entry => (.ok (), [entry], around)
  | .failureOf _ | .attach .. => (.error .noPart, [], around)
  | .through _ .memory => (.ok around.memory, [], around)
  | .through _ (.remember memory) => (.ok (), [], { around with memory := memory })
  | .through (.context _) _ => (.error .unsupported, [], around)
  | .through value command => (command.astray around.store value, [], around)

/-- Run a program without a session. -/
def runDetached (around : Surroundings) : Program → Traced Unit
  | done _ => pure ()
  | raise cause => .fault cause
  | perform command next => do
    let (result, entries, around) := performDetached around command
    Traced.record entries
    (next result).runDetached around
  | failWriting _ _ _ _ _ next => (next (.error .noPart)).runDetached around

end Program

/-- Call a handler with a value in the place of its context. -/
def Handler.callDetached (handler : Handler) (s : Store) (stand subject : Ref)
    (arguments : List Ref) : Traced Unit :=
  (handler stand subject arguments).runDetached ⟨s, .initial⟩

end Expectation

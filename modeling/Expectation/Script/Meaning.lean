import Expectation.Script.Syntax
import Expectation.Value.Collection
import Expectation.Session.Requests

/-!
# The meaning of scripts

A script means a program. Each part is given what follows it when it ends and what follows it when
it raises a fault.
-/

namespace Expectation.Script

/-- What the handler of a script was given. -/
structure Environment where
  context : Ref
  subject : Ref
  arguments : List Ref
  deriving Repr, DecidableEq

/-- The argument at a position, counted from the end if it is negative, or the none value. -/
def Environment.argument (env : Environment) (position : Int) : Ref :=
  let index := if position < 0 then position + env.arguments.length else position
  if index < 0 then .none else env.arguments[index.toNat]?.getD .none

/-- A program to be completed by what follows: an answer, or a fault. -/
abbrev Task (α : Type) := (α → Program) → (Fault → Program) → Program

namespace Task

/-- A task that answers at once. -/
def done {α : Type} (answer : α) : Task α := fun ok _ => ok answer

/-- A task and another that goes on from its answer. -/
def bind {α β : Type} (task : Task α) (next : α → Task β) : Task β := fun ok err =>
  task (fun answer => next answer ok err) err

instance : Monad Task where
  pure := done
  bind := bind

/-- A task that ends with a fault. -/
def raise {α : Type} (cause : Fault) : Task α := fun _ err => err cause

/-- The task of a command. -/
def command (c : Command) : Task c.Answer := fun ok err =>
  .perform c fun
    | .ok answer => ok answer
    | .error cause => err cause

/-- The task of a command that goes through a context. -/
def through (context : Ref) (c : ContextCommand) : Task c.Answer := command (.through context c)

/-- An answer that may be a fault. -/
def ofExcept {α : Type} : Except Fault α → Task α
  | .ok answer => done answer
  | .error cause => raise cause

/-- Place a new object. -/
def put (node : Node) : Task Ref := command (.build (.fresh node))

/-- Place a new text. -/
def text (t : Text) : Task Ref := put (.text t)

/-- Place a new document, if there is one. -/
def document : Option Document → Task Ref
  | some d => put (.document d)
  | none => done .none

/-- Remember the element that is visited. -/
def setItem (context element : Ref) : Task Unit := do
  let item ← command (.build (.ofElement element))
  through context (.remember { (← through context .memory) with item := item })

/-- Remember the failure that was caught last. -/
def setCaught (context : Ref) (id : FailureId) : Task Unit := do
  through context (.remember { (← through context .memory) with caught := some id })

/-- The failure that was caught last. -/
def caught (context : Ref) : Task (Option FailureId) := do
  pure (← through context .memory).caught

end Task

/-- A part of the context as a value. -/
def ContextField.value (context : Ref) : ContextField → Task Ref
  | name => do Task.text (← Task.through context .state).name
  | typeName => do Task.text (← Task.through context .state).typeName
  | flags => do pure (← Task.through context .state).flags
  | arguments => do pure (← Task.through context .state).arguments
  | nesting => do Task.put (.integer (← Task.through context .state).nesting)
  | errorMode => do pure (← Task.through context .state).errorMode
  | subject => do pure (← Task.through context .state).subject
  | shown => do Task.text (← Task.ofExcept ((← Task.command .look).shown context))
  | newDocument => do Task.put (.document (← Task.through context .newDocument))
  | format => do Task.text (← Task.through context .format)

/-- A flag of the context, or the none value. -/
def flagValue (context : Ref) (name : Text) : Task Ref := do
  let c ← Task.through context .state
  let s ← Task.command .look
  match s.node c.flags with
  | .dict entries => pure ((s.lookupText? name entries).getD .none)
  | _ => pure .none

namespace Expression

/-- The value of an expression. -/
def eval (env : Environment) : Expression → Task Ref
  | literal template => Task.command (.build template)
  | subject => pure env.subject
  | argument position => pure (env.argument position)
  | item => do pure (← Task.through env.context .memory).item
  | flag name => flagValue env.context name
  | negation e => do
    let value ← e.eval env
    pure (.bool (!(← Task.command .look).truth value))
  | truth e => do
    let value ← e.eval env
    pure (.bool ((← Task.command .look).truth value))
  | sameTruth a b => do
    let x ← a.eval env
    let y ← b.eval env
    let s ← Task.command .look
    pure (.bool (s.truth x == s.truth y))
  | length e => do
    let value ← e.eval env
    Task.put (.integer (← Task.ofExcept ((← Task.command .look).length value)))
  | exceeds a b => do
    let x ← a.eval env
    let y ← b.eval env
    pure (.bool (← Task.ofExcept ((← Task.command .look).exceeds x y)))
  | isElement part whole => do
    let x ← part.eval env
    let y ← whole.eval env
    pure (.bool (← Task.ofExcept ((← Task.command .look).holds y x)))
  | equal a b => do
    let x ← a.eval env
    let y ← b.eval env
    pure (.bool (← Task.through env.context (.equal x y)))
  | inspect e => do
    let value ← e.eval env
    Task.document (← Task.through env.context (.inspect value none))
  | inspectTo e depth => do
    let value ← e.eval env
    let levels ← depth.eval env
    let s ← Task.command .look
    Task.document (← Task.through env.context (.inspect value (Depth.ofValue s levels)))
  | difference actual expected => do
    let x ← actual.eval env
    let y ← expected.eval env
    match ← Task.through env.context (.diff x y) with
    | some document => Task.put (.difference document)
    | none => pure .none
  | standardMessage => do Task.put (.document (← Task.through env.context .standardMessage))
  | unmarked name => do Task.text (← Task.through env.context (.unmark name))
  | failureMessage => do
    match ← Task.caught env.context with
    | some id => Task.text (← Task.command (.failureOf id)).message
    | none => pure .none
  | context field => field.value env.context

/-- The values of expressions, in order. -/
def evalAll (env : Environment) : List Expression → Task (List Ref)
  | [] => pure []
  | e :: es => do
    let value ← e.eval env
    let values ← evalAll env es
    pure (value :: values)

/-- The value of an expression that may be left out, or the none value. -/
def evalOption (env : Environment) : Option Expression → Task Ref
  | some e => e.eval env
  | none => pure .none

end Expression

/-- Bind an expectation through the context, record it, and apply it to a subject if one is
given. -/
def bindTask (env : Environment) (target : Option Expression) (name : Template)
    (arguments : List Expression) : Task Unit := do
  let marked ← Task.command (.build name)
  let values ← Expression.evalAll env arguments
  match (← Task.command .look).text? marked with
  | none => Task.raise .unsupported
  | some text => do
    let unmarked ← Task.text (← Task.through env.context (.unmark text))
    let tuple ← Task.put (.tuple values)
    let s ← Task.command .look
    let report ← Task.ofExcept (s.report unmarked)
    let arguments ← Task.ofExcept (s.shown tuple)
    Task.command (.log (.deferred report arguments none))
    match target with
    | some e => do
      let value ← e.eval env
      Task.through env.context (.call .engine value unmarked values)
    | none => pure ()

/-- Steps that neither branch nor write messages. -/
def plainStep (env : Environment) : Step → Task Unit
  | .call route target name arguments => do
    let value ← target.eval env
    let name ← Task.command (.build name)
    let values ← Expression.evalAll env arguments
    Task.through env.context (.call route value name values)
  | .callArguments target => do
    let value ← target.eval env
    match env.arguments with
    | name :: values => Task.through env.context (.call .context value name values)
    | [] => Task.raise .unsupported
  | .bind target name arguments => bindTask env target name arguments
  | .setMode e => do Task.through env.context (.setMode (← e.eval env))
  | .setFlag name e => do Task.through env.context (.setFlag name (← e.eval env))
  | .setSubject e => do Task.through env.context (.setSubject (← e.eval env))
  | .setName name => Task.through env.context (.setName name)
  | .pushArgument e => do Task.through env.context (.pushArgument (← e.eval env))
  | .setFormat value => do Task.through env.context (.setFormat (← Task.command (.build value)))
  | .attach actual expected => do
    let x ← actual.eval env
    let y ← expected.eval env
    match ← Task.caught env.context with
    | some id => Task.command (.attach id x y)
    | none => Task.raise .noPart
  | .reraise => do
    match ← Task.caught env.context with
    | some id => Task.raise (.failure id)
    | none => Task.raise .unsupported
  | .raise cause => Task.raise cause
  | .log values => do
    let refs ← Expression.evalAll env values
    let s ← Task.command .look
    Task.command (.log (.values (← Task.ofExcept (refs.mapM s.report))))
  | .fail .. | .branch .. | .each .. | .attempt .. => pure ()

/-- What follows a part of a script that raises a fault. -/
abbrev Rescue := Fault → Program

/-- What follows a command. -/
def following (ok : Program) (err : Rescue) : Except Fault Unit → Program
  | .ok _ => ok
  | .error cause => err cause

/-- The program of a command that fails through the context. -/
def failing (env : Environment) (ok : Program) (err : Rescue) (command : ContextCommand) :
    Program :=
  Task.through env.context command (fun _ => ok) err

/-- How often the steps of a repetition are run at most; a list that grows with every round is
given up then. -/
def roundLimit : Nat := 1000000

/-- Visit the elements of a value from a position on, and run a body for each; the value had so many
elements at first. -/
def visitFrom (context : Ref) (body : Program → Program) (ok : Program) (err : Rescue)
    (value : Ref) (size : Nat) :
    (rounds : Nat) → (position : Nat) → Program
  | 0, _ => err .tooDeep
  | rounds + 1, position =>
    Task.command .look (fun s =>
      match s.visit value size position with
      | .ok (some element) =>
        Task.setItem context element
          (fun _ => body (visitFrom context body ok err value size rounds (position + 1))) err
      | .ok none => ok
      | .error cause => err cause) err

mutual

/-- The program of a step and of what follows it. -/
def stepProgram (env : Environment) (ok : Program) (err : Rescue) : Step → Program
  | .branch condition yes no =>
    condition.eval env (fun value => Task.command .look (fun s =>
      if s.truth value then stepsProgram env ok err yes else stepsProgram env ok err no) err) err
  | .each e body =>
    e.eval env (fun value => Task.command .look (fun s =>
      match s.elements value with
      | .ok items =>
        visitFrom env.context (fun ok => stepsProgram env ok err body) ok err value items.length
          roundLimit 0
      | .error cause => err cause) err) err
  | .attempt body caught otherwise =>
    stepsProgram env (stepsProgram env ok err otherwise)
      (fun cause =>
        match cause with
        | .failure id => Task.setCaught env.context id (fun _ => stepsProgram env ok err caught) err
        | _ => err cause) body
  | .fail route message arguments actual expected =>
    Expression.evalAll env arguments (fun values =>
      Expression.evalOption env actual (fun x =>
        Expression.evalOption env expected (fun y =>
          messageProgram env ok err route values x y message) err) err) err
  | step => plainStep env step (fun _ => ok) err

/-- The program of steps and of what follows them. -/
def stepsProgram (env : Environment) (ok : Program) (err : Rescue) : List Step → Program
  | [] => ok
  | step :: steps => stepProgram env (stepsProgram env ok err steps) err step

/-- The program of a failure with a message and of what follows. -/
def messageProgram (env : Environment) (ok : Program) (err : Rescue) (route : Route)
    (arguments : List Ref) (actual expected : Ref) : Message → Program
  | .absent => failing env ok err (.fail route (.value .none) arguments actual expected)
  | .value template =>
    Task.command (.build template)
      (fun value => failing env ok err (.fail route (.value value) arguments actual expected)) err
  | .fault cause => failing env ok err (.fail route (.fault cause) arguments actual expected)
  | .caught =>
    Task.caught env.context
      (fun caught =>
        let message : Expectation.Message :=
          match caught with
          | some id => .fault (.failure id)
          | none => .value .none
        failing env ok err (.fail route message arguments actual expected)) err
  | .written edits steps replacement =>
    .failWriting env.context route
      (fun document =>
        let written := Edit.applyAll id document edits
        stepsProgram env (.done (some (replacement.getD written))) .raise steps)
      actual expected (following ok err)

end

/-- The handler that a script describes. -/
def handler (steps : List Step) : Handler := fun context subject arguments =>
  stepsProgram ⟨context, subject, arguments⟩ .skip .raise steps

end Expectation.Script

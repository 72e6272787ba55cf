import Expectation.Assertion.Suggestion
import Expectation.Pattern.Marker
import Expectation.Session.Failing

/-!
# Evaluation

To evaluate an assertion is to find the rule of its name for the type of the subject and to run the
rule's handler with a new context. The commands of the handler are performed in the session, each in
the context that it goes through, and an assertion that is evaluated through a context nests one
level deeper.
-/

namespace Expectation

/-- The fault of a name that stands for nothing on the type of a subject. Follows
`Expect._unknown_assertion`, `assertive.engine:135–158`. -/
def Engine.unknownAssertion (e : Engine) (s : Store) (subject : Ref) (type : Classifier)
    (name : Text) : Except Fault UnknownAssertion :=
  match e.assertions.definedFor name e.classifiers.newestFirst with
  | [] =>
    match suggest s subject name e.classifiers e.assertions with
    | .ok suggestion => .ok ⟨name, type.name, [], suggestion⟩
    | .error cause => .error cause
  | types => .ok ⟨name, type.name, types.map Classifier.name, none⟩

/-- The type of a subject and the rule of a name for it. Follows `assertive.engine:126–129`. -/
def Engine.dispatch (e : Engine) (s : Store) (subject : Ref) (name : Text) :
    Except Fault (Classifier × Rule) :=
  match e.classifiers.resolve s subject with
  | .error cause => .error cause
  | .ok type =>
    match e.assertions.resolve? type name with
    | some (_, rule) => .ok (type, rule)
    | none =>
      match e.unknownAssertion s subject type name with
      | .ok unknown => .error (.unknownAssertion unknown)
      | .error cause => .error cause

/-- The dictionary entries of flags, as templates. -/
def Flags.template (flags : Flags) : Template :=
  .dict (flags.entries.map fun entry => (.fresh (.text entry.1), .known (.bool entry.2)))

namespace Act

/-- Evaluates an assertion in an engine: the subject, the name and the arguments. -/
abbrev Evaluator := EngineId → (subject name : Ref) → (arguments : List Ref) → Act Unit

/-- A flag of a context is set to a value that is true. -/
def flagIsSet (s : Store) (c : Context) (flag : Text) : Bool :=
  match s.node c.flags with
  | .dict entries =>
    match s.lookupText? flag entries with
    | some value => s.truth value
    | none => false
  | _ => false

/-- A name with its flag markers replaced by the flags of a context. Follows
`AssertionContext.expand_flags`, `assertive.context:84–91`. -/
def unmarkedName (id : ContextId) (name : Text) : Act Text := do
  let c ← context id
  pure (Marker.unmark (flagIsSet (← store) c) name)

/-- Set a flag of a context. -/
def setFlag (id : ContextId) (name : Text) (value : Ref) : Act Unit := do
  let c ← context id
  match (← store).node c.flags with
  | .dict entries => do
    let key ← put (.text name)
    change c.flags (.dict ((← store).dictEntries entries [(key, value)]))
  | _ => pure ()

/-- Add an argument to a context. -/
def pushArgument (id : ContextId) (value : Ref) : Act Unit := do
  let c ← context id
  match (← store).node c.arguments with
  | .list items => change c.arguments (.list (items ++ [value]))
  | _ => pure ()

/-- Evaluate an assertion from a context, on a route. Follows `AssertionContext.__call__`,
`assertive.context:80–82`. -/
def call (evaluate : Evaluator) (id : ContextId) (route : Route) (subject name : Ref)
    (arguments : List Ref) : Act Unit := do
  let engineId := (← context id).engine
  match route with
  | .bare => evaluate engineId subject name arguments
  | .engine => outermostCall engineId (evaluate engineId subject name arguments)
  | .context =>
    match (← store).text? name with
    | some marked => do
      let unmarked ← put (.text (← unmarkedName id marked))
      nestedCall id (evaluate engineId subject unmarked arguments)
    | none => throw .unsupported

/-- Let an action that fails take a route from a context. -/
def routed (id : ContextId) (route : Route) (act : EngineId → Act Unit) : Act Unit := do
  let engineId := (← context id).engine
  match route with
  | .context => nestedCall id (act engineId)
  | .engine | .bare => act engineId

/-- Perform a command in the context that it goes through. -/
def performIn (evaluate : Evaluator) (id : ContextId) :
    (command : ContextCommand) → Act command.Answer
  | .state => context id
  | .memory => do pure (← context id).memory
  | .remember memory => changeContext id fun c => { c with memory := memory }
  | .setMode mode => changeContext id fun c => { c with errorMode := mode }
  | .setFlag name value => setFlag id name value
  | .setSubject value => changeContext id fun c => { c with subject := value }
  | .setName name => changeContext id fun c => { c with name := name }
  | .pushArgument value => pushArgument id value
  | .format => do pure (← engine (← context id).engine).format
  | .setFormat value => do
    let engineId := (← context id).engine
    setEngine engineId (← ofExcept ((← engine engineId).setFormat (← store) value))
  | .newDocument => do pure (← engine (← context id).engine).newDocument
  | .equal a b => do ofTraced ((← engine (← context id).engine).equal (← store) a b)
  | .inspect value depth => do
    ofTraced ((← engine (← context id).engine).inspect (← store) value depth)
  | .diff actual expected => do
    ofTraced ((← engine (← context id).engine).diff (← store) actual expected)
  | .standardMessage => standardMessage id
  | .unmark name => unmarkedName id name
  | .call route subject name arguments => call evaluate id route subject name arguments
  | .fail route message arguments actual expected =>
    routed id route fun engineId => failWith engineId message arguments actual expected

/-- Perform a command of a handler. -/
def perform (evaluate : Evaluator) : (command : Command) → Act command.Answer
  | .look => store
  | .build template => build template
  | .failureOf id => failure id
  | .attach id actual expected => do
    let f ← failure id
    setFailure id { f with actual := actual, expected := expected }
  | .log entry => record entry
  | .through (.context id) command => performIn evaluate id command
  | .through value command => do ofExcept (command.astray (← store) value)

/-- Let an action that fails take a route from the context that a value is. -/
def routedThrough (value : Ref) (route : Route) (act : EngineId → Act Unit) : Act Unit :=
  match value with
  | .context id => routed id route act
  | _ => throw .noPart

/-- Run a program. -/
def run (evaluate : Evaluator) : Program → Act (Option Document)
  | .done answer => pure answer
  | .raise cause => throw cause
  | .perform command next => do
    let result ← outcome (perform evaluate command)
    run evaluate (next result)
  | .failWriting context route writer actual expected next => do
    let result ← outcome (routedThrough context route fun engineId =>
      failWriting engineId (fun document => run evaluate (writer document)) actual expected)
    run evaluate (next result)

/-- Begin the context of an assertion. Follows `AssertionContext.__init__`,
`assertive.context:58–74`. -/
def beginContext (engineId : EngineId) (subject : Ref) (name : Text) (type : Classifier)
    (flags : Flags) (arguments : List Ref) : Act ContextId := do
  let flags ← build flags.template
  let arguments ← put (.list arguments)
  addContext ⟨engineId, subject, name, flags, arguments, type.name, .mode .default, 0,
    .initial⟩

/-- The handler of a rule. -/
def handlerOf (rule : Rule) : Act Handler := do pure ((← get).handlerAt rule.handler)

/-- Evaluate an assertion, leaving its failure as it is; nested at most so deep. Follows
`Expect.evaluate_nested`, `assertive.engine:117–133`. -/
def evaluate : (depth : Nat) → Evaluator
  | 0, _, _, _, _ => throw .tooDeep
  | depth + 1, engineId, subject, name, arguments => do
    let s ← store
    match s.text? name with
    | none => throw .nameNotText
    | some nameText => do
      let e ← engine engineId
      let (type, rule) ← ofExcept (e.dispatch s subject nameText)
      let id ← beginContext engineId subject nameText type rule.flags arguments
      let handler ← handlerOf rule
      discard (run (evaluate depth) (handler (.context id) subject arguments))

/-- Evaluate an assertion from outside. Follows `Expect.__call__`, `assertive.engine:98–115`. -/
def expect (engineId : EngineId) (subject name : Ref) (arguments : List Ref) : Act Unit := do
  outermostCall engineId (evaluate (← get).nestingLimit engineId subject name arguments)

end Act

end Expectation

import Expectation.Classifier.Standard
import Expectation.Document.BasicConsole
import Expectation.Proofs.Message.Standard
import Expectation.Proofs.Session.Causes
import Expectation.Proofs.Session.Finalization
import Expectation.Proofs.Session.Locality

/-!
# Composition of failures

A failure that leaves a chain of nested evaluations is composed once by every context on its way.
The chain has a frame for each evaluation, which tells the standard message and the error mode with
which the context takes the failure in, and the difference that the handler puts on it before it
raises it again. The documents of the failure and of its causes are a fold over the frames.
-/

namespace Expectation

/-- What an evaluation adds to a failure that passes through it. -/
structure Frame where
  standard : Document
  mode : ErrorMode
  difference : Option Document

namespace Frame

/-- The difference that the next frame on the way of a failure shows: that of the last frame. -/
def carried : List Frame → Option Document
  | [] => none
  | frame :: _ => frame.difference

/-- The document that a frame makes of one that comes from within: its standard message, the same
document, or its standard message with the rows of the other below, each behind an indentation. -/
def Takes (frame : Frame) (width : Nat) (inner composed : Document) : Prop :=
  match frame.mode with
  | .default => composed = frame.standard
  | .bubble => composed = inner
  | .nested => composed.rows = frame.standard.rows ++ inner.rows.map (Glyph.blanks width ++ ·)

/-- The document of a failure that passed frames, the last first, and the documents of its causes,
the nearest first. -/
inductive Composed (width : Nat) (body : Document) : List Frame → Document → List Document → Prop
  | nil : Composed width body [] body []
  | cons {frame : Frame} {frames : List Frame} {inner composed output : Document}
      {causes : List Document} (h : Composed width body frames inner causes)
      (ht : frame.Takes width inner composed) (hd : composed.Extends (carried frames) output) :
      Composed width body (frame :: frames) output (inner :: causes)

/-- The frame is what a context adds to a failure that passes in a session. -/
structure InForce (frame : Frame) (id : ContextId) (σ : Session) : Prop where
  mode : ErrorMode.ofValue? σ.store (σ.contextAt id).errorMode = some frame.mode
  standard : frame.mode ≠ .bubble → (Act.standardIn σ id).outcome = .ok frame.standard

/-- The document that a context composes is the one that the frame makes. -/
theorem takes_composedDocument {frame : Frame} {width : Nat} (inner : Document)
    (h : frame.mode ≠ .bubble → frame.standard.indentWidth = width ∧ frame.standard.level = 0) :
    frame.Takes width inner (Act.composedDocument frame.standard inner frame.mode) := by
  unfold Takes
  cases hm : frame.mode with
  | default => rfl
  | bubble => rfl
  | nested =>
    obtain ⟨hw, hl⟩ := h (by simp [hm])
    exact Document.rows_newlines_block _ _ hl hw

end Frame

namespace Act

variable {evaluate : Evaluator} {id : ContextId}

/-- A program in a session comes to another, one command after the other. -/
inductive Leads (evaluate : Evaluator) : Session → Program → Session → Program → Prop
  | refl (σ : Session) (program : Program) : Leads evaluate σ program σ program
  | perform {σ τ υ : Session} {command : Command}
      {next : Except Fault command.Answer → Program} {program : Program}
      {result : Except Fault command.Answer}
      (hr : (perform evaluate command).exec σ = (result, τ))
      (h : Leads evaluate τ (next result) υ program) :
      Leads evaluate σ (.perform command next) υ program
  | failWriting {σ τ υ : Session} {context : Ref} {route : Route} {writer : Document → Program}
      {actual expected : Ref} {next : Except Fault Unit → Program} {program : Program}
      {result : Except Fault Unit}
      (hr : (routedThrough context route fun engineId => failWriting engineId
        (fun document => run evaluate (writer document)) actual expected).exec σ = (result, τ))
      (h : Leads evaluate τ (next result) υ program) :
      Leads evaluate σ (.failWriting context route writer actual expected next) υ program

/-- To run a program is to run the one that it comes to. -/
theorem run_of_leads {σ τ : Session} {program program' : Program}
    (h : Leads evaluate σ program τ program') :
    (run evaluate program).exec σ = (run evaluate program').exec τ := by
  induction h with
  | refl => rfl
  | perform hr _ ih => rw [run, exec_bind_of_ok (exec_outcome _ _), hr, ih]
  | failWriting hr _ ih => rw [run, exec_bind_of_ok (exec_outcome _ _), hr, ih]

/-- A program that comes to another keeps engines and levels on its way. -/
theorem evolves_of_leads (he : OrderlyEvaluator evaluate) {σ τ : Session}
    {program program' : Program} (h : Leads evaluate σ program τ program') : σ.Evolves τ := by
  induction h with
  | refl => exact .refl _
  | perform hr _ ih => exact ((orderly_perform he _).evolves hr).trans ih
  | failWriting hr _ ih =>
    refine (Orderly.evolves (orderly_routedThrough _ _ fun engineId => ?_) hr).trans ih
    exact orderly_failWriting (fun document => orderly_run he _) engineId _ _

/-- A program fails through a context: with a message that is a value, or with one that it writes.
What fails is given with the document of the message, the difference that is shown under it, and
what follows. -/
inductive Fails (evaluate : Evaluator) (engineId : EngineId) (id : ContextId) (σ : Session) :
    Program → Act Unit → Document → Option Document → (Except Fault Unit → Program) → Prop
  | value {message actual expected : Ref} {arguments : List Ref}
      {next : Except Fault Unit → Program} {body : Document} {difference : Option Document}
      (hb : (σ.engineAt engineId).body (σ.entered id).store message arguments = .ok body)
      (hd : (σ.engineAt engineId).shownDifference (σ.entered id).store actual expected =
        .ok difference) :
      Fails evaluate engineId id σ
        (.perform (.through (.context id)
          (.fail .context (.value message) arguments actual expected)) next)
        (failWith engineId (.value message) arguments actual expected) body difference next
  | written {τ : Session} {writer : Document → Program} {actual expected : Ref}
      {next : Except Fault Unit → Program} {answer difference : Option Document}
      (hw : (run evaluate (writer (σ.engineAt engineId).newDocument)).exec (σ.entered id) =
        (.ok answer, τ))
      (hd : (τ.engineAt engineId).shownDifference τ.store actual expected = .ok difference) :
      Fails evaluate engineId id σ
        (.failWriting (.context id) .context writer actual expected next)
        (failWriting engineId (fun document => run evaluate (writer document)) actual expected)
        (answer.getD (σ.engineAt engineId).newDocument) difference next

/-- The name that a context calls under, its markers replaced, is placed among the values. -/
def placed (id : ContextId) (marked : Text) (σ : Session) : Ref × Session :=
  let name := σ.store.put (.text (Marker.unmark (flagIsSet σ.store (σ.contextAt id)) marked))
  (name.1, { σ with store := name.2 })

@[simp] theorem contexts_placed (id : ContextId) (marked : Text) (σ : Session) :
    (placed id marked σ).2.store.contexts = σ.store.contexts :=
  σ.store.contexts_put _

@[simp] theorem contextAt_placed (id other : ContextId) (marked : Text) (σ : Session) :
    (placed id marked σ).2.contextAt other = σ.contextAt other := by
  rw [Session.contextAt, Store.contextAt, contexts_placed, Session.contextAt, Store.contextAt]

end Act

namespace Frame

/-- A program raises a failure that it has caught again, perhaps with other values on it, whose
difference is that of the frame. -/
def Reraises (frame : Frame) (evaluate : Act.Evaluator) (engineId : EngineId) (σ : Session)
    (program : Program) (f : FailureId) : Prop :=
  ∃ τ, Act.Leads evaluate σ program τ (.raise (.failure f)) ∧ σ.Keeps f τ ∧
    (τ.engineAt engineId).shownDifference τ.store (τ.failureAt f).actual (τ.failureAt f).expected =
      .ok frame.difference

/-- When a nested call of a context fails, the frame is what the context adds to the failure, and
what follows the call raises the composed failure again. -/
structure Handles (frame : Frame) (evaluate : Act.Evaluator) (engineId : EngineId)
    (id : ContextId) (σ : Session) (call : Act Unit) (next : Except Fault Unit → Program) :
    Prop where
  inForce : ∀ τ f, call.exec (σ.entered id) = (.error (.failure f), τ) → frame.InForce id τ
  reraises : ∀ τ f, (Act.nestedCall id call).exec σ = (.error (.failure f), τ) →
    frame.Reraises evaluate engineId τ (next (.error (.failure f))) f

variable {evaluate : Act.Evaluator} {engineId : EngineId} {σ : Session} {f : FailureId}

/-- A failure may be raised again at once. -/
theorem reraises_raise {frame : Frame}
    (h : (σ.engineAt engineId).shownDifference σ.store (σ.failureAt f).actual
      (σ.failureAt f).expected = .ok frame.difference) :
    frame.Reraises evaluate engineId σ (.raise (.failure f)) f :=
  ⟨σ, .refl _ _, fun _ _ => ⟨rfl, rfl⟩, h⟩

/-- A failure may be raised again after values have been attached to it. -/
theorem reraises_attach {frame : Frame} {actual expected : Ref} (hf : f < σ.failures.size)
    (h : (σ.engineAt engineId).shownDifference σ.store actual expected = .ok frame.difference) :
    frame.Reraises evaluate engineId σ
      (.perform (.attach f actual expected) fun _ => .raise (.failure f)) f := by
  let attached : Failure := { σ.failureAt f with actual := actual, expected := expected }
  have hself : (σ.withFailure f attached).failureAt f = attached :=
    σ.failureAt_withFailure_self f attached hf
  have hrun : (Act.perform evaluate (.attach f actual expected)).exec σ =
      (.ok (), σ.withFailure f attached) := Act.exec_bind_of_ok (Act.exec_failure f σ)
  refine ⟨σ.withFailure f attached, .perform hrun (.refl _ _), ?_, ?_⟩
  · intro other _
    by_cases hother : other = f
    · rw [hother, hself]
      exact ⟨rfl, rfl⟩
    · rw [σ.failureAt_withFailure_of_ne attached hother]
      exact ⟨rfl, rfl⟩
  · rw [hself]
    exact h

end Frame

/-- A program that attaches values to the failure that it caught and raises it again. -/
def Program.attaching (actual expected : Ref) : Except Fault Unit → Program
  | .error (.failure f) => .perform (.attach f actual expected) fun _ => .raise (.failure f)
  | result => .ofExcept result

namespace Act

/-- An evaluation is a chain of nested frames, the outermost first: the handler of every frame but
the innermost evaluates the assertion of the next through its own context, and the handler of the
innermost fails through its context with a document. -/
inductive Chain (engineId : EngineId) :
    (depth : Nat) → Session → (subject name : Ref) → (arguments : List Ref) → (body : Document) →
      List Frame → Prop
  | fails {depth : Nat} {σ τ υ : Session} {subject name : Ref} {arguments : List Ref} {text : Text}
      {type : Classifier} {rule : Rule} {id : ContextId} {program : Program} {failing : Act Unit}
      {body : Document} {difference : Option Document} {next : Except Fault Unit → Program}
      {frame : Frame} (hb : Begins engineId subject name arguments σ text type rule id τ)
      (hl : Leads (evaluate depth) τ (τ.handling rule id subject arguments) υ program)
      (hf : Fails (evaluate depth) engineId id υ program failing body difference next)
      (hframe : frame.Handles (evaluate depth) engineId id υ failing next) :
      Chain engineId (depth + 1) σ subject name arguments (body.under difference) [frame]
  | calls {depth : Nat} {σ τ υ : Session} {subject name subject' name' : Ref}
      {arguments arguments' : List Ref} {text marked : Text} {type : Classifier} {rule : Rule}
      {id : ContextId} {body : Document} {next : Except Fault Unit → Program} {frame : Frame}
      {frames : List Frame} (hb : Begins engineId subject name arguments σ text type rule id τ)
      (hl : Leads (evaluate depth) τ (τ.handling rule id subject arguments) υ
        (.perform (.through (.context id) (.call .context subject' name' arguments')) next))
      (hn : υ.store.text? name' = some marked)
      (hc : Chain engineId depth ((placed id marked υ).2.entered id) subject' (placed id marked υ).1
        arguments' body frames)
      (hframe : frame.Handles (evaluate depth) engineId id (placed id marked υ).2
        (evaluate depth engineId subject' (placed id marked υ).1 arguments') next) :
      Chain engineId (depth + 1) σ subject name arguments body (frame :: frames)

section

variable {evaluate : Evaluator} {id : ContextId}

-- Calling and failing through a context are both nested calls of the context.
private theorem run_perform_call {σ : Session} {subject name : Ref} {arguments : List Ref}
    {next : Except Fault Unit → Program} {marked : Text} (hn : σ.store.text? name = some marked) :
    (run evaluate (.perform (.through (.context id) (.call .context subject name arguments))
      next)).exec σ =
      ((outcome (nestedCall id (evaluate (σ.contextAt id).engine subject (placed id marked σ).1
        arguments))) >>= fun result => run evaluate (next result)).exec
        (placed id marked σ).2 := by
  have hcall : (call evaluate id .context subject name arguments).exec σ =
      (nestedCall id (evaluate (σ.contextAt id).engine subject (placed id marked σ).1
        arguments)).exec (placed id marked σ).2 := exec_call_context hn
  change (outcome (call evaluate id .context subject name arguments) >>= fun result =>
    run evaluate (next result)).exec σ = _
  rw [exec_bind_of_ok (exec_outcome _ _), exec_bind_of_ok (exec_outcome _ _), hcall]

private theorem run_of_fails {engineId : EngineId} {σ : Session} {program : Program}
    {failing : Act Unit} {body : Document} {difference : Option Document}
    {next : Except Fault Unit → Program} (he : (σ.contextAt id).engine = engineId)
    (h : Fails evaluate engineId id σ program failing body difference next) :
    (run evaluate program).exec σ =
      (outcome (nestedCall id failing) >>= fun result => run evaluate (next result)).exec σ := by
  have hrouted : ∀ act,
      (routed id .context act).exec σ = (nestedCall id (act engineId)).exec σ := by
    intro act
    rw [routed, exec_bind_of_ok (exec_context _ σ), he]
  cases h with
  | @value message actual expected arguments =>
    change (outcome (routed id .context fun engineId =>
      failWith engineId (.value message) arguments actual expected) >>= fun result =>
        run evaluate (next result)).exec σ = _
    rw [exec_bind_of_ok (exec_outcome _ _), exec_bind_of_ok (exec_outcome _ _), hrouted]
  | written =>
    rw [run, routedThrough, exec_bind_of_ok (exec_outcome _ _),
      exec_bind_of_ok (exec_outcome _ _), hrouted]

/-- A session in which a failure is on its way, with the documents of the failure and of its causes
and the difference that it carries. -/
structure Carries (engineId : EngineId) (σ : Session) (f : FailureId) (document : Document)
    (causes : List Document) (difference : Option Document) : Prop where
  traces : σ.Traces f document causes
  difference : (σ.engineAt engineId).shownDifference σ.store (σ.failureAt f).actual
    (σ.failureAt f).expected = .ok difference

private theorem orderly_of_fails (he : OrderlyEvaluator evaluate) {engineId : EngineId}
    {σ : Session}
    {program : Program} {failing : Act Unit} {body : Document} {difference : Option Document}
    {next : Except Fault Unit → Program}
    (h : Fails evaluate engineId id σ program failing body difference next) :
    Orderly failing := by
  cases h with
  | value => exact (steady_failWith _ _ _ _ _).orderly
  | written => exact orderly_failWriting (fun document => orderly_run he _) _ _ _

/-- What fails through a context ends with a new failure. -/
private theorem exec_of_fails (he : OrderlyEvaluator evaluate) {engineId : EngineId} {σ : Session}
    (hformat : (Format.ofName? (σ.engineAt engineId).format).isSome) {program : Program}
    {failing : Act Unit} {body : Document} {difference : Option Document}
    {next : Except Fault Unit → Program}
    (h : Fails evaluate engineId id σ program failing body difference next) :
    ∃ f τ, failing.exec (σ.entered id) = (.error (.failure f), τ) ∧
      Carries engineId τ f (body.under difference) [] none := by
  have hcarries : ∀ {σ τ : Session} {document : Document}, σ.Failed document none τ →
      Carries engineId τ σ.failures.size document [] none := by
    intro σ τ document hτ
    constructor
    · rw [← hτ.output]
      exact .nil (by rw [hτ.size]; exact Nat.lt_succ_self _) hτ.cause
    · rw [hτ.actual, hτ.expected]
      exact Engine.shownDifference_none _ _
  cases h with
  | value hb hd =>
    obtain ⟨τ, hrun, hτ⟩ := exec_failWithBody engineId body _ _ (σ.entered id) hformat hd
    refine ⟨_, τ, ?_, hcarries hτ⟩
    rw [failWith, exec_bind_of_ok (exec_engine _ _), exec_bind_of_ok (exec_store _)]
    change (ofExcept ((σ.engineAt engineId).body (σ.entered id).store _ _) >>= _).exec
      (σ.entered id) = _
    rw [hb, exec_bind_of_ok (exec_ofExcept _ _), hrun]
  | @written τ writer actual expected next answer difference hw hd =>
    have hevolves : (σ.entered id).Evolves τ := (orderly_run he _).evolves hw
    obtain ⟨υ, hrun, hυ⟩ := exec_failWithBody engineId
      (answer.getD (σ.engineAt engineId).newDocument) _ _ τ
      ((hevolves.engines engineId).format_exists hformat) hd
    refine ⟨_, υ, ?_, hcarries hυ⟩
    rw [failWriting, exec_bind_of_ok (exec_engine _ _)]
    exact (exec_bind_of_ok hw).trans hrun

/-- A failure that leaves a nested call of a context is composed as its frame tells, and raised
again by the program that made the call. -/
private theorem exec_of_handles (ho : OrderlyEvaluator evaluate) {engineId : EngineId}
    {σ τ : Session} {call : Act Unit} {next : Except Fault Unit → Program} {frame : Frame}
    {f : FailureId} {inner : Document} {causes : List Document} {difference : Option Document}
    (hid : id < σ.store.contexts.size)
    (hn : (σ.contextAt id).nesting = 0) (he : (σ.contextAt id).engine = engineId)
    (hformat : (Format.ofName? (σ.engineAt engineId).format).isSome) (hw : Orderly call)
    (hcall : call.exec (σ.entered id) = (.error (.failure f), τ))
    (hc : Carries engineId τ f inner causes difference)
    (hframe : frame.Handles evaluate engineId id σ call next) :
    ∃ g υ composed output,
      (outcome (nestedCall id call) >>= fun result => run evaluate (next result)).exec σ =
        (.error (.failure g), υ) ∧
      Carries engineId υ g output (inner :: causes) frame.difference ∧
      frame.Takes (σ.engineAt engineId).settings.indentWidth inner composed ∧
      composed.Extends difference output := by
  have hevolves : (σ.entered id).Evolves τ := hw.evolves hcall
  have hentered : (σ.entered id).contextAt id =
      { σ.contextAt id with nesting := (σ.contextAt id).nesting + 1 } :=
    σ.contextAt_withContext_self id _ hid
  have hid' : id < (σ.entered id).store.contexts.size := by simpa using hid
  have hnesting : (τ.contextAt id).nesting = 1 := by
    rw [hevolves.nesting id hid', hentered, hn]
  have hengine : (τ.contextAt id).engine = engineId := by
    rw [hevolves.engine id hid', hentered, he]
  have hreformatted : (σ.engineAt engineId).Reformatted (τ.engineAt engineId) :=
    hevolves.engines engineId
  have hforce : frame.InForce id τ := hframe.inForce τ f hcall
  obtain ⟨υ, hcompose, hυ⟩ := exec_compose id f τ
    (by rw [hengine]; exact hreformatted.format_exists hformat) hforce.mode hforce.standard
    (by rw [hengine]; exact hc.difference)
  have hnested := exec_nestedCall_of_failure hcall hnesting hcompose
  obtain ⟨ω, hleads, hkeeps, hdifference⟩ := hframe.reraises _ _ hnested
  have hcomposed : (υ.exited id).Traces τ.failures.size
      ((composedDocument frame.standard inner frame.mode).under difference) (inner :: causes) := by
    have hinner : υ.Traces f inner causes := by
      refine hc.traces.of_keeps (fun other hother => ?_) (by rw [hυ.size]; exact Nat.le_succ _)
      rw [hυ.others other (Nat.lt_of_le_of_lt hother hc.traces.id_lt)]
      exact ⟨rfl, rfl⟩
    have hnew := Session.Traces.cons (by rw [hυ.size]; exact Nat.lt_succ_self _) hυ.cause
      hc.traces.id_lt hinner
    rw [hυ.output, hc.traces.output_eq] at hnew
    exact hnew.of_keeps (fun other _ => ⟨rfl, rfl⟩) (Nat.le_refl _)
  refine ⟨_, ω, _, _, ?_, ⟨hcomposed.of_keeps hkeeps (evolves_of_leads ho hleads).failures_le,
    hdifference⟩, Frame.takes_composedDocument inner fun hm => ?_, Document.extends_under _ _⟩
  · rw [exec_bind_of_ok (exec_outcome _ _), hnested, run_of_leads hleads]
    rfl
  · have hs := Engine.sameIndentation_standardMessage _ _ _ _ _ (hforce.standard hm)
    rw [hengine] at hs
    refine ⟨?_, hs.2⟩
    rw [hs.1, Engine.newDocument, hreformatted.settings_eq]
    rfl

/-- A context in which no nested call is going on. -/
private structure Idle (engineId : EngineId) (id : ContextId) (σ : Session) : Prop where
  id_lt : id < σ.store.contexts.size
  nesting : (σ.contextAt id).nesting = 0
  engine : (σ.contextAt id).engine = engineId

/-- A name that is placed among the values leaves contexts idle. -/
private theorem Idle.placed {engineId : EngineId} {σ : Session} (h : Idle engineId id σ)
    (marked : Text) : Idle engineId id (Act.placed id marked σ).2 :=
  ⟨by simpa using h.id_lt, by simpa using h.nesting, by simpa using h.engine⟩

/-- Wherever the handler of an evaluation comes to, its context is idle there. -/
private theorem idle_of_begins (he : OrderlyEvaluator evaluate) {engineId : EngineId}
    {subject name : Ref} {arguments : List Ref} {σ τ υ : Session} {text : Text}
    {type : Classifier} {rule : Rule} {program program' : Program}
    (hb : Begins engineId subject name arguments σ text type rule id τ)
    (hl : Leads evaluate τ program υ program') :
    Idle engineId id υ ∧ (σ.engineAt engineId).Reformatted (υ.engineAt engineId) := by
  have hbegun := hb.begun
  obtain ⟨c, cells, hrun, -⟩ :=
    exec_beginContext engineId subject text type rule.flags arguments σ
  rw [hb.context] at hrun
  cases hrun
  have hevolves := evolves_of_leads he hl
  have hid : σ.store.contexts.size < (σ.store.contexts.push c).size := by simp
  refine ⟨⟨Nat.lt_of_lt_of_le hid hevolves.contexts_le, ?_, ?_⟩, hevolves.engines engineId⟩
  · rw [hevolves.nesting _ hid, hbegun.nesting]
  · rw [hevolves.engine _ hid, hbegun.engine]

end

/-- An evaluation that is a chain of frames ends with a failure whose document and causes are the
fold over the frames. -/
theorem exec_evaluate_of_chain {engineId : EngineId} {depth : Nat} {σ : Session}
    {subject name : Ref} {arguments : List Ref} {body : Document} {frames : List Frame}
    (h : Chain engineId depth σ subject name arguments body frames)
    (hformat : (Format.ofName? (σ.engineAt engineId).format).isSome) :
    ∃ f τ output causes,
      (evaluate depth engineId subject name arguments).exec σ = (.error (.failure f), τ) ∧
      Carries engineId τ f output causes (Frame.carried frames) ∧
      Frame.Composed (σ.engineAt engineId).settings.indentWidth body frames output causes := by
  induction h with
  | @fails depth σ τ υ subject name arguments text type rule id program failing body difference
      next frame hb hl hf hframe =>
    have ho : OrderlyEvaluator (evaluate depth) := orderly_evaluate depth
    obtain ⟨hidle, hengine⟩ := idle_of_begins ho hb hl
    have hformat' := hengine.format_exists hformat
    obtain ⟨f, ω, hfail, hcarries⟩ := exec_of_fails ho hformat' hf
    obtain ⟨g, ω', composed, output, hrun, hcarries', htakes, hextends⟩ :=
      exec_of_handles ho hidle.id_lt hidle.nesting hidle.engine hformat'
        (orderly_of_fails ho hf) hfail hcarries hframe
    rw [hengine.settings_eq] at htakes
    refine ⟨g, ω', output, _, ?_, hcarries', .cons .nil htakes hextends⟩
    rw [exec_evaluate hb]
    refine exec_bind_of_error ?_
    rw [run_of_leads hl, run_of_fails hidle.engine hf, hrun]
  | @calls depth σ τ υ subject name subject' name' arguments arguments' text marked type rule id
      body next frame frames hb hl hn hc hframe ih =>
    have ho : OrderlyEvaluator (evaluate depth) := orderly_evaluate depth
    obtain ⟨hidle, hengine⟩ := idle_of_begins ho hb hl
    have hformat' := hengine.format_exists hformat
    obtain ⟨f, ω, output, causes, hcall, hcarries, hcomposed⟩ := ih hformat'
    obtain ⟨g, ω', composed, output', hrun, hcarries', htakes, hextends⟩ :=
      exec_of_handles ho (hidle.placed marked).id_lt (hidle.placed marked).nesting
        (hidle.placed marked).engine hformat' (ho _ _ _ _) hcall hcarries hframe
    have hsettings : (((placed id marked υ).2.entered id).engineAt engineId).settings =
        (σ.engineAt engineId).settings := hengine.settings_eq
    have hsettings' : ((placed id marked υ).2.engineAt engineId).settings =
        (σ.engineAt engineId).settings := hengine.settings_eq
    rw [hsettings] at hcomposed
    rw [hsettings'] at htakes
    refine ⟨g, ω', output', _, ?_, hcarries', .cons hcomposed htakes hextends⟩
    rw [exec_evaluate hb]
    refine exec_bind_of_error ?_
    rw [run_of_leads hl, run_perform_call hn, hidle.engine, hrun]

/-- The failure that leaves a chain of frames called from outside has the document that the fold
over the frames makes of the one that it arose with, and shows the difference that the outermost
handler attached; its causes have the documents that came from within. -/
theorem exec_expect_of_chain {engineId : EngineId} {σ : Session} {subject name : Ref}
    {arguments : List Ref} {body : Document} {frames : List Frame}
    (h : Chain engineId σ.nestingLimit σ subject name arguments body frames)
    (hformat : (Format.ofName? (σ.engineAt engineId).format).isSome) :
    ∃ f τ output causes,
      (expect engineId subject name arguments).exec σ = (.error (.failure f), τ) ∧
      Frame.Composed (σ.engineAt engineId).settings.indentWidth body frames output causes ∧
      output.Extends (Frame.carried frames) (τ.failureAt f).output ∧
      (τ.causes (τ.failureAt f)).map Failure.output = causes := by
  obtain ⟨f, τ, output, causes, hrun, hcarries, hcomposed⟩ := exec_evaluate_of_chain h hformat
  have hexpect : (expect engineId subject name arguments).exec σ =
      (outermostCall engineId (evaluate σ.nestingLimit engineId subject name arguments)).exec σ :=
    exec_bind_of_ok (exec_get σ)
  rw [outermostCall, exec_bind_of_ok (exec_outcome _ _), hrun] at hexpect
  dsimp only at hexpect
  rw [exec_bind_of_ok (exec_failure _ _)] at hexpect
  by_cases hv : (τ.failureAt f).actual ≠ .none ∨ (τ.failureAt f).expected ≠ .none
  · have hevolves : σ.Evolves τ := (orderly_evaluate _ _ _ _ _).evolves hrun
    obtain ⟨υ, hfinal, hυ⟩ := exec_finalize engineId f τ hcarries.traces.id_lt
      ((hevolves.engines engineId).format_exists hformat) hcarries.difference
    rw [if_pos hv, exec_bind_of_ok hfinal] at hexpect
    refine ⟨f, υ, output, causes, hexpect, hcomposed, ?_, ?_⟩
    · rw [hυ.output, hcarries.traces.output_eq]
      exact Document.extends_under _ _
    · exact hcarries.traces.outputs_causes hυ.cause
        (fun other hother => hυ.others other (Nat.ne_of_lt hother)) hυ.size
  · rw [if_neg hv] at hexpect
    obtain ⟨ha, he⟩ := not_or.1 hv
    have hd := hcarries.difference
    rw [Decidable.not_not.1 ha, Decidable.not_not.1 he, Engine.shownDifference_none] at hd
    refine ⟨f, τ, output, causes, hexpect, hcomposed, ?_, ?_⟩
    · rw [← Except.ok.inj hd]
      exact hcarries.traces.output_eq
    · exact hcarries.traces.outputs_causes rfl (fun _ _ => rfl) rfl

private def failureOf? : Except Fault Unit → Option FailureId
  | .error (.failure f) => some f
  | _ => none

private def failingRule : Rule := ⟨0, .empty, ['a']⟩

private def callingRule : Rule := ⟨1, .empty, ['b']⟩

-- A type of texts, two of which differ by one being there for the other.
private def wordType : Classifier :=
  Definition.derive ⟨['t'], none, some ⟨.given 0, Identify.kinds [.text]⟩, none, none,
    some ⟨.given 1, Differ.minusPlus⟩⟩ .universal

-- The assertion `a` fails with the document `m` and attaches two texts to its failure before it
-- raises it again; `b` calls `a` in the nested mode.
private def twoFrames : Session :=
  { Session.empty (.basic false) 2 with
    store := ⟨#[.document ⟨[⟨['m'], none⟩], 2, 0⟩], #[]⟩
    handlers :=
      #[fun context _ _ =>
          .perform (.through context (.fail .context (.value (.cell 0)) [] .none .none))
            (.attaching (.char 'x') (.char 'y')),
        fun context subject _ =>
          .perform (.through context (.setMode (.mode .nested))) fun _ =>
            .perform (.through context (.call .context subject (.char 'a') [])) .ofExcept]
    engines := #[{ Engine.create .default with
      classifiers := .ofList [wordType, .universal]
      assertions := (AssertionRegistry.initial.addRule Classifier.universalName ['a']
        failingRule).addRule Classifier.universalName ['b'] callingRule }] }

private def outerBegun : Session :=
  ((beginContext 0 (.bool true) ['b'] .universal .empty []).exec twoFrames).2

private def outerCalling : Session :=
  ((perform (evaluate 1) (.through (.context 0) (.setMode (.mode .nested)))).exec outerBegun).2

private def innerBegun : Session :=
  ((beginContext 0 (.bool true) ['a'] .universal .empty []).exec (outerCalling.entered 0)).2

private def innerFailing : Act Unit := failWith 0 (.value (.cell 0)) [] .none .none

private def innerCall : Act Unit := evaluate 1 0 (.bool true) (.char 'a') []

-- What is shown of the texts that `a` attaches.
private def wordDifference : Document :=
  ⟨[⟨"- ", some "red"⟩, ⟨"'x'", none⟩, ⟨['\n'], none⟩, ⟨"+ ", some "green"⟩, ⟨"'y'", none⟩], 2, 0⟩

private def frameIn (σ : Session) (id : ContextId) (mode : ErrorMode)
    (difference : Option Document) : Frame :=
  ⟨(standardIn σ id).outcome.toOption.getD (.empty 0), mode, difference⟩

private theorem inForce_of_toOption {frame : Frame} {id : ContextId} {σ : Session}
    (hm : ErrorMode.ofValue? σ.store (σ.contextAt id).errorMode = some frame.mode)
    (hs : (standardIn σ id).outcome.toOption = some frame.standard) : frame.InForce id σ := by
  refine ⟨hm, fun _ => ?_⟩
  cases ho : (standardIn σ id).outcome with
  | error cause =>
    rw [ho] at hs
    cases hs
  | ok d =>
    rw [ho] at hs
    exact congrArg _ (Option.some.inj hs)

private theorem shownDifference_of_toOption {e : Engine} {s : Store} {actual expected : Ref}
    {difference : Option Document}
    (h : (e.shownDifference s actual expected).toOption = some difference) :
    e.shownDifference s actual expected = .ok difference := by
  cases ho : e.shownDifference s actual expected with
  | error cause =>
    rw [ho] at h
    cases h
  | ok found =>
    rw [ho] at h
    exact congrArg _ (Option.some.inj h)

private theorem handles_innerFailing :
    (frameIn innerBegun 1 .default (some wordDifference)).Handles (evaluate 0) 0 1 innerBegun
      innerFailing (.attaching (.char 'x') (.char 'y')) := by
  constructor
  · intro τ f h
    have hm : ErrorMode.ofValue? (innerFailing.exec (innerBegun.entered 1)).2.store
        ((innerFailing.exec (innerBegun.entered 1)).2.contextAt 1).errorMode = some .default := by
      decide +kernel
    have hs : (standardIn (innerFailing.exec (innerBegun.entered 1)).2 1).outcome.toOption =
        some (frameIn innerBegun 1 .default (some wordDifference)).standard := by
      decide +kernel
    rw [h] at hm hs
    exact inForce_of_toOption hm hs
  · intro τ f h
    have hf : failureOf? ((nestedCall 1 innerFailing).exec innerBegun).1 = some 1 := by
      decide +kernel
    have hsize : ((nestedCall 1 innerFailing).exec innerBegun).2.failures.size = 2 := by
      decide +kernel
    have hd : let τ := ((nestedCall 1 innerFailing).exec innerBegun).2
        ((τ.engineAt 0).shownDifference τ.store (.char 'x') (.char 'y')).toOption =
          some (some wordDifference) := by
      decide +kernel
    rw [h] at hf hsize hd
    cases hf
    exact Frame.reraises_attach (by rw [hsize]; decide) (shownDifference_of_toOption hd)

private theorem handles_innerCall :
    (frameIn outerCalling 0 .nested none).Handles (evaluate 1) 0 0 outerCalling innerCall
      .ofExcept := by
  constructor
  · intro τ f h
    have hm : ErrorMode.ofValue? (innerCall.exec (outerCalling.entered 0)).2.store
        ((innerCall.exec (outerCalling.entered 0)).2.contextAt 0).errorMode = some .nested := by
      decide +kernel
    have hs : (standardIn (innerCall.exec (outerCalling.entered 0)).2 0).outcome.toOption =
        some (frameIn outerCalling 0 .nested none).standard := by
      decide +kernel
    rw [h] at hm hs
    exact inForce_of_toOption hm hs
  · intro τ f h
    have hf : failureOf? ((nestedCall 0 innerCall).exec outerCalling).1 = some 2 := by
      decide +kernel
    have ha : (((nestedCall 0 innerCall).exec outerCalling).2.failureAt 2).actual = .none := by
      decide +kernel
    have he : (((nestedCall 0 innerCall).exec outerCalling).2.failureAt 2).expected = .none := by
      decide +kernel
    rw [h] at hf ha he
    cases hf
    refine Frame.reraises_raise ?_
    rw [ha, he, Engine.shownDifference_none]
    rfl

private theorem chain_twoFrames :
    Chain 0 2 twoFrames (.bool true) (.char 'b') [] ⟨[⟨['m'], none⟩], 2, 0⟩
      [frameIn outerCalling 0 .nested none,
        frameIn innerBegun 1 .default (some wordDifference)] := by
  have hplaced : placed 0 ['a'] outerCalling = (.char 'a', outerCalling) := by
    have hname : ∀ isSet, Marker.unmark isSet ['a'] = ['a'] := by
      intro isSet
      simp [Marker.unmark, Marker.replaceAll, Delimited.read?]
      rfl
    rw [placed, hname]
    rfl
  have houter : Begins 0 (.bool true) (.char 'b') [] twoFrames ['b'] .universal callingRule 0
      outerBegun := ⟨rfl, rfl, rfl⟩
  have hcall : Leads (evaluate 1) outerBegun (outerBegun.handling callingRule 0 (.bool true) [])
      outerCalling (.perform (.through (.context 0) (.call .context (.bool true) (.char 'a') []))
        .ofExcept) :=
    .perform rfl (.refl _ _)
  have hinner : Begins 0 (.bool true) (.char 'a') [] (outerCalling.entered 0) ['a'] .universal
      failingRule 1 innerBegun := ⟨rfl, rfl, rfl⟩
  have hfails : Fails (evaluate 0) 0 1 innerBegun
      (innerBegun.handling failingRule 1 (.bool true) []) innerFailing
      ⟨[⟨['m'], none⟩], 2, 0⟩ none (.attaching (.char 'x') (.char 'y')) := .value rfl rfl
  refine .calls houter hcall rfl ?_ ?_
  · rw [hplaced]
    exact .fails hinner (.refl _ _) hfails handles_innerFailing
  · rw [hplaced]
    exact handles_innerCall

/-- The failure of `b` shows the message of `a` below its own, and below that the difference of the
texts that `a` attached. -/
theorem exec_expect_twoFrames :
    ∃ f τ output causes,
      (expect 0 (.bool true) (.char 'b') []).exec twoFrames = (.error (.failure f), τ) ∧
      Frame.Composed 2 ⟨[⟨['m'], none⟩], 2, 0⟩
        [frameIn outerCalling 0 .nested none,
          frameIn innerBegun 1 .default (some wordDifference)] output causes ∧
      output.Extends none (τ.failureAt f).output ∧
      (τ.causes (τ.failureAt f)).map Failure.output = causes :=
  exec_expect_of_chain chain_twoFrames rfl

end Act

end Expectation

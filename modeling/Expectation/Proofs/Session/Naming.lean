import Expectation.Proofs.Assertion.Addition
import Expectation.Proofs.Pattern.Markup
import Expectation.Proofs.Pattern.Rewriting
import Expectation.Proofs.Session.Dispatch

/-!
# Names of nested calls

A handler may evaluate an assertion under a name or under a pattern. A name that a pattern declares
stands for itself whatever the flags are, if the pattern closes nothing before it opens it. A
pattern whose flags stand apart stands for the name that the handler was called by, as long as the
flags of the context are those of the name.
-/

namespace Expectation

namespace Session

/-- The flags of a context read as the flags of an expansion. -/
def FlagsRead (σ : Session) (id : ContextId) (flags : Flags) : Prop :=
  ∃ entries, σ.store.node (σ.contextAt id).flags = .dict entries ∧
    σ.store.ReadsAs entries flags.entries

/-- A call through a context under one name is a nested call under another. -/
def Reaches (σ : Session) (id : ContextId) (name reached : Text) : Prop :=
  ∀ (evaluate : Act.Evaluator) (subject nameRef : Ref) (arguments : List Ref),
    σ.store.text? nameRef = some name →
      (Act.call evaluate id .context subject nameRef arguments).exec σ =
        (Act.nestedCall id (evaluate (σ.contextAt id).engine subject
          (σ.store.put (.text reached)).1 arguments)).exec
            { σ with store := (σ.store.put (.text reached)).2 }

end Session

namespace Act

open Pattern

variable {σ : Session} {id : ContextId}

/-- A flag of a context is set as the flags say that it reads as. -/
theorem flagIsSet_of_flagsRead {flags : Flags} (h : σ.FlagsRead id flags) {entry : Text × Bool}
    (he : entry ∈ flags.entries) : flagIsSet σ.store (σ.contextAt id) entry.1 = entry.2 := by
  obtain ⟨entries, hnode, hread⟩ := h
  have hvalue : σ.store.lookupText? entry.1 entries = some (.bool entry.2) := by
    have hget : (flags.get? entry.1).map Ref.bool = some (.bool entry.2) := by
      rw [Table.get?_eq_some_of_mem he]
      rfl
    rw [Table.get?, Option.map_map] at hget
    rw [hread.lookupText?]
    exact hget
  simp only [flagIsSet, hnode, hvalue]
  rfl

/-- A call reaches the name that its markers are replaced to. -/
theorem reaches_of_unmark {name reached : Text}
    (h : Marker.unmark (flagIsSet σ.store (σ.contextAt id)) name = reached) :
    σ.Reaches id name reached := by
  intro evaluate subject nameRef arguments hname
  rw [exec_call_context hname, h]

/-- Of a valid pattern that closes nothing before it opens it, no name holds a delimiter, so that in
every context every name stands for itself and a call under it reaches it. Any other valid pattern
that declares names declares one with a delimiter. -/
theorem exec_unmarkedName_of_opensFirst {pattern : Text} (hv : Valid pattern)
    {expansions : List Expansion} (he : expand? pattern = some expansions) :
    (OpensFirst pattern → ∀ e ∈ expansions, Free e.text ∧
      ∀ (σ : Session) (id : ContextId),
        (unmarkedName id e.text).exec σ = (.ok e.text, σ) ∧ σ.Reaches id e.text e.text) ∧
    (¬ OpensFirst pattern → expansions ≠ [] → ∃ e ∈ expansions, ¬ Free e.text) := by
  constructor
  · intro ho e hmem
    have hne : expansions ≠ [] := List.ne_nil_of_mem hmem
    have hfree : Free e.text := (forall_free_iff_opensFirst hv he hne).2 ho e hmem
    have hopen : '[' ∉ e.text := fun hc => hfree _ hc (by decide)
    have hself : ∀ isSet, Marker.unmark isSet e.text = e.text :=
      fun isSet => Marker.unmark_eq_self hopen (strip_of_expand? he hmem)
    refine ⟨hfree, fun σ id => ⟨?_, reaches_of_unmark (hself _)⟩⟩
    rw [exec_unmarkedName, hself]
  · intro ho hne
    have hnot := mt (forall_free_iff_opensFirst hv he hne).1 ho
    simpa only [not_forall, exists_prop] using hnot

/-- The names of a pattern with a flag stand for themselves; a pattern that closes a bracket first
is a name that does not. -/
theorem exec_unmarkedName_notEqual :
    (∃ expansions, expand? ("[not] to equal" : String) = some expansions ∧
      ∀ e ∈ expansions, Free e.text ∧ ∀ (σ : Session) (id : ContextId),
        (unmarkedName id e.text).exec σ = (.ok e.text, σ) ∧ σ.Reaches id e.text e.text) ∧
    expand? ("]a[" : String) = some [⟨("]a[" : String), .empty⟩] ∧
      ∃ e ∈ [(⟨("]a[" : String), .empty⟩ : Expansion)], ¬ Free e.text := by
  have hsome : (expand? ("[not] to equal" : String)).isSome := by decide +kernel
  obtain ⟨expansions, he⟩ := Option.isSome_iff_exists.1 hsome
  have he' : expand? ("]a[" : String) = some [⟨("]a[" : String), .empty⟩] := by decide +kernel
  refine ⟨⟨expansions, he, ?_⟩, he', ?_⟩
  · exact (exec_unmarkedName_of_opensFirst (by decide +kernel) he).1 (by decide +kernel)
  · exact (exec_unmarkedName_of_opensFirst (by decide +kernel) he').2 (by decide +kernel) (by simp)

/-- An evaluation finds its rule on some type. -/
private theorem exists_find?_of_dispatch {e : Engine} {s : Store} {subject : Ref} {text : Text}
    {type : Classifier} {rule : Rule} (h : e.dispatch s subject text = .ok (type, rule)) :
    ∃ owner : Classifier, e.assertions.find? owner text = some rule := by
  unfold Engine.dispatch at h
  split at h
  · cases h
  · split at h
    · next owner rule' hfound =>
      cases h
      obtain ⟨_, _, _, _, hfind⟩ := AssertionRegistry.findOn?_eq_some_iff.1 hfound
      exact ⟨owner, hfind⟩
    · split at h <;> cases h

/-- A rule comes from an expansion of its pattern: the one of its name and flags. -/
private theorem exists_expansion_of_carries {e : Engine} {calls : List Registration}
    {typeName name : Text} {rule : Rule} (h : e.Carries calls typeName name rule) :
    ∃ expansions, expand? rule.pattern = some expansions ∧
      ∃ expansion ∈ expansions, expansion.text = name ∧ expansion.flags = rule.flags := by
  obtain ⟨_, _, _, _, hregisters⟩ := h
  cases hregisters with
  | @intro _ _ _ _ _ patterns _ _ _ _ _ hfirst =>
    obtain ⟨⟨pattern, expansion⟩, hfound, rfl⟩ := Option.map_eq_some_iff.1 hfirst
    have hname : expansion.text = name := by simpa using List.find?_some hfound
    obtain ⟨-, expansions, hexpand, hmem⟩ :=
      mem_expansions_iff.1 (List.mem_of_find?_eq_some hfound)
    exact ⟨expansions, hexpand, expansion, hmem, hname, rfl⟩

/-- A pattern whose flags stand apart, evaluated in a context with the flags of one of its
expansions, stands for the name of the expansion, and a call under it reaches that name. So the
handler of an evaluation under a rule that was registered from the pattern reaches the very name
that it was evaluated under, as long as the flags of its context are those that it began with. -/
theorem exec_unmarkedName_of_flagsStandApart {pattern : Text} (hv : Valid pattern)
    (ho : OpensFirst pattern) (hedge : edge ∉ pattern) (hparen : '(' ∉ pattern)
    (hf : FlagsStandApart pattern) :
    (∀ expansions, expand? pattern = some expansions → ∀ e ∈ expansions,
      ∀ (σ : Session) (id : ContextId), σ.FlagsRead id e.flags →
        (unmarkedName id pattern).exec σ = (.ok e.text, σ) ∧ σ.Reaches id pattern e.text) ∧
    (∀ (settings : Settings) (calls : List Registration) (engineId : EngineId) (subject name : Ref)
        (arguments : List Ref) (σ τ : Session) (text : Text) (type : Classifier) (rule : Rule)
        (id : ContextId), σ.engineAt engineId = (Engine.create settings).afterAll calls →
      Begins engineId subject name arguments σ text type rule id τ → rule.pattern = pattern →
        τ.FlagsRead id rule.flags ∧
          ∀ υ : Session, υ.FlagsRead id rule.flags → υ.Reaches id pattern text) := by
  have hunmark : ∀ expansions, expand? pattern = some expansions → ∀ e ∈ expansions,
      ∀ (σ : Session) (id : ContextId), σ.FlagsRead id e.flags →
        Marker.unmark (flagIsSet σ.store (σ.contextAt id)) pattern = e.text := by
    intro expansions he e hmem σ id hflags
    exact unmark_eq_text hv ho hedge hparen hf he hmem fun entry => flagIsSet_of_flagsRead hflags
  constructor
  · intro expansions he e hmem σ id hflags
    have hname := hunmark expansions he e hmem σ id hflags
    refine ⟨?_, reaches_of_unmark hname⟩
    rw [exec_unmarkedName, hname]
  · rintro settings calls engineId subject name arguments σ τ text type rule id hengine hb rfl
    obtain ⟨owner, hfind⟩ := exists_find?_of_dispatch hb.dispatch
    rw [hengine, AssertionRegistry.find?, Engine.rules_afterAll_iff,
      Engine.get?_rules_create] at hfind
    obtain ⟨expansions, he, e, hmem, rfl, hflags⟩ :=
      exists_expansion_of_carries (hfind.resolve_left (by simp))
    refine ⟨hb.begun.flags, fun υ hread => ?_⟩
    rw [← hflags] at hread
    exact reaches_of_unmark (hunmark expansions he e hmem υ id hread)

private def twoFlags : Text := ("[not] to [strictly] equal" : String)

private theorem flagsStandApart_twoFlags : FlagsStandApart twoFlags := by
  have hsegments : segments twoFlags =
      [.flag "not".toList, .literal " to ".toList, .flag "strictly".toList,
        .literal " equal".toList] := by
    decide +kernel
  refine ⟨by rw [hsegments]; decide, ?_, ?_⟩
  · rw [hsegments]
    intro name hname
    have hcases : name ∈ ["not".toList, "strictly".toList] := hname
    rcases List.mem_cons.1 hcases with rfl | hcases
    · exact ⟨by decide, by simp [Flush, isSpacing], by simp [FlushEnd, isSpacing]⟩
    · cases List.mem_singleton.1 hcases
      exact ⟨by decide, by simp [Flush, isSpacing], by simp [FlushEnd, isSpacing]⟩
  · rw [hsegments]
    intro before name after heq
    rcases before with _ | ⟨first, _ | ⟨second, _ | ⟨third, _ | ⟨fourth, others⟩⟩⟩⟩
    · cases heq
      exact ⟨.inl rfl, .inr (.inr ⟨'t', _, rfl, rfl⟩)⟩
    · simp at heq
    · cases heq
      refine ⟨.inr (.inr ⟨"[not] to".toList, by decide, ?_⟩), .inr (.inr ⟨'e', _, rfl, rfl⟩)⟩
      simp [FlushEnd, isSpacing]
    · simp at heq
    · simp at heq

private theorem exists_expansion_twoFlags :
    ∃ expansions, expand? twoFlags = some expansions ∧ ∃ e ∈ expansions,
      e.text = "not to equal".toList ∧
        e.flags.entries = [("not".toList, true), ("strictly".toList, false)] := by
  have hexpand : (expand? twoFlags).map (List.map fun e => (e.text, e.flags.entries)) =
      some [("not to strictly equal".toList, [("not".toList, true), ("strictly".toList, true)]),
        ("not to equal".toList, [("not".toList, true), ("strictly".toList, false)]),
        ("to strictly equal".toList, [("not".toList, false), ("strictly".toList, true)]),
        ("to equal".toList, [("not".toList, false), ("strictly".toList, false)])] := by
    decide +kernel
  obtain ⟨expansions, he, hall⟩ := Option.map_eq_some_iff.1 hexpand
  obtain ⟨e, hmem, heq⟩ : ∃ e ∈ expansions, (e.text, e.flags.entries) =
      ("not to equal".toList, [("not".toList, true), ("strictly".toList, false)]) := by
    rw [← List.mem_map, hall]
    simp
  exact ⟨expansions, he, e, hmem, Prod.mk.inj heq⟩

-- The first of two flags is set.
private def flagged : Session :=
  { Session.empty (.basic false) 1 with
    store := ⟨#[.text "not".toList, .text "strictly".toList,
      .dict [(.cell 0, .bool true), (.cell 1, .bool false)]],
      #[⟨0, .none, [], .cell 2, .none, [], .mode .default, 0, .initial⟩]⟩ }

-- A handler, a pattern to register it for, and one of the names of the pattern.
private def handlerOfTwoFlags : Store :=
  ⟨#[.handler 0, .text twoFlags, .text "not to equal".toList], #[]⟩

private def registeredTwoFlags : List Registration :=
  [.assertion handlerOfTwoFlags [.cell 1, .cell 0]]

private theorem exists_carries_twoFlags :
    ∃ rule : Rule, rule.pattern = twoFlags ∧ (Engine.create .default).Carries registeredTwoFlags
      Classifier.universalName "not to equal".toList rule := by
  obtain ⟨expansions, he, e, hmem, htext, -⟩ := exists_expansion_twoFlags
  have hexpansion : (twoFlags, e) ∈ Pattern.expansions [twoFlags] :=
    mem_expansions_iff.2 ⟨List.mem_singleton_self _, expansions, he, hmem⟩
  obtain ⟨found, hfound⟩ : ∃ found, (Pattern.expansions [twoFlags]).find?
      (·.2.text = "not to equal".toList) = some found :=
    Option.isSome_iff_exists.1 (List.find?_isSome.2 ⟨_, hexpansion, by simp [htext]⟩)
  have hpattern : found.1 = twoFlags :=
    List.mem_singleton.1 (mem_expansions_iff.1 (List.mem_of_find?_eq_some hfound)).1
  obtain ⟨registry, hregister⟩ : ∃ registry, (Engine.create .default).assertions.register
      [.universal] [some twoFlags] (some 0) = .ok registry := by
    refine ⟨_, AssertionRegistry.register_eq_ok_iff.2 ⟨0, [twoFlags], rfl, rfl, ?_, ?_, rfl⟩⟩
    · exact List.forall_mem_singleton.2 ⟨by decide +kernel, by rw [he]; rfl⟩
    · refine List.forall_mem_singleton.2 ⟨List.mem_singleton_self _, fun _ _ => ?_⟩
      exact (Table.get?_eq_none_iff _ _).1 (Engine.get?_rules_create _ _ _)
  have hrequest : (Engine.create .default).request handlerOfTwoFlags [.cell 1, .cell 0] =
      .ok ⟨[.universal], [twoFlags].map some, some 0⟩ := rfl
  have hok : (Engine.create .default).addAssertion handlerOfTwoFlags [.cell 1, .cell 0] =
      .ok { Engine.create .default with assertions := registry } := by
    rw [Engine.addAssertion_eq, hrequest]
    dsimp only [Except.bind]
    rw [List.map_singleton, hregister]
  refine ⟨⟨0, found.2.flags, found.1⟩, hpattern, [], _, [], rfl, ?_⟩
  refine .intro hok hrequest List.mem_cons_self rfl rfl ?_
  rw [AssertionRegistry.firstRule?, hfound]
  rfl

-- An engine in which the handler is registered for the pattern.
private def registering : Session :=
  { Session.empty (.basic false) 1 with
    store := handlerOfTwoFlags
    engines := #[(Engine.create .default).afterAll registeredTwoFlags] }

private theorem exists_begins_twoFlags :
    ∃ rule id τ, rule.pattern = twoFlags ∧
      Begins 0 .none (.cell 2) [] registering "not to equal".toList .universal rule id τ := by
  obtain ⟨rule, hpattern, hcarries⟩ := exists_carries_twoFlags
  obtain ⟨c, s, hcontext, -⟩ :=
    exec_beginContext 0 .none "not to equal".toList .universal rule.flags [] registering
  refine ⟨rule, _, _, hpattern, rfl, ?_, hcontext⟩
  have hnewest : (registering.engineAt 0).classifiers.newestFirst = [] ++ .universal :: [] :=
    Engine.newestFirst_afterAll registeredTwoFlags
  have hresolve : (registering.engineAt 0).classifiers.resolve registering.store .none =
      .ok .universal := ClassifierRegistry.resolve_of_identifies hnewest (by simp) rfl
  have hrule : (registering.engineAt 0).assertions.resolve? .universal "not to equal".toList =
      some (.universal, rule) := by
    refine AssertionRegistry.findOn?_eq_some_iff.2 ⟨[], [], rfl, by simp, ?_⟩
    exact (Engine.rules_afterAll_iff registeredTwoFlags).2 (.inr hcarries)
  rw [Engine.dispatch, hresolve]
  simp only [hrule]

/-- Evaluated where the first of its two flags is set, a pattern stands for the name with that flag,
and a handler that is registered for the pattern and evaluated under that name reaches the name by
the pattern. -/
theorem exec_unmarkedName_twoFlags :
    ((unmarkedName 0 twoFlags).exec flagged = (.ok "not to equal".toList, flagged) ∧
      flagged.Reaches 0 twoFlags "not to equal".toList) ∧
    ∃ rule id τ,
      Begins 0 .none (.cell 2) [] registering "not to equal".toList .universal rule id τ ∧
        τ.Reaches id twoFlags "not to equal".toList := by
  have h := exec_unmarkedName_of_flagsStandApart (by decide +kernel) (by decide +kernel)
    (by decide +kernel) (by decide +kernel) flagsStandApart_twoFlags
  constructor
  · obtain ⟨expansions, he, e, hmem, htext, hflags⟩ := exists_expansion_twoFlags
    have hread : flagged.FlagsRead 0 e.flags :=
      ⟨[(.cell 0, .bool true), (.cell 1, .bool false)], rfl, by rw [hflags]; rfl⟩
    rw [← htext]
    exact h.1 expansions he e hmem flagged 0 hread
  · obtain ⟨rule, id, τ, hpattern, hbegins⟩ := exists_begins_twoFlags
    obtain ⟨hread, hreaches⟩ := h.2 .default registeredTwoFlags 0 .none (.cell 2) [] registering τ
      "not to equal".toList .universal rule id rfl hbegins hpattern
    exact ⟨rule, id, τ, hbegins, hreaches τ hread⟩

end Act
end Expectation

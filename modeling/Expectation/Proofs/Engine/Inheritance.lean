import Expectation.Proofs.Engine.Evolution

/-!
# Inheritance of behaviour

A registration looks one level up: a new type takes from its base each function that its definition
does not supply. Over a whole history of requests, refused ones among them, a function of a type is
therefore that of the first type on its line whose definition supplied one, and that of the
universal type if none did. A type that is registered stays as it is.
-/

namespace Expectation

/-- One of the functions that the behaviour of a type is made of. -/
inductive Aspect where
  | identify
  | equal
  | inspect
  | diff
  deriving Repr, DecidableEq

namespace Aspect

/-- The functions that can take the place of the aspect. -/
abbrev Function : Aspect → Type
  | identify => Identify
  | equal => Equal
  | inspect => Inspect
  | diff => Differ

/-- The function that a definition supplies, if it does. -/
def supplied : (aspect : Aspect) → Definition → Option (Sourced aspect.Function)
  | identify, d => d.identify
  | equal, d => d.equal
  | inspect, d => d.inspect
  | diff, d => d.diff

/-- The function that a type has, and what tells it from others. -/
def effective : (aspect : Aspect) → Classifier → Sourced aspect.Function
  | identify, type => ⟨type.origins.identify, type.behaviour.identify⟩
  | equal, type => ⟨type.origins.equal, type.behaviour.equal⟩
  | inspect, type => ⟨type.origins.inspect, type.behaviour.inspect⟩
  | diff, type => ⟨type.origins.diff, type.behaviour.diff⟩

/-- A type has the function that its definition supplies, or else that of its base. -/
theorem effective_derive (aspect : Aspect) (d : Definition) (base : Classifier) :
    aspect.effective (d.derive base) = (aspect.supplied d).getD (aspect.effective base) := by
  have hpair : ∀ {α : Type} (given : Option (Sourced α)) (inherited : Sourced α),
      (⟨(given.map Sourced.origin).getD inherited.origin,
        (given.map Sourced.function).getD inherited.function⟩ : Sourced α) =
        given.getD inherited := by
    intro α given inherited
    cases given <;> rfl
  cases aspect with
  | identify => exact hpair d.identify (effective identify base)
  | equal => exact hpair d.equal (effective equal base)
  | inspect => exact hpair d.inspect (effective inspect base)
  | diff => exact hpair d.diff (effective diff base)

/-- The function that the first type on a line supplies whose definition, of those that were
accepted, supplies one. -/
def nearest? (aspect : Aspect) (accepted : List Definition) (line : List Classifier) :
    Option (Sourced aspect.Function) :=
  line.findSome? fun type => (accepted.find? (·.name = type.name)).bind aspect.supplied

end Aspect

/-- A request to register a type, by a definition or proposal and further fields. -/
structure TypeRequest where
  given : Definition ⊕ Proposal
  fields : Proposal

namespace ClassifierRegistry

/-- What a request leads to: its definition and the registry with the new type. -/
def answer (registry : ClassifierRegistry) (request : TypeRequest) :
    Except ConfigurationFault (Definition × ClassifierRegistry) := do
  let d ← Engine.definitionOf request.given request.fields
  let next ← registry.register d
  pure (d, next)

/-- The registry after a request, which leaves it as it was if it is refused. -/
def attempt (registry : ClassifierRegistry) (request : TypeRequest) : ClassifierRegistry :=
  match registry.answer request with
  | .ok (_, next) => next
  | .error _ => registry

/-- The registry after requests, in order. -/
def afterAll (registry : ClassifierRegistry) (requests : List TypeRequest) : ClassifierRegistry :=
  requests.foldl attempt registry

/-- The definitions of the requests that are not refused, in order. -/
def accepted (registry : ClassifierRegistry) : List TypeRequest → List Definition
  | [] => []
  | request :: requests =>
    match registry.answer request with
    | .ok (d, next) => d :: next.accepted requests
    | .error _ => registry.accepted requests

/-- A registry that comes about from the universal type by definitions, oldest first. -/
structure Grown (history : List Definition) (registry : ClassifierRegistry) : Prop where
  indexed : registry.Indexed
  names : registry.newestFirst.map Classifier.name =
    (history.map Definition.name).reverse ++ [Classifier.universalName]
  universal_mem : .universal ∈ registry.newestFirst
  derived : ∀ type ∈ registry.newestFirst, type = .universal ∨
    ∃ d ∈ history, ∃ base ∈ registry.newestFirst,
      base.name = d.base.getD Classifier.universalName ∧ type = d.derive base

variable {registry next : ClassifierRegistry} {history : List Definition} {d : Definition}

/-- A request that is not refused has its definition registered. -/
theorem register_of_answer {request : TypeRequest} (h : registry.answer request = .ok (d, next)) :
    registry.register d = .ok next := by
  rw [answer] at h
  cases hd : Engine.definitionOf request.given request.fields with
  | error cause => simp [hd, Bind.bind, Except.bind] at h
  | ok d' =>
    cases hnext : registry.register d' with
    | error cause => simp [hd, hnext, Bind.bind, Except.bind] at h
    | ok next' =>
      simp only [hd, hnext, Bind.bind, Except.bind, pure, Except.pure] at h
      cases h
      exact hnext

theorem afterAll_cons (registry : ClassifierRegistry) (request : TypeRequest)
    (requests : List TypeRequest) :
    registry.afterAll (request :: requests) = (registry.attempt request).afterAll requests := rfl

theorem afterAll_append (registry : ClassifierRegistry) (requests later : List TypeRequest) :
    registry.afterAll (requests ++ later) = (registry.afterAll requests).afterAll later :=
  List.foldl_append

/-- A type stays registered. -/
theorem mem_afterAll {type : Classifier} (h : type ∈ registry.newestFirst)
    (requests : List TypeRequest) : type ∈ (registry.afterAll requests).newestFirst := by
  induction requests generalizing registry with
  | nil => exact h
  | cons request requests ih =>
    rw [afterAll_cons, attempt]
    split
    · next hanswer =>
      obtain ⟨-, base, -, rfl⟩ := exists_of_register_eq_ok (register_of_answer hanswer)
      exact ih (List.mem_cons_of_mem _ h)
    · exact ih h

/-- An engine takes a type as its registry does. -/
theorem classifiers_attempt (e : Engine) (request : TypeRequest) :
    (e.attempt (.type request.given request.fields)).classifiers =
      e.classifiers.attempt request := by
  rw [Engine.attempt, Engine.register, Engine.addType, attempt, answer]
  cases hd : Engine.definitionOf request.given request.fields with
  | error cause => rfl
  | ok d =>
    simp only [Bind.bind, Except.bind, Engine.define]
    cases e.classifiers.register d <;> rfl

/-- An engine takes types as its registry does. -/
theorem classifiers_afterAll (e : Engine) (requests : List TypeRequest) :
    (e.afterAll (requests.map fun request => .type request.given request.fields)).classifiers =
      e.classifiers.afterAll requests := by
  induction requests generalizing e with
  | nil => rfl
  | cons request requests ih =>
    rw [afterAll_cons, ← classifiers_attempt]
    exact ih _

namespace Grown

theorem initial : Grown [] ClassifierRegistry.initial where
  indexed := Indexed.ofList
    (show ([Classifier.universal].map Classifier.name).Nodup from List.nodup_singleton _)
  names := rfl
  universal_mem := List.mem_singleton_self _
  derived := fun _ hmem => .inl (List.mem_singleton.1 hmem)

/-- A definition that is accepted goes on with the history. -/
theorem register (h : Grown history registry) (hok : registry.register d = .ok next) :
    Grown (history ++ [d]) next := by
  obtain ⟨hnew, base, hbase, rfl⟩ := exists_of_register_eq_ok hok
  obtain ⟨hmem, hname⟩ := h.indexed.mem_of_baseOf h.universal_mem hbase
  constructor
  case indexed => exact h.indexed.cons (d.derive base) hnew
  case names =>
    rw [List.map_cons, h.names, List.map_append, List.reverse_append]
    rfl
  case universal_mem => exact List.mem_cons_of_mem _ h.universal_mem
  case derived =>
    rw [List.forall_mem_cons]
    refine ⟨.inr ⟨d, by simp, base, List.mem_cons_of_mem _ hmem, hname, rfl⟩, ?_⟩
    intro type htype
    refine (h.derived type htype).imp_right ?_
    rintro ⟨d', hd', base', hbase', hrest⟩
    exact ⟨d', List.mem_append_left _ hd', base', List.mem_cons_of_mem _ hbase', hrest⟩

/-- Requests go on with the history by the definitions that are accepted. -/
theorem afterAll (h : Grown history registry) (requests : List TypeRequest) :
    Grown (history ++ registry.accepted requests) (registry.afterAll requests) := by
  induction requests generalizing history registry with
  | nil => simpa [accepted, ClassifierRegistry.afterAll] using h
  | cons request requests ih =>
    rw [afterAll_cons, accepted, attempt]
    cases hanswer : registry.answer request with
    | error cause => exact ih h
    | ok found =>
      have hnext := ih (h.register (register_of_answer hanswer))
      rwa [List.append_assoc] at hnext

/-- No two definitions have one name, and none has that of the universal type. -/
theorem nodup_names (h : Grown history registry) :
    (history.map Definition.name).Nodup ∧
      Classifier.universalName ∉ history.map Definition.name := by
  have hdistinct := h.indexed.distinct
  rw [h.names, List.nodup_append] at hdistinct
  refine ⟨List.nodup_reverse.1 hdistinct.1, fun hmem => ?_⟩
  exact hdistinct.2.2 _ (List.mem_reverse.2 hmem) _ (List.mem_singleton_self _) rfl

/-- A definition is found under its name. -/
theorem find?_eq_some (h : Grown history registry) (hd : d ∈ history) :
    history.find? (·.name = d.name) = some d := by
  cases hfound : history.find? (·.name = d.name) with
  | none => simpa using List.find?_eq_none.1 hfound d hd
  | some d' =>
    have hname : d'.name = d.name := by simpa using List.find?_some hfound
    exact congrArg some
      (List.inj_on_of_nodup_map h.nodup_names.1 (List.mem_of_find?_eq_some hfound) hd hname)

/-- A registered type has the function that the first type on its line supplies, or the universal
one. -/
theorem effective_eq (h : Grown history registry) {type : Classifier}
    (hmem : type ∈ registry.newestFirst) (aspect : Aspect) :
    aspect.effective type =
      (aspect.nearest? history type.lineage).getD (aspect.effective .universal) := by
  induction type with
  | universal =>
    have hnone : history.find? (·.name = Classifier.universalName) = none := by
      rw [List.find?_eq_none]
      intro d hd hname
      exact h.nodup_names.2 (List.mem_map.2 ⟨d, hd, by simpa using hname⟩)
    rw [Classifier.lineage, Aspect.nearest?, List.findSome?_singleton, Classifier.name, hnone]
    rfl
  | derived name behaviour origins base ih =>
    obtain hbad | ⟨d, hd, base', hbase, -, heq⟩ := h.derived _ hmem
    · cases hbad
    · obtain rfl : base = base' := by
        cases heq
        rfl
      have hname : Classifier.name (.derived name behaviour origins base) = d.name := by
        rw [heq]
        rfl
      rw [Classifier.lineage, Aspect.nearest?, List.findSome?_cons, hname, h.find?_eq_some hd, heq,
        Aspect.effective_derive, Option.bind_some]
      cases aspect.supplied d with
      | none => exact ih hbase
      | some function => rfl

end Grown

/-- After any requests, starting from the universal type, the registered types are those of the
definitions that were accepted, newest first, and last the universal type; their names are
different, and each but the universal type is derived from the registered type that its definition
names. Each function of a registered type is the one that was supplied by the first type on its line
whose definition supplied one, or that of the universal type if none did. No later request changes
it: the type stays registered and is found under its name. A new engine that is asked for the types
has this registry. -/
theorem effective_afterAll (requests : List TypeRequest) :
    (initial.afterAll requests).newestFirst.map Classifier.name =
      ((initial.accepted requests).map Definition.name).reverse ++ [Classifier.universalName] ∧
    ((initial.afterAll requests).newestFirst.map Classifier.name).Nodup ∧
    (∀ type ∈ (initial.afterAll requests).newestFirst,
      (type = .universal ∨ ∃ d ∈ initial.accepted requests,
        ∃ base ∈ (initial.afterAll requests).newestFirst,
          base.name = d.base.getD Classifier.universalName ∧ type.name = d.name ∧
            type.base? = some base) ∧
      (∀ aspect : Aspect, aspect.effective type =
        (aspect.nearest? (initial.accepted requests) type.lineage).getD
          (aspect.effective .universal)) ∧
      ∀ later, type ∈ (initial.afterAll (requests ++ later)).newestFirst ∧
        (initial.afterAll (requests ++ later)).byName.get? type.name = some type) ∧
    ∀ settings, ((Engine.create settings).afterAll
      (requests.map fun request => .type request.given request.fields)).classifiers =
        initial.afterAll requests := by
  have hgrown (requests : List TypeRequest) :
      Grown (initial.accepted requests) (initial.afterAll requests) :=
    Grown.initial.afterAll requests
  have h := hgrown requests
  refine ⟨h.names, h.indexed.distinct,
    fun type hmem => ⟨?_, h.effective_eq hmem, fun later => ?_⟩,
    fun settings => classifiers_afterAll (Engine.create settings) requests⟩
  · refine (h.derived type hmem).imp_right ?_
    rintro ⟨d, hd, base, hbase, hname, rfl⟩
    exact ⟨d, hd, base, hbase, hname, rfl, rfl⟩
  · have hlater : type ∈ (initial.afterAll (requests ++ later)).newestFirst := by
      rw [afterAll_append]
      exact mem_afterAll hmem later
    exact ⟨hlater, (hgrown _).indexed.indexed.2 ⟨hlater, rfl⟩⟩

-- Integers, integers that are all equal, and these with no difference to show.
private def integerType : Definition :=
  ⟨['i'], none, some ⟨.given 0, .kinds [.integer]⟩, none, none, none⟩

private def unitType : Definition :=
  ⟨['u'], some ['i'], none, some ⟨.given 1, .constant true⟩, none, none⟩

private def silentType : Definition :=
  ⟨['s'], some ['u'], none, none, none, some ⟨.given 2, .nothing⟩⟩

-- A second definition of integers and one on a base that is unknown are refused in between.
private def lineRequests : List TypeRequest :=
  [integerType, { unitType with name := ['i'] }, unitType, { silentType with base := some ['n'] },
    silentType].map fun d => ⟨.inl d, .empty⟩

/-- The last of three types, each with the one before as its base, has a function of each of them
and one of the universal type. -/
theorem effective_silentType :
    ∃ type ∈ (initial.afterAll lineRequests).newestFirst,
      type.lineage.map Classifier.name = [['s'], ['u'], ['i'], Classifier.universalName] ∧
      Aspect.effective .identify type = ⟨.given 0, .kinds [.integer]⟩ ∧
      Aspect.effective .equal type = ⟨.given 1, .constant true⟩ ∧
      Aspect.effective .inspect type = Aspect.effective .inspect .universal ∧
      Aspect.effective .diff type = ⟨.given 2, .nothing⟩ ∧
      ∀ later, (initial.afterAll (lineRequests ++ later)).byName.get? ['s'] = some type := by
  have hmem : silentType.derive (unitType.derive (integerType.derive .universal)) ∈
      (initial.afterAll lineRequests).newestFirst :=
    List.mem_cons_self
  obtain ⟨-, heffective, hlater⟩ :=
    (effective_afterAll lineRequests).2.2.1 _ hmem
  exact ⟨_, hmem, rfl, heffective .identify, heffective .equal, heffective .inspect,
    heffective .diff, fun later => (hlater later).2⟩

end ClassifierRegistry

end Expectation

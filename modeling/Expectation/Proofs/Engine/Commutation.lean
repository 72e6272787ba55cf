import Expectation.Proofs.Assertion.Reordering
import Expectation.Proofs.Engine.History

/-!
# Registrations in other orders

Calls that register assertions and all succeed do so in every order. Whichever it is, the same names
stand for the same rules of the same types.
-/

namespace Expectation.Engine

/-- The engine after calls that register assertions, each from values as they are at its time. The
first that fails ends them. -/
def addAssertions (e : Engine) : List (Store × List Ref) → Except Fault Engine
  | [] => .ok e
  | call :: calls =>
    match e.addAssertion call.1 call.2 with
    | .ok e' => e'.addAssertions calls
    | .error cause => .error cause

/-- Two engines differ at most in the order of their rules. -/
def Reordered (e e' : Engine) : Prop :=
  ∃ registry, e.assertions.Reordered registry ∧ e' = { e with assertions := registry }

section

variable {e e' e₁ e₂ : Engine} {call call' : Store × List Ref}
  {calls calls' : List (Store × List Ref)}

/-- Two engines that differ at most in the order of their rules have the same types. -/
theorem Reordered.get_eq (h : e.Reordered e') (name : Text) :
    e'.classifiers.get name = e.classifiers.get name := by
  obtain ⟨registry, -, rfl⟩ := h
  rfl

/-- Whatever the order of rules is, the same is found in them. -/
theorem Reordered.same_rules (h : e.Reordered e') :
    (∀ type name, e'.assertions.resolve? type name = e.assertions.resolve? type name) ∧
      e'.listing = e.listing ∧
      ∀ name types, e'.assertions.definedFor name types = e.assertions.definedFor name types := by
  obtain ⟨registry, hregistry, rfl⟩ := h
  refine ⟨fun type name => hregistry.findOn?_eq name type.lineage, ?_, hregistry.definedFor_eq⟩
  exact congrArg (Text.joinWith ['\n']) hregistry.allNames_eq

theorem Reordered.trans (h : e.Reordered e₁) (h' : e₁.Reordered e₂) : e.Reordered e₂ := by
  obtain ⟨registry, hregistry, rfl⟩ := h
  obtain ⟨registry', hregistry', rfl⟩ := h'
  exact ⟨registry', hregistry.trans hregistry', rfl⟩

/-- A call succeeds if what it asks for can be registered. -/
theorem addAssertion_eq_ok_of_register {s : Store} {arguments : List Ref}
    {request : AssertionRequest} {registry : AssertionRegistry}
    (hrequest : e.request s arguments = .ok request)
    (hregister : e.assertions.register request.types request.patterns request.handler =
      .ok registry) :
    e.addAssertion s arguments = .ok { e with assertions := registry } := by
  rw [addAssertion_eq, hrequest]
  dsimp only [Except.bind]
  rw [hregister]

/-- Calls that all succeed are a first one that does and others after it. -/
theorem addAssertions_cons_eq_ok_iff :
    e.addAssertions (call :: calls) = .ok e' ↔
      ∃ e₁, e.addAssertion call.1 call.2 = .ok e₁ ∧ e₁.addAssertions calls = .ok e' := by
  rw [addAssertions]
  cases e.addAssertion call.1 call.2 with
  | ok e₁ => simp
  | error cause => simp

/-- The order of the rules before a call does not matter to it. -/
theorem Reordered.addAssertion (hr : e.Reordered e₁) (h : e.addAssertion call.1 call.2 = .ok e') :
    ∃ e₂, e₁.addAssertion call.1 call.2 = .ok e₂ ∧ e'.Reordered e₂ := by
  obtain ⟨request, hrequest, hregister, heq⟩ := exists_of_addAssertion_eq_ok h
  rw [← request_congr hr.get_eq] at hrequest
  obtain ⟨registry, hregistry, rfl⟩ := hr
  obtain ⟨registry', hregister', hregistry'⟩ := hregistry.register hregister
  refine ⟨_, addAssertion_eq_ok_of_register hrequest hregister', registry', hregistry', ?_⟩
  rw [heq]

/-- The order of the rules before calls does not matter to them. -/
theorem Reordered.addAssertions (hr : e.Reordered e₁) (h : e.addAssertions calls = .ok e') :
    ∃ e₂, e₁.addAssertions calls = .ok e₂ ∧ e'.Reordered e₂ := by
  induction calls generalizing e e₁ with
  | nil =>
    cases h
    exact ⟨e₁, rfl, hr⟩
  | cons call calls ih =>
    obtain ⟨next, hcall, hcalls⟩ := addAssertions_cons_eq_ok_iff.1 h
    obtain ⟨next₁, hcall₁, hnext⟩ := hr.addAssertion hcall
    obtain ⟨e₂, hcalls₁, he₂⟩ := ih hnext hcalls
    exact ⟨e₂, addAssertions_cons_eq_ok_iff.2 ⟨next₁, hcall₁, hcalls₁⟩, he₂⟩

/-- Two calls that succeed one after the other do so in the other order. -/
theorem addAssertion_swap (h : e.addAssertion call.1 call.2 = .ok e₁)
    (h' : e₁.addAssertion call'.1 call'.2 = .ok e₂) :
    ∃ e₃ e₄, e.addAssertion call'.1 call'.2 = .ok e₃ ∧ e₃.addAssertion call.1 call.2 = .ok e₄ ∧
      e₂.Reordered e₄ := by
  obtain ⟨request, hrequest, hregister, heq⟩ := exists_of_addAssertion_eq_ok h
  obtain ⟨request', hrequest', hregister', heq'⟩ := exists_of_addAssertion_eq_ok h'
  obtain ⟨registry₃, registry₄, hthird, hfourth, hregistry⟩ :=
    AssertionRegistry.register_swap hregister hregister'
  -- No call changes the types, so that each asks for the same in either order.
  have hsame : ∀ name, e₁.classifiers.get name = e.classifiers.get name := by
    intro name
    rw [heq]
  rw [request_congr hsame] at hrequest'
  have hcall' := addAssertion_eq_ok_of_register hrequest' hthird
  have hlater : ({ e with assertions := registry₃ } : Engine).request call.1 call.2 =
      .ok request := by
    rw [← hrequest]
    apply request_congr
    intro name
    rfl
  refine ⟨_, _, hcall', addAssertion_eq_ok_of_register hlater hfourth, registry₄, hregistry, ?_⟩
  rw [heq', heq]

/-- Calls that all succeed do so in every order, and the engines after them differ at most in the
order of their rules. -/
theorem exists_reordered_of_perm (hp : calls.Perm calls') (h : e.addAssertions calls = .ok e') :
    ∃ e₁, e.addAssertions calls' = .ok e₁ ∧ e'.Reordered e₁ := by
  induction hp generalizing e e' with
  | nil => exact ⟨e', h, _, .refl _, rfl⟩
  | cons call _ ih =>
    obtain ⟨next, hcall, hcalls⟩ := addAssertions_cons_eq_ok_iff.1 h
    obtain ⟨e₁, hcalls', he₁⟩ := ih hcalls
    exact ⟨e₁, addAssertions_cons_eq_ok_iff.2 ⟨next, hcall, hcalls'⟩, he₁⟩
  | swap call call' calls =>
    obtain ⟨next, hcall, hrest⟩ := addAssertions_cons_eq_ok_iff.1 h
    obtain ⟨later, hcall', hcalls⟩ := addAssertions_cons_eq_ok_iff.1 hrest
    obtain ⟨next', later', hfirst, hsecond, hlater⟩ := addAssertion_swap hcall hcall'
    obtain ⟨e₁, hcalls', he₁⟩ := hlater.addAssertions hcalls
    have hrest' := addAssertions_cons_eq_ok_iff.2 ⟨later', hsecond, hcalls'⟩
    exact ⟨e₁, addAssertions_cons_eq_ok_iff.2 ⟨next', hfirst, hrest'⟩, he₁⟩
  | trans _ _ ih ih' =>
    obtain ⟨e₁, h₁, he₁⟩ := ih h
    obtain ⟨e₂, h₂, he₂⟩ := ih' h₁
    exact ⟨e₂, h₂, he₁.trans he₂⟩

/-- Calls that register assertions and all succeed do so in every order. In whichever they are made,
each name stands for the same rule of the same type on every type, the engine is written alike, and
each name is defined for the same types. -/
theorem addAssertions_perm (h : e.addAssertions calls = .ok e') (hp : calls.Perm calls') :
    ∃ e₁, e.addAssertions calls' = .ok e₁ ∧
      (∀ type name, e₁.assertions.resolve? type name = e'.assertions.resolve? type name) ∧
      e₁.listing = e'.listing ∧
      ∀ name types, e₁.assertions.definedFor name types = e'.assertions.definedFor name types := by
  obtain ⟨e₁, h₁, hr⟩ := exists_reordered_of_perm hp h
  exact ⟨e₁, h₁, hr.same_rules⟩

end

-- An engine with a type `p`, on which `b` is registered after `a` and `b` are on the universal one.
private def withSpecial : Engine :=
  (create .default).attempt (.type (.inl ⟨['p'], none, none, none, none, none⟩) .empty)

private def overlapping : List (Store × List Ref) :=
  let s : Store := ⟨#[.handler 0, .handler 1, .text "(a|b)".toList], #[]⟩
  [(s, [.cell 2, .cell 0]), (s, [.char 'p', .char 'b', .cell 1])]

/-- A type and its base are given a common name in either order. -/
theorem addAssertions_overlapping :
    ∃ e' e₁, withSpecial.addAssertions overlapping = .ok e' ∧
      withSpecial.addAssertions overlapping.reverse = .ok e₁ ∧
      (∀ type name, e₁.assertions.resolve? type name = e'.assertions.resolve? type name) ∧
      e₁.listing = e'.listing ∧
      ∀ name types, e₁.assertions.definedFor name types = e'.assertions.definedFor name types := by
  cases h : withSpecial.addAssertions overlapping with
  | ok e' =>
    obtain ⟨e₁, h₁, hsame⟩ := addAssertions_perm h overlapping.reverse_perm.symm
    exact ⟨e', e₁, rfl, h₁, hsame⟩
  | error cause =>
    have hok : (withSpecial.addAssertions overlapping).isOk = true := by decide +kernel
    rw [h] at hok
    cases hok

end Expectation.Engine

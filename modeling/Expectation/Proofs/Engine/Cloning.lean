import Expectation.Proofs.Engine.Evolution
import Expectation.Proofs.Session.Formats

/-!
# Clones of engines

A clone lists the types of its engine and indexes them anew, copies the rules, and is made with the
format of the engine as if that were given. So it answers as the engine does if no two types have
one name and the format has a name; and it goes on to do so where both receive the same calls.
-/

namespace Expectation

/-- A call that changes an engine. -/
inductive Change where
  | registration (call : Registration)
  | format (s : Store) (value : Ref)

namespace Engine

/-- How a call ends. -/
def change (e : Engine) : Change → Except Fault Engine
  | .registration call => e.register call
  | .format s value => e.setFormat s value

/-- The engine after a call, which leaves it as it was if it fails. -/
def afterChange (e : Engine) (call : Change) : Engine :=
  match e.change call with
  | .ok e' => e'
  | .error _ => e

/-- The engine after calls, in order. -/
def afterChanges (e : Engine) (calls : List Change) : Engine := calls.foldl afterChange e

/-- How calls end, one made after the other. -/
def endings (e : Engine) : List Change → List (Except Fault Unit)
  | [] => []
  | call :: calls => (e.change call).map (fun _ => ()) :: (e.afterChange call).endings calls

/-- An engine is made with the universal type or without any, and perhaps with a format. -/
inductive Made : Engine → Prop
  | universal (settings : Settings) (given : Option Text) : Made (ofTypes .initial settings given)
  | empty (settings : Settings) (given : Option Text) : Made (ofTypes (.ofList []) settings given)

/-- Two engines have the same types and rules, settings and formats, but may have indexed their
types in different orders. -/
structure Alike (e e' : Engine) : Prop where
  settings : e'.settings = e.settings
  types : e'.classifiers.newestFirst = e.classifiers.newestFirst
  index : ∀ name, e'.classifiers.byName.get? name = e.classifiers.byName.get? name
  assertions : e'.assertions = e.assertions
  format : e'.format = e.format

/-- A call ends alike on two engines: with the same error, or with engines that are alike. -/
inductive EndAlike : Except Fault Engine → Except Fault Engine → Prop
  | ok {e e' : Engine} (h : e.Alike e') : EndAlike (.ok e) (.ok e')
  | error (cause : Fault) : EndAlike (.error cause) (.error cause)

/-- Two engines answer the same about types, rules, names and formats, and every call ends the same
on both. -/
structure SameAnswers (e e' : Engine) : Prop where
  types : e'.classifiers.newestFirst = e.classifiers.newestFirst
  typeNamed : ∀ name, e'.classifiers.get name = e.classifiers.get name
  resolve : ∀ s value, e'.classifiers.resolve s value = e.classifiers.resolve s value
  resolveCommon : ∀ s a b, e'.classifiers.resolveCommon s a b = e.classifiers.resolveCommon s a b
  rule : ∀ type name, e'.assertions.resolve? type name = e.assertions.resolve? type name
  names : ∀ typeName, e'.assertions.names typeName = e.assertions.names typeName
  listing : e'.listing = e.listing
  shown : e'.shown = e.shown
  definedFor : ∀ name types,
    e'.assertions.definedFor name types = e.assertions.definedFor name types
  suggestion : ∀ s subject asked, suggest s subject asked e'.classifiers e'.assertions =
    suggest s subject asked e.classifiers e.assertions
  format : e'.format = e.format
  ending : ∀ call, (e'.change call).map (fun _ => ()) = (e.change call).map fun _ => ()

/-- The types of an engine are indexed, and its format has a name. -/
structure Cloneable (e : Engine) : Prop where
  indexed : e.classifiers.Indexed
  format_ne_nil : e.format ≠ []

variable {e e' : Engine}

theorem afterChanges_append (e : Engine) (calls calls' : List Change) :
    e.afterChanges (calls ++ calls') = (e.afterChanges calls).afterChanges calls' :=
  List.foldl_append

namespace Cloneable

theorem of_made (h : e.Made) : e.Cloneable := by
  cases h with
  | universal settings given =>
    exact ⟨.ofList (List.nodup_singleton _), firstFormat_ne_nil settings given⟩
  | empty settings given => exact ⟨.ofList List.nodup_nil, firstFormat_ne_nil settings given⟩

/-- A registration, successful or not, leaves the types indexed. -/
theorem attempt (h : e.Cloneable) (call : Registration) : (e.attempt call).Cloneable := by
  refine ⟨?_, (attempt_format e call).2.symm ▸ h.format_ne_nil⟩
  rw [Engine.attempt]
  cases hcall : e.register call with
  | error cause => exact h.indexed
  | ok e' =>
    cases call with
    | type given fields =>
      obtain ⟨d, base, -, hnew, -, rfl⟩ :=
        exists_of_addType_eq_ok (register_type_eq_ok_iff.1 hcall)
      exact h.indexed.cons (d.derive base) hnew
    | assertion s arguments =>
      show e'.classifiers.Indexed
      rw [(addAssertion_eq_ok hcall).1]
      exact h.indexed

/-- A format that is set has a name. -/
theorem afterFormat (h : e.Cloneable) (s : Store) (value : Ref) :
    (e.afterFormat s value).Cloneable := by
  rw [afterFormat_eq]
  refine ⟨h.indexed, ?_⟩
  cases formatNamed? s value with
  | none => exact h.format_ne_nil
  | some format => exact format.name_ne_nil

theorem afterChange (h : e.Cloneable) (call : Change) : (e.afterChange call).Cloneable := by
  cases call with
  | registration call => exact h.attempt call
  | format s value => exact h.afterFormat s value

theorem afterChanges (h : e.Cloneable) (calls : List Change) :
    (e.afterChanges calls).Cloneable := by
  induction calls generalizing e with
  | nil => exact h
  | cons call calls ih => exact ih (h.afterChange call)

/-- A clone is like its engine. -/
theorem alike_clone (h : e.Cloneable) : e.Alike e.clone where
  settings := rfl
  types := rfl
  index := h.indexed.get?_copy
  assertions := e.assertions.copy_eq
  format := firstFormat_some h.format_ne_nil e.settings

end Cloneable

namespace Alike

theorem refl (e : Engine) : e.Alike e := ⟨rfl, rfl, fun _ => rfl, rfl, rfl⟩

/-- The same type is found under each name. -/
theorem get_eq (h : e.Alike e') (name : Text) :
    e'.classifiers.get name = e.classifiers.get name := by
  rw [ClassifierRegistry.get, ClassifierRegistry.get, h.index]

/-- A definition is accepted with the same base, or refused alike. -/
theorem define (h : e.Alike e') (d : Definition) :
    EndAlike ((e.define d).mapError .configuration) ((e'.define d).mapError .configuration) := by
  have htaken : e'.classifiers.byName.contains d.name = e.classifiers.byName.contains d.name := by
    rw [Table.contains, Table.contains, h.index]
  have hbase : e'.classifiers.baseOf d = e.classifiers.baseOf d := by
    unfold ClassifierRegistry.baseOf
    simp only [h.index]
  rw [Engine.define, Engine.define, ClassifierRegistry.register, ClassifierRegistry.register,
    htaken, hbase]
  cases e.classifiers.byName.contains d.name with
  | true => exact .error _
  | false =>
    cases e.classifiers.baseOf d with
    | error cause => exact .error _
    | ok base =>
      apply EndAlike.ok
      constructor
      case settings => exact h.settings
      case types => exact congrArg (List.cons _) h.types
      case index =>
        intro name
        rw [Table.get?_set, Table.get?_set, h.index]
      case assertions => exact congrArg (·.addType d.name) h.assertions
      case format => exact h.format

/-- Each call ends alike. -/
theorem change (h : e.Alike e') (call : Change) : EndAlike (e.change call) (e'.change call) := by
  cases call with
  | registration call =>
    cases call with
    | type given fields =>
      show EndAlike ((e.addType given fields).mapError .configuration)
        ((e'.addType given fields).mapError .configuration)
      rw [addType, addType]
      cases definitionOf given fields with
      | error cause => exact .error _
      | ok d => exact h.define d
    | assertion s arguments =>
      show EndAlike (e.addAssertion s arguments) (e'.addAssertion s arguments)
      rw [addAssertion_eq, addAssertion_eq, request_congr h.get_eq, h.assertions]
      cases e.request s arguments with
      | error cause => exact .error cause
      | ok request =>
        dsimp only [Except.bind]
        cases e.assertions.register request.types request.patterns request.handler with
        | error cause => exact .error _
        | ok registry => exact .ok ⟨h.settings, h.types, h.index, rfl, h.format⟩
  | format s value =>
    show EndAlike (e.setFormat s value) (e'.setFormat s value)
    rw [setFormat_eq, setFormat_eq]
    cases formatNamed? s value with
    | some format => exact .ok ⟨h.settings, h.types, h.index, h.assertions, rfl⟩
    | none =>
      by_cases hnone : s.node value = .none
      · simp only [hnone, if_true]
        exact .ok h
      · simp only [hnone, if_false]
        exact .error _

theorem ending (h : e.Alike e') (call : Change) :
    (e'.change call).map (fun _ => ()) = (e.change call).map fun _ => () := by
  have hend := h.change call
  generalize e.change call = ending, e'.change call = ending' at hend
  cases hend <;> rfl

theorem afterChange (h : e.Alike e') (call : Change) :
    (e.afterChange call).Alike (e'.afterChange call) := by
  have hend := h.change call
  rw [Engine.afterChange, Engine.afterChange]
  generalize e.change call = ending, e'.change call = ending' at hend
  cases hend with
  | ok h' => exact h'
  | error cause => exact h

/-- Engines that are alike stay so where they receive the same calls. -/
theorem afterChanges (h : e.Alike e') (calls : List Change) :
    (e.afterChanges calls).Alike (e'.afterChanges calls) := by
  induction calls generalizing e e' with
  | nil => exact h
  | cons call calls ih => exact ih (h.afterChange call)

/-- The same calls end alike on engines that are alike. -/
theorem endings_eq (h : e.Alike e') (calls : List Change) :
    e'.endings calls = e.endings calls := by
  induction calls generalizing e e' with
  | nil => rfl
  | cons call calls ih => rw [endings, endings, h.ending, ih (h.afterChange call)]

/-- Engines that are alike answer the same. -/
theorem sameAnswers (h : e.Alike e') : e.SameAnswers e' where
  types := h.types
  typeNamed := h.get_eq
  resolve s value := by rw [ClassifierRegistry.resolve, ClassifierRegistry.resolve, h.types]
  resolveCommon s a b := by
    rw [ClassifierRegistry.resolveCommon, ClassifierRegistry.resolveCommon, h.types]
  rule type name := by rw [h.assertions]
  names typeName := by rw [h.assertions]
  listing := by rw [Engine.listing, Engine.listing, h.assertions]
  shown := by
    -- An equation for `shown` would be sought by computing the texts in it.
    delta Engine.shown
    rw [h.types, h.format]
  definedFor name types := by rw [h.assertions]
  suggestion s subject asked := by
    unfold suggest
    rw [h.types, h.assertions]
  format := h.format
  ending := h.ending

end Alike

end Engine

end Expectation

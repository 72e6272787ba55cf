import Mathlib.Data.List.Nodup
import Expectation.Proofs.Classifier.Resolution
import Expectation.Proofs.Engine.History
import Expectation.Proofs.Table

/-!
# Engines that come about

An engine comes about from a new one by registrations, which may fail, and by being cloned. However
it does, its list of types, the index of their names and the tables of their rules are in step:
every type but the universal one has its base behind it in the list, so that the line of a type runs
down the list to the universal type.
-/

namespace Expectation

/-- Every line of types ends with the universal type. -/
theorem Classifier.getLast?_lineage (type : Classifier) :
    type.lineage.getLast? = some .universal := by
  induction type with
  | universal => rfl
  | derived name behaviour origins base ih =>
    rw [lineage, List.getLast?_cons, ih]
    rfl

/-- Types with different names are indexed each under its name. -/
theorem ClassifierRegistry.get?_ofList {types : List Classifier}
    (h : (types.map Classifier.name).Nodup) {name : Text} {type : Classifier} :
    (ofList types).byName.get? name = some type ↔ type ∈ types ∧ type.name = name := by
  have hkeys : (types.map fun type => (type.name, type)).map Prod.fst =
      types.map Classifier.name := by
    rw [List.map_map]
    rfl
  have hentries : (ofList types).byName.entries = types.map fun type => (type.name, type) :=
    Table.entries_ofList (by rwa [hkeys])
  rw [Table.get?_eq_some_iff, hentries, List.mem_map]
  constructor
  · rintro ⟨found, hmem, heq⟩
    cases heq
    exact ⟨hmem, rfl⟩
  · rintro ⟨hmem, rfl⟩
    exact ⟨type, hmem, rfl⟩

/-- No two types have one name, and the index has the names of the types and no other, each for the
type of that name. -/
structure ClassifierRegistry.Indexed (registry : ClassifierRegistry) : Prop where
  distinct : (registry.newestFirst.map Classifier.name).Nodup
  indexed : ∀ {name type}, registry.byName.get? name = some type ↔
    type ∈ registry.newestFirst ∧ type.name = name

namespace ClassifierRegistry.Indexed

variable {registry : ClassifierRegistry}

theorem ofList {types : List Classifier} (h : (types.map Classifier.name).Nodup) :
    Indexed (ofList types) := ⟨h, get?_ofList h⟩

/-- The index has exactly the names of the types. -/
theorem mem_keys_iff (h : registry.Indexed) {name : Text} :
    name ∈ registry.byName.keys ↔ name ∈ registry.newestFirst.map Classifier.name := by
  rw [← Table.contains_iff_mem_keys, Table.contains, Option.isSome_iff_exists, List.mem_map]
  constructor
  · rintro ⟨type, hget⟩
    exact ⟨type, h.indexed.1 hget⟩
  · rintro ⟨type, hmem⟩
    exact ⟨type, h.indexed.2 hmem⟩

/-- A type with a name of its own is put in front and indexed. -/
theorem cons (h : registry.Indexed) (added : Classifier)
    (hnew : ¬ registry.byName.contains added.name = true) :
    Indexed ⟨added :: registry.newestFirst, registry.byName.set added.name added⟩ := by
  rw [Table.contains_iff_mem_keys, h.mem_keys_iff] at hnew
  refine ⟨List.nodup_cons.2 ⟨hnew, h.distinct⟩, ?_⟩
  intro name type
  rw [Table.get?_set, List.mem_cons]
  by_cases hname : name = added.name
  · rw [if_pos hname]
    constructor
    · intro heq
      cases heq
      exact ⟨.inl rfl, hname.symm⟩
    · rintro ⟨rfl | hmem, htype⟩
      · rfl
      · exact absurd (List.mem_map.2 ⟨type, hmem, htype.trans hname⟩) hnew
  · rw [if_neg hname, h.indexed]
    constructor
    · rintro ⟨hmem, htype⟩
      exact ⟨.inr hmem, htype⟩
    · rintro ⟨rfl | hmem, htype⟩
      · exact absurd htype.symm hname
      · exact ⟨hmem, htype⟩

/-- In a copy the same types are found. -/
theorem get?_copy (h : registry.Indexed) (name : Text) :
    registry.copy.byName.get? name = registry.byName.get? name := by
  apply Option.ext
  intro type
  rw [h.indexed]
  exact get?_ofList h.distinct

/-- The base that a definition names is registered under that name. -/
theorem mem_of_baseOf (h : registry.Indexed) (huniversal : .universal ∈ registry.newestFirst)
    {d : Definition} {base : Classifier} (hbase : registry.baseOf d = .ok base) :
    base ∈ registry.newestFirst ∧ base.name = d.base.getD Classifier.universalName := by
  rw [baseOf] at hbase
  split at hbase
  · next hnone =>
    cases hbase
    exact ⟨huniversal, by rw [hnone]; rfl⟩
  · next name hname =>
    split at hbase
    · next type hget =>
      cases hbase
      obtain ⟨hmem, heq⟩ := h.indexed.1 hget
      exact ⟨hmem, by rw [hname]; exact heq⟩
    · cases hbase

end ClassifierRegistry.Indexed

/-- A copy of the rules is the same rules. -/
theorem AssertionRegistry.copy_eq (registry : AssertionRegistry) : registry.copy = registry := by
  rw [copy, Table.ofList_entries]

namespace Engine

/-- An engine comes about from a new one by registrations, successful or not, and clones. -/
inductive Reached (settings : Settings) : Engine → Prop
  | create : Reached settings (create settings)
  | attempt {e : Engine} (h : Reached settings e) (call : Registration) :
      Reached settings (e.attempt call)
  | clone {e : Engine} (h : Reached settings e) : Reached settings e.clone

/-- The list of types, the index of their names and the tables of rules agree. -/
structure InStep (e : Engine) : Prop where
  distinct : (e.classifiers.newestFirst.map Classifier.name).Nodup
  indexed : ∀ {name type}, e.classifiers.byName.get? name = some type ↔
    type ∈ e.classifiers.newestFirst ∧ type.name = name
  rooted : ∃ derived, e.classifiers.newestFirst = derived ++ [.universal] ∧
    ∀ type ∈ derived, type.isUniversal = false
  based : ∀ {newer type older base}, e.classifiers.newestFirst = newer ++ type :: older →
    type.base? = some base → base ∈ older
  tabled : ∀ {name}, name ∈ e.assertions.tables.keys ↔
    name ∈ e.classifiers.newestFirst.map Classifier.name

namespace InStep

variable {e e' : Engine}

/-- The universal type is registered. -/
theorem universal_mem (h : e.InStep) : .universal ∈ e.classifiers.newestFirst := by
  obtain ⟨derived, hlist, -⟩ := h.rooted
  rw [hlist]
  exact List.mem_concat_self

theorem types_indexed (h : e.InStep) : e.classifiers.Indexed := ⟨h.distinct, h.indexed⟩

/-- The line of a type runs down the list from the type. -/
theorem lineage_sublist (h : e.InStep) {newer older : List Classifier} {type : Classifier}
    (hlist : e.classifiers.newestFirst = newer ++ type :: older) :
    type.lineage.Sublist (type :: older) := by
  induction type generalizing newer older with
  | universal => exact (List.nil_sublist older).cons_cons _
  | derived name behaviour origins base ih =>
    obtain ⟨between, oldest, rfl⟩ := List.append_of_mem (h.based hlist rfl)
    have hbase : e.classifiers.newestFirst =
        (newer ++ .derived name behaviour origins base :: between) ++ base :: oldest := by
      rw [hlist, List.append_assoc]
      rfl
    apply List.Sublist.cons_cons
    exact (ih hbase).trans (List.sublist_append_right _ _)

/-- A new engine is in step. -/
theorem create (settings : Settings) : (Engine.create settings).InStep where
  distinct := List.nodup_singleton _
  indexed := ClassifierRegistry.get?_ofList
    (show ([Classifier.universal].map Classifier.name).Nodup from List.nodup_singleton _)
  rooted := ⟨[], rfl, by simp⟩
  based := by
    intro newer type older base hlist hbase
    have hmem : type ∈ [Classifier.universal] := by
      change [Classifier.universal] = newer ++ type :: older at hlist
      rw [hlist]
      simp
    rw [List.mem_singleton.1 hmem] at hbase
    cases hbase
  tabled := Iff.rfl

/-- A type that is added keeps an engine in step. -/
theorem addType (h : e.InStep) {given : Definition ⊕ Proposal} {fields : Proposal}
    (hok : e.addType given fields = .ok e') : e'.InStep := by
  obtain ⟨d, base, -, hnew, hbase, rfl⟩ := exists_of_addType_eq_ok hok
  have hindexed := h.types_indexed.cons (d.derive base) hnew
  rw [Table.contains_iff_mem_keys, h.types_indexed.mem_keys_iff] at hnew
  constructor
  case distinct => exact hindexed.distinct
  case indexed => exact hindexed.indexed
  case rooted =>
    obtain ⟨derived, hlist, hderived⟩ := h.rooted
    refine ⟨d.derive base :: derived, by rw [hlist, List.cons_append], ?_⟩
    exact List.forall_mem_cons.2 ⟨rfl, hderived⟩
  case based =>
    intro newer type older other hlist hother
    cases newer with
    | nil =>
      cases hlist
      cases hother
      exact (h.types_indexed.mem_of_baseOf h.universal_mem hbase).1
    | cons first newer =>
      obtain ⟨-, hrest⟩ := List.cons.inj hlist
      exact h.based hrest hother
  case tabled =>
    intro name
    have hroom : d.name ∉ e.assertions.tables.keys := fun hmem => hnew (h.tabled.1 hmem)
    rw [AssertionRegistry.addType, Table.keys_setNew, if_neg hroom, List.mem_append,
      List.mem_singleton, h.tabled, or_comm]
    exact List.mem_cons.symm

/-- An assertion that is registered keeps an engine in step. -/
theorem addAssertion (h : e.InStep) {s : Store} {arguments : List Ref}
    (hok : e.addAssertion s arguments = .ok e') : e'.InStep := by
  obtain ⟨hclassifiers, request, -, hregister⟩ := addAssertion_eq_ok hok
  obtain ⟨-, -, -, -, hkeys, -⟩ := AssertionRegistry.entries_of_register hregister
  constructor
  case distinct => exact hclassifiers ▸ h.distinct
  case indexed => exact hclassifiers ▸ h.indexed
  case rooted => exact hclassifiers ▸ h.rooted
  case based => exact hclassifiers ▸ h.based
  case tabled => exact hkeys ▸ hclassifiers ▸ h.tabled

/-- A call keeps an engine in step, also if it fails. -/
theorem attempt (h : e.InStep) (call : Registration) : (e.attempt call).InStep := by
  rw [Engine.attempt]
  cases hcall : e.register call with
  | error cause => exact h
  | ok e' =>
    cases call with
    | type given fields => exact h.addType (register_type_eq_ok_iff.1 hcall)
    | assertion s arguments => exact h.addAssertion hcall

/-- Calls keep an engine in step. -/
theorem afterAll (h : e.InStep) (calls : List Registration) : (e.afterAll calls).InStep := by
  induction calls generalizing e with
  | nil => exact h
  | cons call calls ih => exact ih (h.attempt call)

/-- A clone is in step. -/
theorem clone (h : e.InStep) : e.clone.InStep where
  distinct := h.distinct
  indexed := ClassifierRegistry.get?_ofList h.distinct
  rooted := h.rooted
  based := h.based
  tabled := by
    intro name
    change name ∈ e.assertions.copy.tables.keys ↔ _
    rw [AssertionRegistry.copy_eq]
    exact h.tabled

end InStep

/-- Whatever was registered and however often it was cloned, an engine is in step. -/
theorem Reached.inStep {settings : Settings} {e : Engine} (h : Reached settings e) : e.InStep := by
  induction h with
  | create => exact .create settings
  | attempt _ call ih => exact ih.attempt call
  | clone _ ih => exact ih.clone

end Engine

end Expectation

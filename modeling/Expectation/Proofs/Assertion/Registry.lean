import Expectation.Assertion.Registry

/-!
# Rules and names

The patterns of a registration are accepted or refused together, and their expansions come in order;
the first one of a name gives its rule. A name is looked up along the line of types that a type is
derived from.
-/

namespace Expectation

/-- The expansions of patterns in order, each with its pattern. -/
def Pattern.expansions (patterns : List Text) : List (Text × Expansion) :=
  patterns.flatMap fun pattern => ((expand? pattern).getD []).map fun e => (pattern, e)

/-- An expansion comes from one of the patterns. -/
theorem Pattern.mem_expansions_iff {patterns : List Text} {expansion : Text × Expansion} :
    expansion ∈ expansions patterns ↔ expansion.1 ∈ patterns ∧
      ∃ found, expand? expansion.1 = some found ∧ expansion.2 ∈ found := by
  obtain ⟨pattern, e⟩ := expansion
  constructor
  · intro h
    obtain ⟨pattern, hpattern, h⟩ := List.mem_flatMap.1 h
    obtain ⟨e, he, heq⟩ := List.mem_map.1 h
    cases heq
    cases hexpand : expand? pattern with
    | none => simp [hexpand] at he
    | some found =>
      rw [hexpand] at he
      exact ⟨hpattern, found, rfl, he⟩
  · rintro ⟨hpattern, found, hexpand, he⟩
    refine List.mem_flatMap.2 ⟨pattern, hpattern, List.mem_map.2 ⟨e, ?_, rfl⟩⟩
    rw [hexpand]
    exact he

namespace AssertionRegistry

/-- The rule of a name among expansions: the first of them that has the name gives it. -/
def firstRule? (handler : HandlerId) (expansions : List (Text × Expansion)) (name : Text) :
    Option Rule :=
  (expansions.find? (·.2.text = name)).map fun found => ⟨handler, found.2.flags, found.1⟩

/-- Patterns are all accepted exactly if they are texts without faults, none of which declares an
empty name; their expansions come in order. -/
theorem expandAll_eq_ok_iff {patterns : List (Option Text)}
    {expansions : List (Text × Expansion)} :
    expandAll patterns = .ok expansions ↔ ∃ texts, patterns = texts.map some ∧
      (∀ pattern ∈ texts, Pattern.Valid pattern ∧ (Pattern.expand? pattern).isSome) ∧
        expansions = Pattern.expansions texts := by
  constructor
  · intro h
    induction patterns generalizing expansions with
    | nil =>
      cases h
      exact ⟨[], rfl, by simp, rfl⟩
    | cons pattern patterns ih =>
      cases pattern with
      | none => cases h
      | some pattern =>
        rw [expandAll] at h
        split at h
        · cases h
        · next hvalid =>
          split at h
          · cases h
          · next found hfound =>
            split at h
            · next others hothers =>
              cases h
              obtain ⟨texts, rfl, haccepted, rfl⟩ := ih hothers
              refine ⟨pattern :: texts, rfl, ?_, by simp [Pattern.expansions, hfound]⟩
              exact List.forall_mem_cons.2 ⟨⟨hvalid, by rw [hfound]; rfl⟩, haccepted⟩
            · cases h
  · rintro ⟨texts, rfl, haccepted, rfl⟩
    induction texts with
    | nil => rfl
    | cons pattern texts ih =>
      obtain ⟨⟨hvalid, hsome⟩, hrest⟩ := List.forall_mem_cons.1 haccepted
      obtain ⟨found, hfound⟩ := Option.isSome_iff_exists.1 hsome
      rw [Pattern.Valid] at hvalid
      rw [List.map_cons, expandAll, hvalid, hfound, ih hrest]
      simp [Pattern.expansions, hfound]

/-- No name among expansions that make new rules is in the table. -/
theorem contains_of_newRules {table : RuleTable} {owner : Option Text} {handler : HandlerId}
    {seen : List Text} {expansions : List (Text × Expansion)} {rules : List (Text × Rule)}
    (h : newRules table owner handler seen expansions = .ok rules) :
    ∀ expansion ∈ expansions, table.contains expansion.2.text = false := by
  induction expansions generalizing seen rules with
  | nil => simp
  | cons expansion rest ih =>
    intro other hother
    rw [newRules] at h
    split at h
    · cases h
    · next hnew =>
      rcases List.mem_cons.1 hother with rfl | hother
      · simpa using hnew
      · split at h
        · exact ih h other hother
        · split at h
          · next hrest => exact ih hrest other hother
          · cases h

/-- A rule that is added is set in the table of its type, if it is new there. -/
theorem rules_addRule (registry : AssertionRegistry) (owner name : Text) (rule : Rule)
    (typeName : Text) :
    (registry.addRule owner name rule).rules typeName =
      if typeName = owner then (registry.rules owner).setNew name rule
      else registry.rules typeName := by
  rw [rules, addRule, Table.get?_set]
  by_cases h : typeName = owner
  · simp [h]
  · simp [h, rules]

/-- Room for the rules of a type changes no rule. -/
theorem rules_addType (registry : AssertionRegistry) (added typeName : Text) :
    (registry.addType added).rules typeName = registry.rules typeName := by
  rw [rules, addType, Table.get?_setNew]
  by_cases h : typeName = added
  · subst h
    rw [if_pos rfl, rules]
    rfl
  · rw [if_neg h, rules]

/-- A name is found on the nearest type of a line that has it. -/
theorem findOn?_eq_some_iff {registry : AssertionRegistry} {name : Text} {types : List Classifier}
    {owner : Classifier} {rule : Rule} :
    registry.findOn? name types = some (owner, rule) ↔
      ∃ nearer farther, types = nearer ++ owner :: farther ∧
        (∀ type ∈ nearer, registry.find? type name = none) ∧
          registry.find? owner name = some rule := by
  induction types with
  | nil => simp [findOn?]
  | cons type types ih =>
    rw [findOn?]
    cases hfind : registry.find? type name with
    | some found =>
      dsimp only
      constructor
      · intro h
        cases h
        exact ⟨[], types, rfl, by simp, hfind⟩
      · rintro ⟨nearer, farther, heq, hnone, howner⟩
        cases nearer with
        | nil =>
          cases heq
          rw [hfind] at howner
          cases howner
          rfl
        | cons first nearer =>
          cases heq
          have hnone := hnone type List.mem_cons_self
          rw [hfind] at hnone
          cases hnone
    | none =>
      dsimp only
      rw [ih]
      constructor
      · rintro ⟨nearer, farther, rfl, hnone, howner⟩
        refine ⟨type :: nearer, farther, rfl, ?_, howner⟩
        intro other hother
        rcases List.mem_cons.1 hother with rfl | hother
        · exact hfind
        · exact hnone other hother
      · rintro ⟨nearer, farther, heq, hnone, howner⟩
        cases nearer with
        | nil =>
          cases heq
          rw [hfind] at howner
          cases howner
        | cons first nearer =>
          cases heq
          exact ⟨nearer, farther, rfl, fun other hother =>
            hnone other (List.mem_cons_of_mem _ hother), howner⟩

/-- A name is not found exactly if no type of the line has it. -/
theorem findOn?_eq_none_iff {registry : AssertionRegistry} {name : Text}
    {types : List Classifier} :
    registry.findOn? name types = none ↔ ∀ type ∈ types, registry.find? type name = none := by
  induction types with
  | nil => simp [findOn?]
  | cons type types ih =>
    rw [findOn?]
    cases hfind : registry.find? type name with
    | some found => simp [hfind]
    | none => simp [hfind, ih]

end AssertionRegistry

end Expectation

import Expectation.Proofs.Assertion.Registry

/-!
# Adding rules

A registration is refused exactly if there is no handler, some pattern is refused, some type has no
table, or some name is taken on one of the types. Otherwise each of its types gets, at the end of
its table, one rule for each name among the expansions, in their order; nothing else changes.
-/

namespace Expectation

namespace Table

variable {κ ν : Type} [DecidableEq κ]

/-- Set every entry of a list whose key is new, in order. -/
def setAllNew (t : Table κ ν) (entries : List (κ × ν)) : Table κ ν :=
  entries.foldl (fun t entry => t.setNew entry.1 entry.2) t

/-- Entries of different keys that are set where they are new go to the end, as far as they are. -/
theorem entries_setAllNew {t : Table κ ν} {entries : List (κ × ν)}
    (hn : (entries.map Prod.fst).Nodup) :
    (t.setAllNew entries).entries = t.entries ++ entries.filter (·.1 ∉ t.keys) := by
  induction entries generalizing t with
  | nil => simp [setAllNew]
  | cons entry entries ih =>
    rw [List.map_cons, List.nodup_cons] at hn
    have hrest : (t.setAllNew (entry :: entries)).entries =
        (t.setNew entry.1 entry.2).entries ++
          entries.filter (·.1 ∉ (t.setNew entry.1 entry.2).keys) := ih hn.2
    rw [hrest]
    by_cases hmem : entry.1 ∈ t.keys
    · have hold : t.setNew entry.1 entry.2 = t := by
        rw [setNew, if_pos ((t.contains_iff_mem_keys _).2 hmem)]
      rw [hold, List.filter_cons_of_neg (by simpa using hmem)]
    · have hentries : (t.setNew entry.1 entry.2).entries = t.entries ++ [entry] := by
        rw [setNew, if_neg fun hc => hmem ((t.contains_iff_mem_keys _).1 hc), set,
          dif_neg fun hc => hmem ((t.contains_iff_mem_keys _).1 hc)]
      have hlater : entries.filter (·.1 ∉ (t.setNew entry.1 entry.2).keys) =
          entries.filter (·.1 ∉ t.keys) := by
        refine List.filter_congr fun other hother => ?_
        have hne : other.1 ≠ entry.1 := fun heq => hn.1 (heq ▸ List.mem_map_of_mem hother)
        simp [keys_setNew, hmem, hne]
      rw [hentries, hlater, List.filter_cons_of_pos (by simpa using hmem), List.append_assoc]
      rfl

end Table

namespace AssertionRegistry

/-- The expansions whose name no earlier one has, in order. -/
def firstOfEach : List (Text × Expansion) → List (Text × Expansion)
  | [] => []
  | expansion :: rest =>
    expansion :: (firstOfEach rest).filter (·.2.text ≠ expansion.2.text)

/-- The rule of an expansion under its name. -/
def ruleOf (handler : HandlerId) (expansion : Text × Expansion) : Text × Rule :=
  (expansion.2.text, ⟨handler, expansion.2.flags, expansion.1⟩)

/-- The rules of expansions by name: one for each name, that of the first expansion that has it. -/
def gained (handler : HandlerId) (expansions : List (Text × Expansion)) : List (Text × Rule) :=
  (firstOfEach expansions).map (ruleOf handler)

private theorem mem_of_mem_firstOfEach {expansions : List (Text × Expansion)}
    {expansion : Text × Expansion} (h : expansion ∈ firstOfEach expansions) :
    expansion ∈ expansions := by
  induction expansions with
  | nil => exact h
  | cons first rest ih =>
    rcases List.mem_cons.1 h with rfl | h
    · simp
    · exact List.mem_cons_of_mem _ (ih (List.mem_filter.1 h).1)

/-- No name has two rules. -/
theorem nodup_gained (handler : HandlerId) (expansions : List (Text × Expansion)) :
    ((gained handler expansions).map Prod.fst).Nodup := by
  rw [gained, List.map_map]
  induction expansions with
  | nil => exact List.nodup_nil
  | cons first rest ih =>
    rw [firstOfEach, List.map_cons, List.nodup_cons]
    refine ⟨?_, (List.filter_sublist.map _).nodup ih⟩
    intro hmem
    obtain ⟨other, hother, heq⟩ := List.mem_map.1 hmem
    exact (of_decide_eq_true (List.mem_filter.1 hother).2) heq

/-- Every rule has the name of an expansion. -/
theorem exists_expansion_of_mem_gained {handler : HandlerId}
    {expansions : List (Text × Expansion)} {rule : Text × Rule}
    (h : rule ∈ gained handler expansions) :
    ∃ expansion ∈ expansions, expansion.2.text = rule.1 := by
  obtain ⟨expansion, hmem, rfl⟩ := List.mem_map.1 h
  exact ⟨expansion, mem_of_mem_firstOfEach hmem, rfl⟩

private theorem find?_firstOfEach (expansions : List (Text × Expansion)) (name : Text) :
    (firstOfEach expansions).find? (·.2.text = name) = expansions.find? (·.2.text = name) := by
  induction expansions with
  | nil => rfl
  | cons first rest ih =>
    rw [firstOfEach, List.find?_cons, List.find?_cons, List.find?_filter, ← ih]
    by_cases hname : first.2.text = name
    · simp [hname]
    · have hother : ∀ other : Text × Expansion,
          (other.2.text ≠ first.2.text ∧ other.2.text = name) ↔ other.2.text = name :=
        fun other => and_iff_right_of_imp fun heq hfirst => hname (hfirst.symm.trans heq)
      simp only [hname, hother, decide_false, decide_eq_true_eq]

/-- The rule of a name is that of the first expansion that has it. -/
theorem find?_gained (handler : HandlerId) (expansions : List (Text × Expansion)) (name : Text) :
    ((gained handler expansions).find? (·.1 = name)).map Prod.snd =
      firstRule? handler expansions name := by
  rw [gained, List.find?_map, Option.map_map, firstRule?, ← find?_firstOfEach]
  rfl

/-- Expansions none of which is in the table make a rule for each name that was not seen before. -/
private theorem newRules_eq {table : RuleTable} {owner : Option Text} {handler : HandlerId}
    {seen : List Text} {expansions : List (Text × Expansion)}
    (h : ∀ expansion ∈ expansions, expansion.2.text ∉ table.keys) :
    newRules table owner handler seen expansions =
      .ok (((firstOfEach expansions).filter (·.2.text ∉ seen)).map (ruleOf handler)) := by
  induction expansions generalizing seen with
  | nil => rfl
  | cons expansion rest ih =>
    have hnew : ¬ table.contains expansion.2.text = true :=
      fun hc => h _ List.mem_cons_self ((table.contains_iff_mem_keys _).1 hc)
    have hrest : ∀ other ∈ rest, other.2.text ∉ table.keys :=
      fun other hother => h other (List.mem_cons_of_mem _ hother)
    rw [newRules, if_neg hnew, firstOfEach]
    by_cases hseen : expansion.2.text ∈ seen
    · have hfilter : (firstOfEach rest).filter (·.2.text ∉ seen) =
          ((firstOfEach rest).filter (·.2.text ≠ expansion.2.text)).filter (·.2.text ∉ seen) := by
        rw [List.filter_filter]
        refine List.filter_congr fun other _ => ?_
        by_cases hother : other.2.text ∈ seen
        · simp [hother]
        · have hne : other.2.text ≠ expansion.2.text := fun heq => hother (heq ▸ hseen)
          simp [hother, hne]
      rw [if_pos hseen, ih hrest, List.filter_cons_of_neg (by simpa using hseen), hfilter]
    · have hfilter : (firstOfEach rest).filter (·.2.text ∉ expansion.2.text :: seen) =
          ((firstOfEach rest).filter (·.2.text ≠ expansion.2.text)).filter (·.2.text ∉ seen) := by
        rw [List.filter_filter]
        refine List.filter_congr fun other _ => ?_
        simp [Bool.and_comm]
      rw [if_neg hseen, ih hrest, List.filter_cons_of_pos (by simpa using hseen), hfilter]
      rfl

private theorem newRules_nil_eq {table : RuleTable} {owner : Option Text} {handler : HandlerId}
    {expansions : List (Text × Expansion)}
    (h : ∀ expansion ∈ expansions, expansion.2.text ∉ table.keys) :
    newRules table owner handler [] expansions = .ok (gained handler expansions) := by
  rw [newRules_eq h, gained, List.filter_eq_self.2 (by simp)]

/-- Rules are pending exactly if every type has a table with none of the names: those of all the
expansions, for one type after the other. -/
theorem pending_eq_ok_iff {registry : AssertionRegistry} {handler : HandlerId}
    {expansions : List (Text × Expansion)} {types : List Classifier}
    {rules : List (Text × Text × Rule)} :
    registry.pending handler expansions types = .ok rules ↔
      (∀ type ∈ types, type.name ∈ registry.tables.keys ∧
        ∀ expansion ∈ expansions, expansion.2.text ∉ (registry.rules type.name).keys) ∧
      rules = types.flatMap fun type => (gained handler expansions).map (type.name, ·) := by
  constructor
  · intro h
    induction types generalizing rules with
    | nil =>
      cases h
      simp
    | cons type types ih =>
      rw [pending] at h
      split at h
      · cases h
      · next table htable =>
        have htables : type.name ∈ registry.tables.keys := by
          rw [← Table.contains_iff_mem_keys, Table.contains, htable]
          rfl
        have hrules : registry.rules type.name = table := by
          rw [AssertionRegistry.rules, htable]
          rfl
        dsimp only at h
        generalize (if type.isUniversal then none else some type.name) = owner at h
        split at h
        · cases h
        · next new hnew =>
          have hfree : ∀ expansion ∈ expansions, expansion.2.text ∉ table.keys := by
            intro expansion hexpansion
            rw [← Table.contains_iff_mem_keys, contains_of_newRules hnew expansion hexpansion]
            simp
          split at h
          · next others hothers =>
            cases h
            obtain ⟨hrest, rfl⟩ := ih hothers
            rw [newRules_nil_eq hfree] at hnew
            cases hnew
            refine ⟨List.forall_mem_cons.2 ⟨⟨htables, ?_⟩, hrest⟩, rfl⟩
            rwa [hrules]
          · cases h
  · rintro ⟨h, rfl⟩
    induction types with
    | nil => rfl
    | cons type types ih =>
      obtain ⟨⟨htables, hfree⟩, hrest⟩ := List.forall_mem_cons.1 h
      obtain ⟨table, htable⟩ : ∃ table, registry.tables.get? type.name = some table :=
        Option.isSome_iff_exists.1 ((Table.contains_iff_mem_keys _ _).2 htables)
      have hrules : registry.rules type.name = table := by
        rw [AssertionRegistry.rules, htable]
        rfl
      rw [hrules] at hfree
      rw [pending, htable]
      simp only [newRules_nil_eq hfree, ih hrest]
      rfl

/-- A registration succeeds exactly if it has a handler, its patterns are accepted, and every type
has a table with none of the names. -/
theorem register_eq_ok_iff {registry registry' : AssertionRegistry} {types : List Classifier}
    {patterns : List (Option Text)} {handler : Option HandlerId} :
    registry.register types patterns handler = .ok registry' ↔
      ∃ id texts, handler = some id ∧ patterns = texts.map some ∧
        (∀ pattern ∈ texts, Pattern.Valid pattern ∧ (Pattern.expand? pattern).isSome) ∧
        (∀ type ∈ types, type.name ∈ registry.tables.keys ∧
          ∀ expansion ∈ Pattern.expansions texts,
            expansion.2.text ∉ (registry.rules type.name).keys) ∧
        registry' = registry.addRules (types.flatMap fun type =>
          (gained id (Pattern.expansions texts)).map (type.name, ·)) := by
  cases handler with
  | none => simp [register, throw, throwThe, MonadExceptOf.throw]
  | some id =>
    simp only [register, Option.some.injEq]
    constructor
    · intro h
      cases hexpand : expandAll patterns with
      | error cause => simp [hexpand, Bind.bind, Except.bind] at h
      | ok expansions =>
        cases hpending : registry.pending id expansions types with
        | error cause => simp [hexpand, hpending, Bind.bind, Except.bind] at h
        | ok rules =>
          simp only [hexpand, hpending, Bind.bind, Except.bind, Pure.pure, Except.pure,
            Except.ok.injEq] at h
          obtain ⟨texts, rfl, haccepted, rfl⟩ := expandAll_eq_ok_iff.1 hexpand
          obtain ⟨hfree, rfl⟩ := pending_eq_ok_iff.1 hpending
          exact ⟨id, texts, rfl, rfl, haccepted, hfree, h.symm⟩
    · rintro ⟨_, texts, rfl, rfl, haccepted, hfree, rfl⟩
      have hexpand := expandAll_eq_ok_iff.2 ⟨texts, rfl, haccepted, rfl⟩
      have hpending : registry.pending id (Pattern.expansions texts) types = .ok _ :=
        pending_eq_ok_iff.2 ⟨hfree, rfl⟩
      simp only [hexpand, hpending, Bind.bind, Except.bind]
      rfl

private theorem keys_addRules {registry : AssertionRegistry} {rules : List (Text × Text × Rule)}
    (h : ∀ rule ∈ rules, rule.1 ∈ registry.tables.keys) :
    (registry.addRules rules).tables.keys = registry.tables.keys := by
  induction rules generalizing registry with
  | nil => rfl
  | cons rule rules ih =>
    obtain ⟨hrule, hrules⟩ := List.forall_mem_cons.1 h
    have hkeys : (registry.addRule rule.1 rule.2.1 rule.2.2).tables.keys =
        registry.tables.keys := by
      rw [addRule, Table.keys_set, if_pos hrule]
    have hrest := @ih (registry.addRule rule.1 rule.2.1 rule.2.2) (by rwa [hkeys])
    rw [hkeys] at hrest
    exact hrest

/-- Rules for types with tables add no table. -/
theorem keys_addRules_flatMap {registry : AssertionRegistry} {types : List Classifier}
    (h : ∀ type ∈ types, type.name ∈ registry.tables.keys) (rules : List (Text × Rule)) :
    (registry.addRules (types.flatMap fun type => rules.map (type.name, ·))).tables.keys =
      registry.tables.keys := by
  refine keys_addRules fun rule hrule => ?_
  obtain ⟨type, htype, hrule⟩ := List.mem_flatMap.1 hrule
  obtain ⟨_, -, rfl⟩ := List.mem_map.1 hrule
  exact h type htype

/-- Rules for one type are set where they are new in its table. -/
private theorem rules_addRules_map (registry : AssertionRegistry) (owner : Text)
    (rules : List (Text × Rule)) (typeName : Text) :
    (registry.addRules (rules.map (owner, ·))).rules typeName =
      if typeName = owner then (registry.rules owner).setAllNew rules
      else registry.rules typeName := by
  induction rules generalizing registry with
  | nil =>
    split
    · next h => rw [h]; rfl
    · rfl
  | cons rule rules ih =>
    have hstep : registry.addRules ((rule :: rules).map (owner, ·)) =
        (registry.addRule owner rule.1 rule.2).addRules (rules.map (owner, ·)) := rfl
    rw [hstep, ih, rules_addRule, rules_addRule, if_pos rfl]
    split
    · rfl
    · rfl

/-- Rules of different names, added for types one after the other, go to the end of the table of
each of the types, as far as they are new there, and to no other table. -/
theorem entries_addRules_flatMap {registry : AssertionRegistry} {types : List Classifier}
    {rules : List (Text × Rule)} (hn : (rules.map Prod.fst).Nodup) (typeName : Text) :
    ((registry.addRules (types.flatMap fun type => rules.map (type.name, ·))).rules
        typeName).entries =
      (registry.rules typeName).entries ++
        if typeName ∈ types.map Classifier.name then
          rules.filter (·.1 ∉ (registry.rules typeName).keys)
        else [] := by
  induction types generalizing registry with
  | nil => simp [addRules]
  | cons type types ih =>
    have hstep : registry.addRules ((type :: types).flatMap fun type => rules.map (type.name, ·)) =
        (registry.addRules (rules.map (type.name, ·))).addRules
          (types.flatMap fun type => rules.map (type.name, ·)) := by
      rw [List.flatMap_cons, addRules, addRules, addRules, List.foldl_append]
    rw [hstep, ih, rules_addRules_map]
    by_cases htype : typeName = type.name
    · subst htype
      have hentries := Table.entries_setAllNew (t := registry.rules type.name) hn
      have hnone : rules.filter (·.1 ∉ ((registry.rules type.name).setAllNew rules).keys) = [] := by
        refine List.filter_eq_nil_iff.2 fun rule hrule => ?_
        rw [decide_eq_true_eq, Classical.not_not, Table.keys, hentries, List.map_append,
          List.mem_append]
        by_cases hold : rule.1 ∈ (registry.rules type.name).keys
        · exact .inl hold
        · exact .inr (List.mem_map_of_mem (List.mem_filter.2 ⟨hrule, by simpa using hold⟩))
      rw [if_pos rfl, hnone, hentries]
      simp
    · rw [if_neg htype]
      simp [htype]

/-- A registration that succeeds gives each of its types, at the end of its table, one rule for each
name among the expansions of its patterns. Nothing else changes. -/
theorem entries_of_register {registry registry' : AssertionRegistry} {types : List Classifier}
    {patterns : List (Option Text)} {handler : Option HandlerId}
    (h : registry.register types patterns handler = .ok registry') :
    ∃ (id : HandlerId) (texts : List Text), handler = some id ∧ patterns = texts.map some ∧
      registry'.tables.keys = registry.tables.keys ∧
      ∀ typeName, (registry'.rules typeName).entries = (registry.rules typeName).entries ++
        if typeName ∈ types.map Classifier.name then gained id (Pattern.expansions texts)
        else [] := by
  obtain ⟨id, texts, hhandler, hpatterns, -, hfree, rfl⟩ := register_eq_ok_iff.1 h
  refine ⟨id, texts, hhandler, hpatterns,
    keys_addRules_flatMap (fun type htype => (hfree type htype).1) _, fun typeName => ?_⟩
  rw [entries_addRules_flatMap (nodup_gained _ _)]
  by_cases htype : typeName ∈ types.map Classifier.name
  · rw [if_pos htype, if_pos htype, List.filter_eq_self.2]
    intro rule hrule
    obtain ⟨type, htypes, rfl⟩ := List.mem_map.1 htype
    obtain ⟨expansion, hexpansion, hname⟩ := exists_expansion_of_mem_gained hrule
    rw [← hname]
    simpa using (hfree type htypes).2 expansion hexpansion
  · rw [if_neg htype, if_neg htype]

/-- A registration that succeeds adds, for each of its types and each name among its expansions,
the rule of the first expansion; there was none before. All other rules stay. -/
theorem rules_of_register {registry registry' : AssertionRegistry} {types : List Classifier}
    {patterns : List (Option Text)} {handler : Option HandlerId}
    (h : registry.register types patterns handler = .ok registry') :
    ∃ id texts, handler = some id ∧ patterns = texts.map some ∧ ∀ typeName name,
      (registry'.rules typeName).get? name =
        ((registry.rules typeName).get? name).or
          (if typeName ∈ types.map Classifier.name then
            firstRule? id (Pattern.expansions texts) name
          else none) ∧
      (typeName ∈ types.map Classifier.name →
        (firstRule? id (Pattern.expansions texts) name).isSome →
          (registry.rules typeName).get? name = none) := by
  obtain ⟨id, texts, hhandler, hpatterns, -, hentries⟩ := entries_of_register h
  refine ⟨id, texts, hhandler, hpatterns, fun typeName name => ?_⟩
  have hget : (registry'.rules typeName).get? name =
      ((registry.rules typeName).get? name).or
        (if typeName ∈ types.map Classifier.name then
          firstRule? id (Pattern.expansions texts) name
        else none) := by
    rw [Table.get?, hentries, List.find?_append, Option.map_or, Table.get?]
    split
    · rw [find?_gained]
    · rfl
  refine ⟨hget, fun htype hfirst => (Table.get?_eq_none_iff _ _).2 fun hold => ?_⟩
  -- The name is that of a new entry, and no key of the resulting table occurs twice.
  rw [← find?_gained, Option.isSome_map] at hfirst
  obtain ⟨rule, hrule⟩ := Option.isSome_iff_exists.1 hfirst
  have hname : rule.1 = name := by simpa using List.find?_some hrule
  have hnodup := (registry'.rules typeName).nodup_keys
  rw [hentries, if_pos htype, List.map_append] at hnodup
  refine (List.nodup_append.1 hnodup).2.2 name hold rule.1 ?_ hname.symm
  exact List.mem_map_of_mem (List.mem_of_find?_eq_some hrule)

end AssertionRegistry

end Expectation

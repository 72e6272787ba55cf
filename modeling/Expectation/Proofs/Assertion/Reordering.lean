import Mathlib.Data.List.Perm.Lattice
import Expectation.Proofs.Assertion.Addition
import Expectation.Proofs.Assertion.Names

/-!
# Registries up to the order of rules

Two registrations that succeed one after the other add different rules, so that they succeed in the
other order too, and then each type has the same rules, perhaps listed in another order. The order
does not matter to whether a registration succeeds, nor to what is found in the registry.
-/

namespace Expectation

/-- Tables of the same entries in different orders are read alike. -/
theorem Table.get?_of_perm {κ ν : Type} [DecidableEq κ] {t t' : Table κ ν}
    (h : t.entries.Perm t'.entries) (k : κ) : t.get? k = t'.get? k := by
  apply Option.ext
  intro v
  rw [get?_eq_some_iff, get?_eq_some_iff, h.mem_iff]

namespace AssertionRegistry

/-- Two registries have tables of the same types, with the same rules in whatever order. -/
structure Reordered (registry registry' : AssertionRegistry) : Prop where
  tables : registry'.tables.keys = registry.tables.keys
  rules : ∀ typeName, (registry'.rules typeName).entries.Perm (registry.rules typeName).entries

namespace Reordered

variable {registry registry' registry'' : AssertionRegistry}

theorem refl (registry : AssertionRegistry) : registry.Reordered registry :=
  ⟨rfl, fun _ => .refl _⟩

theorem trans (h : registry.Reordered registry') (h' : registry'.Reordered registry'') :
    registry.Reordered registry'' :=
  ⟨h'.tables.trans h.tables, fun typeName => (h'.rules typeName).trans (h.rules typeName)⟩

/-- Each type has the same names. -/
theorem mem_keys_iff (h : registry.Reordered registry') {typeName name : Text} :
    name ∈ (registry'.rules typeName).keys ↔ name ∈ (registry.rules typeName).keys :=
  ((h.rules typeName).map Prod.fst).mem_iff

/-- Each type has the same rules. -/
theorem find?_eq (h : registry.Reordered registry') (type : Classifier) (name : Text) :
    registry'.find? type name = registry.find? type name :=
  Table.get?_of_perm (h.rules type.name) name

/-- Along each line of types the same rule is found. -/
theorem findOn?_eq (h : registry.Reordered registry') (name : Text) (types : List Classifier) :
    registry'.findOn? name types = registry.findOn? name types := by
  induction types with
  | nil => rfl
  | cons type types ih => rw [findOn?, findOn?, h.find?_eq, ih]

/-- A name is defined for the same types. -/
theorem definedFor_eq (h : registry.Reordered registry') (name : Text) (types : List Classifier) :
    registry'.definedFor name types = registry.definedFor name types := by
  apply List.filter_congr
  intro type _
  rw [Bool.eq_iff_iff, Table.contains_iff_mem_keys, Table.contains_iff_mem_keys, h.mem_keys_iff]

/-- The names of all types are the same. -/
theorem allNames_eq (h : registry.Reordered registry') :
    registry'.allNames = registry.allNames := by
  have hsame : ∀ name, name ∈ registry'.allNames ↔ name ∈ registry.allNames := by
    intro name
    rw [mem_allNames, mem_allNames]
    exact exists_congr fun _ => h.mem_keys_iff
  have hsorted := pairwise_allNames registry
  have hsorted' := pairwise_allNames registry'
  have hperm : registry'.allNames.Perm registry.allNames :=
    (List.perm_ext_iff_of_nodup (hsorted'.imp ne_of_lt) (hsorted.imp ne_of_lt)).2 hsame
  exact hperm.eq_of_pairwise (fun _ _ _ _ hlt hgt => absurd hgt (lt_asymm hlt)) hsorted' hsorted

end Reordered

/-- The names that are gained are those of the expansions. -/
theorem mem_names_gained_iff {handler : HandlerId} {expansions : List (Text × Expansion)}
    {name : Text} :
    name ∈ (gained handler expansions).map Prod.fst ↔
      ∃ expansion ∈ expansions, expansion.2.text = name := by
  constructor
  · intro h
    obtain ⟨rule, hrule, rfl⟩ := List.mem_map.1 h
    exact exists_expansion_of_mem_gained hrule
  · rintro ⟨expansion, hmem, rfl⟩
    have hfirst := find?_gained handler expansions expansion.2.text
    obtain ⟨first, hfound⟩ : ∃ first, expansions.find? (·.2.text = expansion.2.text) = some first :=
      Option.isSome_iff_exists.1 (List.find?_isSome.2 ⟨expansion, hmem, by simp⟩)
    rw [firstRule?, hfound] at hfirst
    obtain ⟨rule, hrule, -⟩ := Option.map_eq_some_iff.1 hfirst
    have hname : rule.1 = expansion.2.text := by simpa using List.find?_some hrule
    exact List.mem_map.2 ⟨rule, List.mem_of_find?_eq_some hrule, hname⟩

/-- Every one of some types has a table, with none of the names of some expansions. -/
def Admits (registry : AssertionRegistry) (types : List Classifier)
    (expansions : List (Text × Expansion)) : Prop :=
  ∀ type ∈ types, type.name ∈ registry.tables.keys ∧
    ∀ expansion ∈ expansions, expansion.2.text ∉ (registry.rules type.name).keys

/-- Another order of rules admits the same. -/
theorem Reordered.admits {registry registry' : AssertionRegistry} {types : List Classifier}
    {expansions : List (Text × Expansion)} (hr : registry.Reordered registry')
    (h : registry.Admits types expansions) : registry'.Admits types expansions := by
  intro type htype
  rw [hr.tables]
  simp only [hr.mem_keys_iff]
  exact h type htype

section

variable {registry registry' : AssertionRegistry} {types : List Classifier} {texts : List Text}
  {handler : HandlerId}

/-- A registration of accepted patterns succeeds where its types admit them. -/
theorem exists_register (handler : HandlerId)
    (haccepted : ∀ pattern ∈ texts, Pattern.Valid pattern ∧ (Pattern.expand? pattern).isSome)
    (hadmits : registry.Admits types (Pattern.expansions texts)) :
    ∃ registry', registry.register types (texts.map some) (some handler) = .ok registry' :=
  ⟨_, register_eq_ok_iff.2 ⟨handler, texts, rfl, rfl, haccepted, hadmits, rfl⟩⟩

/-- A registration gives each of its types the rules that its patterns gain. -/
theorem entries_register
    (h : registry.register types (texts.map some) (some handler) = .ok registry') :
    registry'.tables.keys = registry.tables.keys ∧
      ∀ typeName, (registry'.rules typeName).entries = (registry.rules typeName).entries ++
        if typeName ∈ types.map Classifier.name then gained handler (Pattern.expansions texts)
        else [] := by
  obtain ⟨id, texts', hid, htexts, hkeys, hentries⟩ := entries_of_register h
  cases hid
  cases (List.map_inj_right fun _ _ h => Option.some.inj h).1 htexts
  exact ⟨hkeys, hentries⟩

/-- After a registration a type has the names that it had, and those of the expansions if it is one
of the types. -/
theorem mem_keys_register_iff
    (h : registry.register types (texts.map some) (some handler) = .ok registry')
    {typeName name : Text} :
    name ∈ (registry'.rules typeName).keys ↔ name ∈ (registry.rules typeName).keys ∨
      typeName ∈ types.map Classifier.name ∧
        ∃ expansion ∈ Pattern.expansions texts, expansion.2.text = name := by
  rw [Table.keys, (entries_register h).2, List.map_append, List.mem_append]
  apply or_congr Iff.rfl
  split
  · next htype => simp only [htype, true_and, mem_names_gained_iff]
  · next htype => simp [htype]

end

variable {registry registry₁ registry₂ : AssertionRegistry} {types types' : List Classifier}
  {patterns patterns' : List (Option Text)} {handler handler' : Option HandlerId}

/-- The order of rules does not matter to a registration. -/
theorem Reordered.register (hr : registry.Reordered registry₁)
    (h : registry.register types patterns handler = .ok registry₂) :
    ∃ registry₃, registry₁.register types patterns handler = .ok registry₃ ∧
      registry₂.Reordered registry₃ := by
  obtain ⟨id, texts, rfl, rfl, haccepted, hadmits, -⟩ := register_eq_ok_iff.1 h
  obtain ⟨registry₃, h'⟩ := exists_register id haccepted (hr.admits hadmits)
  refine ⟨registry₃, h', ?_, fun typeName => ?_⟩
  · rw [(entries_register h').1, (entries_register h).1, hr.tables]
  · rw [(entries_register h').2, (entries_register h).2]
    exact (hr.rules typeName).append_right _

/-- Two registrations that succeed one after the other succeed in the other order. -/
theorem register_swap (h : registry.register types patterns handler = .ok registry₁)
    (h' : registry₁.register types' patterns' handler' = .ok registry₂) :
    ∃ registry₃ registry₄, registry.register types' patterns' handler' = .ok registry₃ ∧
      registry₃.register types patterns handler = .ok registry₄ ∧
        registry₂.Reordered registry₄ := by
  obtain ⟨id, texts, rfl, rfl, haccepted, hadmits, -⟩ := register_eq_ok_iff.1 h
  obtain ⟨id', texts', rfl, rfl, haccepted', hadmits', -⟩ := register_eq_ok_iff.1 h'
  have hfirst : registry.Admits types' (Pattern.expansions texts') := by
    intro type htype
    obtain ⟨htable, hnames⟩ := hadmits' type htype
    refine ⟨(entries_register h).1 ▸ htable, fun expansion hexpansion hold => ?_⟩
    exact hnames expansion hexpansion ((mem_keys_register_iff h).2 (.inl hold))
  obtain ⟨registry₃, hthird⟩ := exists_register id' haccepted' hfirst
  -- A name that both registrations want would have been taken when the second was made.
  have hsecond : registry₃.Admits types (Pattern.expansions texts) := by
    intro type htype
    obtain ⟨htable, hnames⟩ := hadmits type htype
    refine ⟨(entries_register hthird).1.symm ▸ htable, fun expansion hexpansion htaken => ?_⟩
    rcases (mem_keys_register_iff hthird).1 htaken with hold | ⟨hshared, other, hother, hsame⟩
    · exact hnames expansion hexpansion hold
    · obtain ⟨type', htype', hname⟩ := List.mem_map.1 hshared
      apply (hadmits' type' htype').2 other hother
      rw [hname, hsame]
      exact (mem_keys_register_iff h).2
        (.inr ⟨List.mem_map_of_mem htype, expansion, hexpansion, rfl⟩)
  obtain ⟨registry₄, hfourth⟩ := exists_register id haccepted hsecond
  refine ⟨registry₃, registry₄, hthird, hfourth, ?_, fun typeName => ?_⟩
  · rw [(entries_register hfourth).1, (entries_register hthird).1, (entries_register h').1,
      (entries_register h).1]
  · rw [(entries_register hfourth).2, (entries_register hthird).2, (entries_register h').2,
      (entries_register h).2, List.append_assoc, List.append_assoc]
    exact List.perm_append_comm.append_left _

end AssertionRegistry

end Expectation

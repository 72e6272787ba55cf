import Expectation.Proofs.Assertion.Names
import Expectation.Proofs.Pattern.Characters
import Expectation.Proofs.Session.Unknown

/-!
# The list of an engine's names

An engine is written as the names that were registered with it, for whatever type, one a line. The
lines are these names in ascending order exactly if no name holds a newline, and a name holds one
only if the pattern that declares it does.
-/

namespace Expectation.Engine

variable {e : Engine} {settings : Settings} {calls : List Registration} {typeName name : Text}
  {rule : Rule}

/-- A rule that a call registers is under a name that its pattern declares. -/
theorem Registers.exists_expansion {call : Registration} (h : e.Registers typeName name rule call) :
    ∃ expansions, Pattern.expand? rule.pattern = some expansions ∧
      ∃ expansion ∈ expansions, expansion.text = name := by
  cases h with
  | intro _ _ _ _ _ hfirst =>
    obtain ⟨found, hfind, rfl⟩ := Option.map_eq_some_iff.1 hfirst
    obtain ⟨-, expansions, hexpand, hmem⟩ :=
      Pattern.mem_expansions_iff.1 (List.mem_of_find?_eq_some hfind)
    exact ⟨expansions, hexpand, found.2, hmem, by simpa using List.find?_some hfind⟩

/-- A name that calls register holds no newline that its pattern does not hold. -/
theorem Carries.newline_mem_pattern (h : e.Carries calls typeName name rule) (hmem : '\n' ∈ name) :
    '\n' ∈ rule.pattern := by
  obtain ⟨before, call, after, -, hr⟩ := h
  obtain ⟨expansions, hexpand, expansion, hexpansion, rfl⟩ := hr.exists_expansion
  rcases Pattern.mem_of_mem_expand? hexpand hexpansion hmem with heq | heq | hmem
  · exact absurd heq (by decide)
  · exact absurd heq (by decide)
  · exact hmem

/-- The names of all types are those that calls registered. -/
theorem mem_allNames_afterAll_iff :
    name ∈ ((create settings).afterAll calls).assertions.allNames ↔
      ∃ typeName, (create settings).Names calls typeName name := by
  rw [AssertionRegistry.mem_allNames]
  exact exists_congr fun _ => mem_names_afterAll_iff

/-- The names that calls registered for any type come in strictly ascending order. The engine is
written as the lines of these names, which are the names themselves exactly if none of them holds a
newline, as it is where no pattern that declares one does. -/
theorem lines_listing_afterAll (h : ∃ typeName name, (create settings).Names calls typeName name) :
    ∃ names : List Text, names.Pairwise (· < ·) ∧
      (∀ name, name ∈ names ↔ ∃ typeName, (create settings).Names calls typeName name) ∧
      Text.lines ((create settings).afterAll calls).listing = names.flatMap Text.lines ∧
      (Text.lines ((create settings).afterAll calls).listing = names ↔
        ∀ name ∈ names, '\n' ∉ name) ∧
      ((∀ typeName name rule, (create settings).Carries calls typeName name rule →
        '\n' ∉ rule.pattern) → Text.lines ((create settings).afterAll calls).listing = names) := by
  obtain ⟨typeName, name, hname⟩ := h
  have hne : ((create settings).afterAll calls).assertions.allNames ≠ [] :=
    List.ne_nil_of_mem (mem_allNames_afterAll_iff.2 ⟨typeName, hname⟩)
  have hlines := Text.lines_joinWith hne
  refine ⟨_, AssertionRegistry.pairwise_allNames _, fun _ => mem_allNames_afterAll_iff, hlines, ?_,
    fun hpattern => ?_⟩
  · rw [listing, hlines]
    exact Text.flatMap_lines_eq_self_iff
  · rw [listing, hlines, Text.flatMap_lines_eq_self_iff]
    intro name hmem hnewline
    obtain ⟨typeName, rule, hcarries⟩ := mem_allNames_afterAll_iff.1 hmem
    exact hpattern typeName name rule hcarries (hcarries.newline_mem_pattern hnewline)

-- A name with a newline in it, and one without.
private def newlineInName : List Registration :=
  let s : Store := ⟨#[.handler 0, .text ['b', '\n', 'a']], #[]⟩
  [.assertion s [.cell 1, .cell 0], .assertion s [.char 'c', .cell 0]]

/-- An engine with two names, one of which holds a newline, is written on other lines than these
names. -/
theorem lines_listing_newlineInName :
    ∃ names : List Text, names.Pairwise (· < ·) ∧ ['b', '\n', 'a'] ∈ names ∧ ['c'] ∈ names ∧
      Text.lines ((create .default).afterAll newlineInName).listing = names.flatMap Text.lines ∧
      Text.lines ((create .default).afterAll newlineInName).listing ≠ names := by
  have hnames : ∀ name ∈ [['b', '\n', 'a'], ['c']],
      (create .default).Names newlineInName Classifier.universalName name := by
    intro name hname
    rw [← mem_names_afterAll_iff]
    revert name
    decide +kernel
  have hfirst := hnames ['b', '\n', 'a'] (by simp)
  obtain ⟨names, hsorted, hmem, hlines, hself, -⟩ := lines_listing_afterAll ⟨_, _, hfirst⟩
  have hsecond := hnames ['c'] (by simp)
  refine ⟨names, hsorted, (hmem _).2 ⟨_, hfirst⟩, (hmem _).2 ⟨_, hsecond⟩, hlines, ?_⟩
  intro heq
  exact hself.1 heq _ ((hmem _).2 ⟨_, hfirst⟩) (by simp)

end Expectation.Engine

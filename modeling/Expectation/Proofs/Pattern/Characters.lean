import Expectation.Proofs.Pattern.Markup

/-!
# The characters of names

A pattern is the concatenation of its runs, and what a run stands for is made of its characters.
So a name that a pattern declares holds no character that the pattern does not hold, apart from the
spaces that take the place of edges.
-/

namespace Expectation.Pattern

/-- The runs of a pattern, one after the other, are the pattern. -/
theorem flatten_runs (t : Text) : (runs t).flatten = t := by
  fun_induction runs t with
  | case1 => rfl
  | case2 c rest run after hread ih =>
    rw [List.flatten_cons, List.flatten_cons, ih]
    exact (readRun?_eq_some hread).1.symm
  | case3 c rest hread hruns ih =>
    rw [hruns] at ih
    rw [← ih]
    rfl
  | case4 c rest hread run others hruns ih =>
    rw [hruns] at ih
    rw [← ih]
    rfl

private theorem mem_of_mem_go {run part text : Text} {c : Char}
    (ht : text ∈ alternatives.go part run) (hc : c ∈ text) : c ∈ part ∨ c ∈ run := by
  have hkeep : ∀ {part : Text} {parts : List Text}, text ∈ alternatives.keep part parts →
      c ∈ part ∨ text ∈ parts := by
    intro part parts ht
    rw [alternatives.keep] at ht
    split at ht
    · exact .inr ht
    · rcases List.mem_cons.1 ht with rfl | ht
      · exact .inl hc
      · exact .inr ht
  induction run generalizing part with
  | nil =>
    rw [alternatives.go] at ht
    exact (hkeep ht).imp_right fun h => by cases h
  | cons d run ih =>
    rw [alternatives.go] at ht
    split at ht
    · rcases hkeep ht with hpart | hrest
      · exact .inl hpart
      · exact .inr (List.mem_cons_of_mem _ ((ih hrest).resolve_left (by simp)))
    · rcases ih ht with hpart | hrun
      · exact (List.mem_append.1 hpart).imp_right fun h => by simp [List.mem_singleton.1 h]
      · exact .inr (List.mem_cons_of_mem _ hrun)

/-- What a run stands for is made of the characters of the run. -/
theorem mem_of_mem_texts {run text : Text} {c : Char} (ht : text ∈ (segmentOfRun run).texts)
    (hc : c ∈ text) : c ∈ run := by
  rw [segmentOfRun] at ht
  split_ifs at ht
  · rw [Segment.texts, List.mem_singleton] at ht
    subst ht
    exact List.mem_of_mem_tail (List.mem_of_mem_dropLast hc)
  · exact (mem_of_mem_go ht hc).resolve_left (by simp)
  · rw [Segment.texts, List.mem_singleton] at ht
    exact ht ▸ hc

/-- What the segments of a pattern stand for is made of the characters of the pattern. -/
theorem mem_of_mem_segments {pattern text : Text} {part : Segment} {c : Char}
    (hp : part ∈ segments pattern) (ht : text ∈ part.texts) (hc : c ∈ text) : c ∈ pattern := by
  obtain ⟨run, hrun, rfl⟩ := List.mem_map.1 hp
  rw [← flatten_runs pattern]
  exact List.mem_flatten_of_mem (List.mem_filter.1 hrun).1 (mem_of_mem_texts ht hc)

/-- A character of a name is a space or a character of its pattern, unless it is the one that marks
edges. -/
theorem mem_of_mem_expand? {pattern : Text} {expansions : List Expansion}
    (he : expand? pattern = some expansions) {e : Expansion} (hmem : e ∈ expansions) {c : Char}
    (hc : c ∈ e.text) : c = ' ' ∨ c = edge ∨ c ∈ pattern := by
  rw [← (expand?_eq_some_iff.1 he).1] at hmem
  obtain ⟨tail, htail, rfl⟩ := List.mem_map.1 hmem
  refine (mem_of_mem_collapse (Text.mem_of_mem_trimBoth hc)).imp_right fun hmarked => ?_
  refine (mem_texts_of_mem_marked htail hmarked).imp_right ?_
  rintro ⟨part, hp, text, ht, hct⟩
  exact mem_of_mem_segments hp ht hct

end Expectation.Pattern

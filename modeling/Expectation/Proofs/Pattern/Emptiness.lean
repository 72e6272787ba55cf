import Mathlib.Data.List.GetD
import Expectation.Proofs.Pattern.Markup

/-!
# Patterns with an empty name

A name is empty if all that its selection takes is blank characters and edges. Omitting a flag
leaves nothing of it, so a pattern has an empty name exactly if all its literal text is of this kind
and every choice has an alternative that is.
-/

namespace Expectation

namespace Pattern

/-- A text of blank characters and edges, of which nothing is left in a name. -/
def Hollow (t : Text) : Prop := ∀ c ∈ t, isBlank c = true ∨ c = edge

theorem hollow_append {s t : Text} : Hollow (s ++ t) ↔ Hollow s ∧ Hollow t :=
  List.forall_mem_append

/-- A name is empty exactly if its marked text is hollow. -/
theorem strip_collapse_eq_nil_iff {t : Text} : (collapse t).strip = [] ↔ Hollow t := by
  rw [Text.strip, Text.trimBoth_eq_nil_iff]
  constructor
  · intro h c hc
    by_cases hgap : isGap c = true
    · simp only [isGap, Bool.or_eq_true, decide_eq_true_eq] at hgap
      rcases hgap with (rfl | rfl) | rfl
      · exact .inl rfl
      · exact .inl rfl
      · exact .inr rfl
    · exact .inl (h c (mem_collapse hc (by simpa using hgap)))
  · intro h c hc
    rcases mem_of_mem_collapse hc with rfl | hmem
    · rfl
    · refine (h c hmem).resolve_right ?_
      rintro rfl
      exact edge_notMem_collapse _ hc

end Pattern

/-- The segment can be taken in a way that leaves nothing of it in a name. -/
def Segment.Vanishes : Segment → Prop
  | .literal text => Pattern.Hollow text
  | .flag _ => True
  | .choice alternatives => ∃ text ∈ alternatives, Pattern.Hollow text

namespace Pattern

theorem hollow_joinWith {texts : List Text} :
    Hollow (Text.joinWith [edge] texts) ↔ ∀ text ∈ texts, Hollow text := by
  induction texts with
  | nil => simp [Text.joinWith, Hollow]
  | cons text texts ih =>
    by_cases hne : texts = []
    · simp [hne, Text.joinWith]
    · have hedge : Hollow [edge] := by simp [Hollow]
      rw [Text.joinWith_cons_of_ne_nil hne, List.append_cons, hollow_append, hollow_append, ih,
        List.forall_mem_cons, and_iff_left hedge]

private theorem hollow_modifyHead {texts : List Text} (hne : texts ≠ []) (front : Text) :
    (∀ text ∈ texts.modifyHead (front ++ ·), Hollow text) ↔
      Hollow front ∧ ∀ text ∈ texts, Hollow text := by
  obtain ⟨first, others, rfl⟩ := List.exists_cons_of_ne_nil hne
  rw [List.modifyHead_cons, List.forall_mem_cons, List.forall_mem_cons, hollow_append, and_assoc]

variable {parts : List Segment} {selection : Selection}

/-- Where all pieces of a selection are hollow, every segment can vanish. -/
theorem vanishes_of_hollow_pieces (hs : selection.Of parts)
    (h : ∀ piece ∈ pieces parts selection, Hollow piece) : ∀ part ∈ parts, part.Vanishes := by
  induction hs with
  | nil => simp
  | @cons way part selection parts hway _ ih =>
    have hne := pieces_ne_nil parts selection
    rw [List.forall_mem_cons]
    cases part with
    | literal text =>
      rw [pieces, hollow_modifyHead hne] at h
      exact ⟨h.1, ih h.2⟩
    | choice alternatives =>
      rw [pieces, hollow_modifyHead hne, List.getD_eq_getElem _ _ hway] at h
      exact ⟨⟨_, List.getElem_mem hway, h.1⟩, ih h.2⟩
    | flag name =>
      rw [pieces] at h
      refine ⟨trivial, ih fun piece hp => h piece ?_⟩
      split <;> simp [hp]

/-- Where every segment can vanish, a selection that omits every flag has hollow pieces only. -/
theorem exists_hollow_pieces (h : ∀ part ∈ parts, part.Vanishes) :
    ∃ selection : Selection, selection.Of parts ∧
      (∀ entry ∈ presence parts selection, entry.2 = false) ∧
      ∀ piece ∈ pieces parts selection, Hollow piece := by
  induction parts with
  | nil => exact ⟨[], .nil, by simp [presence], by simp [pieces, Hollow]⟩
  | cons part parts ih =>
    obtain ⟨hpart, hrest⟩ := List.forall_mem_cons.1 h
    obtain ⟨selection, hs, homitted, hpieces⟩ := ih hrest
    have hne := pieces_ne_nil parts selection
    cases part with
    | literal text =>
      refine ⟨0 :: selection, .cons Nat.one_pos hs, homitted, ?_⟩
      rw [pieces, hollow_modifyHead hne]
      exact ⟨hpart, hpieces⟩
    | choice alternatives =>
      obtain ⟨text, ht, hollow⟩ := hpart
      obtain ⟨way, hway, rfl⟩ := List.getElem_of_mem ht
      refine ⟨way :: selection, .cons hway hs, homitted, ?_⟩
      rw [pieces, hollow_modifyHead hne, List.getD_eq_getElem _ _ hway]
      exact ⟨hollow, hpieces⟩
    | flag name =>
      refine ⟨1 :: selection, .cons Nat.one_lt_two hs, ?_, ?_⟩
      · rw [presence, List.forall_mem_cons]
        exact ⟨rfl, homitted⟩
      · rw [pieces, if_neg Nat.one_ne_zero, List.forall_mem_cons]
        exact ⟨by simp [Hollow], hpieces⟩

/-- A pattern that reads as segments has an empty name exactly if every segment can vanish. -/
theorem Reads.expand?_eq_none_iff {pattern : Text} (h : Reads pattern parts) :
    expand? pattern = none ↔ ∀ part ∈ parts, part.Vanishes := by
  rw [Pattern.expand?_eq_none_iff, h.segments_eq, marked_eq]
  constructor
  · rintro ⟨e, he, hempty⟩
    obtain ⟨selection, hs, rfl⟩ := List.mem_map.1 he
    exact vanishes_of_hollow_pieces (mem_selections.1 hs)
      (hollow_joinWith.1 (strip_collapse_eq_nil_iff.1 hempty))
  · intro hvanishes
    obtain ⟨selection, hs, -, hpieces⟩ := exists_hollow_pieces hvanishes
    exact ⟨_, List.mem_map_of_mem (mem_selections.2 hs),
      strip_collapse_eq_nil_iff.2 (hollow_joinWith.2 hpieces)⟩

/-- Whether every segment can vanish is a matter of literal text and choices. -/
theorem forall_vanishes_iff : (∀ part ∈ parts, part.Vanishes) ↔
    (∀ text, .literal text ∈ parts → Hollow text) ∧
      ∀ alternatives, .choice alternatives ∈ parts → ∃ text ∈ alternatives, Hollow text := by
  constructor
  · exact fun h => ⟨fun text ht => h _ ht, fun alternatives ha => h _ ha⟩
  · rintro ⟨hliteral, hchoice⟩ part hpart
    cases part with
    | literal text => exact hliteral text hpart
    | flag name => trivial
    | choice alternatives => exact hchoice alternatives hpart

/-- A valid pattern that closes nothing before it opens it reads as segments in exactly one way. It
is refused as declaring an empty name exactly if all its literal text is blank characters and edges
and every choice has such an alternative; then a selection that omits every flag leaves nothing.
Flags make no difference: a pattern with other flags but the same literal texts and choices is
refused or not as this one is. -/
theorem expand?_eq_none_iff_hollow {pattern : Text} (hv : Valid pattern) (ho : OpensFirst pattern) :
    ∃ parts, Reads pattern parts ∧ (∀ others, Reads pattern others → others = parts) ∧
      (expand? pattern = none ↔
        (∀ text, .literal text ∈ parts → Hollow text) ∧
          ∀ alternatives, .choice alternatives ∈ parts → ∃ text ∈ alternatives, Hollow text) ∧
      (expand? pattern = none → ∃ selection : Selection, selection.Of parts ∧
        (∀ entry ∈ presence parts selection, entry.2 = false) ∧
        (collapse (Text.joinWith [edge] (pieces parts selection))).strip = []) ∧
      ∀ other others, Reads other others →
        (∀ part : Segment, part.flag? = none → (part ∈ others ↔ part ∈ parts)) →
        (expand? other = none ↔ expand? pattern = none) := by
  obtain ⟨parts, h⟩ := exists_reads_of_valid hv ho
  refine ⟨parts, h, fun others h' => h'.unique h, h.expand?_eq_none_iff.trans forall_vanishes_iff,
    fun hnone => ?_, fun other others h' hsame => ?_⟩
  · obtain ⟨selection, hs, homitted, hpieces⟩ :=
      exists_hollow_pieces (h.expand?_eq_none_iff.1 hnone)
    exact ⟨selection, hs, homitted, strip_collapse_eq_nil_iff.2 (hollow_joinWith.2 hpieces)⟩
  · rw [h'.expand?_eq_none_iff, h.expand?_eq_none_iff, forall_vanishes_iff, forall_vanishes_iff]
    have hliteral : ∀ text, .literal text ∈ others ↔ .literal text ∈ parts :=
      fun text => hsame (.literal text) rfl
    have hchoice : ∀ alternatives, .choice alternatives ∈ others ↔ .choice alternatives ∈ parts :=
      fun alternatives => hsame (.choice alternatives) rfl
    simp only [hliteral, hchoice]

/-- A flag and a choice that holds an edge alone among its alternatives: with the flag omitted
nothing is left. -/
theorem expand?_hollow_edgeAlternative :
    ∃ parts, Reads ("[x] (a|\x00)" : String) parts ∧ expand? ("[x] (a|\x00)" : String) = none ∧
      (∀ text, .literal text ∈ parts → Hollow text) ∧
      ∀ alternatives, .choice alternatives ∈ parts → ∃ text ∈ alternatives, Hollow text := by
  have hnone : expand? ("[x] (a|\x00)" : String) = none := by decide +kernel
  have hvalid : Valid ("[x] (a|\x00)" : String) := by decide +kernel
  have hopens : OpensFirst ("[x] (a|\x00)" : String) := by decide +kernel
  obtain ⟨parts, hreads, -, hiff, -⟩ := expand?_eq_none_iff_hollow hvalid hopens
  exact ⟨parts, hreads, hnone, hiff.1 hnone⟩

end Pattern
end Expectation

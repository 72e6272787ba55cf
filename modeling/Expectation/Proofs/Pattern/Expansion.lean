import Expectation.Proofs.Pattern.Balance
import Expectation.Proofs.Pattern.Selection
import Expectation.Proofs.Text.Lines

/-!
# Expansion as a cross product

The names that a valid pattern declares are those of its selections, in lexicographic order.
-/

namespace Expectation

namespace Pattern

private theorem mem_source_of_mem_texts {part : Segment} {text : Text} {c : Char}
    (ht : text ∈ part.texts) (hc : c ∈ text) : c ∈ part.source := by
  cases part with
  | literal literal => simpa [Segment.source, ← List.mem_singleton.1 ht] using hc
  | flag name => simp [Segment.source, ← List.mem_singleton.1 ht, hc]
  | choice alternatives =>
    have hjoined : c ∈ Text.joinWith ['|'] alternatives := Text.subset_joinWith ht ['|'] hc
    simp [Segment.source, hjoined]

/-- The characters of pieces are characters of the pattern. -/
theorem Reads.mem_of_mem_pieces {pattern : Text} {parts : List Segment} (h : Reads pattern parts)
    {selection : Selection} {piece : Text} {c : Char} (hp : piece ∈ pieces parts selection)
    (hc : c ∈ piece) : c ∈ pattern := by
  obtain ⟨part, hpart, text, ht, hct⟩ := mem_texts_of_mem_pieces hp hc
  rw [← h.source, List.mem_flatMap]
  exact ⟨part, hpart, mem_source_of_mem_texts ht hct⟩

/-- The expansions of a pattern without edges are the names of its selections. -/
theorem Reads.expansions_eq {pattern : Text} {parts : List Segment} (h : Reads pattern parts)
    (hedge : edge ∉ pattern) {expansions : List Expansion}
    (he : expand? pattern = some expansions) :
    expansions = (selections parts).map fun selection =>
      ⟨nameOf parts selection, recorded parts selection⟩ := by
  rw [← (expand?_eq_some_iff.1 he).1, h.segments_eq, marked_eq, List.map_map]
  apply List.map_congr_left
  intro selection _
  have hpieces : ∀ piece ∈ pieces parts selection, edge ∉ piece :=
    fun piece hp hc => hedge (h.mem_of_mem_pieces hp hc)
  simp [finish, nameOf, strip_collapse_joinWith hpieces]

/-- A valid pattern that closes nothing before it opens it reads as segments in exactly one way. If
it holds no edge and its expansions exist, there are two of them for each flag times the number of
alternatives of each choice, one for each selection in lexicographic order, under the name of the
selection; if no flag recurs, each tells of every flag in order whether it was taken. -/
theorem expand?_eq_crossProduct {pattern : Text} (hv : Valid pattern) (ho : OpensFirst pattern)
    (hedge : edge ∉ pattern) {expansions : List Expansion}
    (he : expand? pattern = some expansions) :
    ∃ parts, Reads pattern parts ∧ (∀ others, Reads pattern others → others = parts) ∧
      expansions.length = 2 ^ (parts.filterMap Segment.flag?).length *
        ((parts.filterMap Segment.alternatives?).map List.length).prod ∧
      ∃ listed : List Selection,
        listed.Pairwise (List.Lex (· < ·)) ∧
        (∀ selection : Selection, selection ∈ listed ↔ selection.Of parts) ∧
        expansions.map Expansion.text = listed.map (nameOf parts) ∧
        ((parts.filterMap Segment.flag?).Nodup →
          expansions.map (fun e => e.flags.entries) = listed.map (presence parts)) := by
  obtain ⟨parts, h⟩ := exists_reads_of_valid hv ho
  have heq := h.expansions_eq hedge he
  refine ⟨parts, h, fun others h' => h'.unique h, ?_, selections parts,
    pairwise_selections parts, fun _ => mem_selections, ?_, ?_⟩
  · rw [heq, List.length_map, length_selections]
  · rw [heq, List.map_map]
    rfl
  · intro hn
    rw [heq, List.map_map]
    apply List.map_congr_left
    intro selection hs
    exact entries_recorded (mem_selections.1 hs) hn

/-- An optional word before a choice of two stands for four names. -/
theorem expand?_crossProduct_notEqualOrBe :
    ∃ expansions, expand? ("[not] to (equal|be)" : String) = some expansions ∧
      expansions.map Expansion.text =
        ["not to equal", "not to be", "to equal", "to be"].map String.toList ∧
      ∃ parts, Reads ("[not] to (equal|be)" : String) parts ∧
        expansions.length = 2 ^ (parts.filterMap Segment.flag?).length *
          ((parts.filterMap Segment.alternatives?).map List.length).prod := by
  have hnames : (expand? ("[not] to (equal|be)" : String)).map (List.map Expansion.text) =
      some (["not to equal", "not to be", "to equal", "to be"].map String.toList) := by
    decide +kernel
  obtain ⟨expansions, he, htexts⟩ := Option.map_eq_some_iff.1 hnames
  obtain ⟨parts, hreads, -, hlength, -⟩ := expand?_eq_crossProduct (by decide +kernel)
    (by decide +kernel) (by decide +kernel) he
  exact ⟨expansions, he, htexts, parts, hreads, hlength⟩

end Pattern
end Expectation

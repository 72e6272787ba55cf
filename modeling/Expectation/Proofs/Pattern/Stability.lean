import Expectation.Proofs.Pattern.Acceptance
import Expectation.Proofs.Pattern.Markup

/-!
# Names as patterns

A name that a valid pattern declares is stripped and holds no delimiter, no edge and no two bars
side by side. So it is itself a valid pattern, made of literal text alone, and the only name that it
declares.
-/

namespace Expectation

namespace Text

/-- A trimmed text is a part of the text. -/
theorem trimBoth_infix (p : Char → Bool) (t : Text) : trimBoth p t <:+: t := by
  obtain ⟨back, hdrop, -⟩ := exists_eq_append_trimBoth p t
  have hprefix : trimBoth p t <+: t.dropWhile p := ⟨back, hdrop.symm⟩
  exact hprefix.isInfix.trans (List.dropWhile_suffix p).isInfix

end Text

namespace Pattern

/-- No bar stands right after a bar. -/
def BarsApart (t : Text) : Prop := t.IsChain fun c d => c = '|' → d ≠ '|'

/-- Bars that stand apart do so in every part of the text. -/
theorem BarsApart.part {part whole : Text} (h : BarsApart whole) (hin : part <:+: whole) :
    BarsApart part :=
  List.IsChain.infix h hin

theorem barsApart_iff {t : Text} : BarsApart t ↔ ¬ ['|', '|'] <:+: t := by
  constructor
  · intro h hin
    exact List.isChain_pair.1 (h.part hin) rfl rfl
  · intro h
    refine (List.isChain_isInfix t).imp ?_
    rintro c d hin rfl rfl
    exact h hin

theorem barsApart_of_notMem {t : Text} (h : '|' ∉ t) : BarsApart t :=
  barsApart_iff.2 fun hin => h (hin.subset (by simp))

/-- Two texts are joined without two bars side by side unless the one ends and the other begins with
a bar. -/
theorem barsApart_append {s t : Text} :
    BarsApart (s ++ t) ↔
      BarsApart s ∧ BarsApart t ∧ (s.getLast? = some '|' → t.head? ≠ some '|') := by
  refine List.isChain_append.trans (and_congr_right fun _ => and_congr_right fun _ => ?_)
  constructor
  · intro h hlast hhead
    exact h _ hlast _ hhead rfl rfl
  · rintro h c hc d hd rfl rfl
    exact h hc hd

/-- Text without bars may stand in front. -/
theorem BarsApart.append_left {s t : Text} (hs : '|' ∉ s) (ht : BarsApart t) :
    BarsApart (s ++ t) :=
  barsApart_append.2
    ⟨barsApart_of_notMem hs, ht, fun hlast => absurd (List.mem_of_getLast? hlast) hs⟩

/-- A name between edges may stand in front. -/
theorem BarsApart.edged {name t : Text} (hname : BarsApart name) (ht : BarsApart t) :
    BarsApart (edge :: name ++ edge :: t) := by
  have hrest : BarsApart (edge :: t) := ht.append_left (s := [edge]) (by decide)
  have hjoined : BarsApart (name ++ edge :: t) :=
    barsApart_append.2 ⟨hname, hrest, fun _ hhead => by cases hhead⟩
  exact hjoined.append_left (s := [edge]) (by decide)

/-- A collapsed text that begins with a bar comes from a text that does. -/
private theorem head?_of_head?_collapse {t : Text} (h : (collapse t).head? = some '|') :
    t.head? = some '|' := by
  cases t with
  | nil => simp [collapse] at h
  | cons c rest =>
    rw [collapse] at h
    split at h
    · next hc =>
      dsimp only at h
      split at h
      · cases h
      · cases h
        exact absurd hc (by decide)
    · exact h

/-- Collapsing brings no two bars together: a gap between them leaves a space or a tab. -/
theorem BarsApart.collapse {t : Text} (h : BarsApart t) : BarsApart (collapse t) := by
  fun_induction Pattern.collapse t with
  | case1 => exact h
  | case2 c rest hc gap ih =>
    have hgap : ∀ d ∈ gap, isGap d = true := by
      intro d hd
      rcases List.mem_cons.1 hd with rfl | hd
      · exact hc
      · exact List.mem_takeWhile_imp hd
    have hfront : '|' ∉ if edge ∈ gap then [' '] else gap := by
      split
      · decide
      · exact fun hbar => absurd (hgap _ hbar) (by decide)
    have hrest : BarsApart (rest.dropWhile isGap) :=
      List.IsChain.suffix h ((List.dropWhile_suffix isGap).trans (List.suffix_cons c rest))
    exact (ih hrest).append_left hfront
  | case3 c rest hc ih =>
    obtain ⟨hfirst, hrest, hjoint⟩ := barsApart_append (s := [c]).1 h
    exact barsApart_append.2 ⟨hfirst, ih hrest, fun hlast hhead =>
      hjoint hlast (head?_of_head?_collapse hhead)⟩

/-- In the texts that proper segments stand for no two bars come together, if none do where the
segments are written out; a text that begins with a bar is written with one in front. -/
private theorem barsApart_marked {parts : List Segment} (hp : ∀ part ∈ parts, part.Proper)
    (hb : BarsApart (parts.flatMap Segment.source)) {e : Expansion} (he : e ∈ marked parts) :
    BarsApart e.text ∧
      (e.text.head? = some '|' → (parts.flatMap Segment.source).head? = some '|') := by
  induction parts generalizing e with
  | nil =>
    rw [marked, List.mem_singleton] at he
    subst he
    exact ⟨List.isChain_nil, id⟩
  | cons part parts ih =>
    have hpart : part.Proper := hp part (by simp)
    rw [List.flatMap_cons] at hb ⊢
    obtain ⟨hsource, hrest, hjoint⟩ := barsApart_append.1 hb
    have hlater : ∀ tail ∈ marked parts, BarsApart tail.text ∧
        (tail.text.head? = some '|' → (parts.flatMap Segment.source).head? = some '|') :=
      fun tail => ih (fun p hmem => hp p (by simp [hmem])) hrest
    cases part with
    | literal text =>
      obtain ⟨tail, htail, rfl⟩ := List.mem_map.1 he
      obtain ⟨hbars, hhead⟩ := hlater tail htail
      refine ⟨barsApart_append.2 ⟨hsource, hbars, fun hlast hbar => ?_⟩, fun hbar => ?_⟩
      · exact hjoint hlast (hhead hbar)
      · rw [Segment.source]
        rwa [List.head?_append_of_ne_nil _ hpart.1] at hbar ⊢
    | flag name =>
      have hname : BarsApart name := BarsApart.part hsource ⟨['['], [']'], rfl⟩
      rcases List.mem_append.1 he with he | he
      · obtain ⟨tail, htail, rfl⟩ := List.mem_map.1 he
        exact ⟨hname.edged (hlater tail htail).1, fun hbar => by cases hbar⟩
      · obtain ⟨tail, htail, rfl⟩ := List.mem_map.1 he
        exact ⟨(hlater tail htail).1.append_left (s := [edge]) (by decide),
          fun hbar => by cases hbar⟩
    | choice alternatives =>
      obtain ⟨text, ht, he⟩ := List.mem_flatMap.1 he
      obtain ⟨tail, htail, rfl⟩ := List.mem_map.1 he
      obtain ⟨hne, -, hnobar⟩ := hpart.2 text ht
      refine ⟨(hlater tail htail).1.append_left hnobar, fun hbar => ?_⟩
      rw [List.head?_append_of_ne_nil _ hne] at hbar
      exact absurd (List.mem_of_head? hbar) hnobar

/-- A text without delimiters, two bars side by side, blank characters at its ends and edges is a
valid pattern that declares itself alone. -/
theorem expand?_eq_self {t : Text} (hne : t ≠ []) (hstrip : t.strip = t) (hfree : Free t)
    (hbars : BarsApart t) (hedge : edge ∉ t) :
    Valid t ∧ expand? t = some [⟨t, .empty⟩] := by
  have hproper : ∀ part ∈ [Segment.literal t], part.Proper := by
    intro part hpart
    rw [List.mem_singleton.1 hpart]
    exact ⟨hne, hfree⟩
  have hsource : [Segment.literal t].flatMap Segment.source = t := by simp [Segment.source]
  have hreads : Reads t [.literal t] := ⟨hsource, hproper, List.isChain_singleton _⟩
  refine ⟨valid_of_wellFormed
    ⟨hne, hstrip.symm, barsApart_iff.1 hbars, [.literal t], hproper, hsource⟩, ?_⟩
  rw [expand?_eq_some_iff, hreads.segments_eq]
  simp [marked, finish, collapse_of_edge_notMem hedge, hstrip, hne]

/-- Every name that a valid pattern declares is a valid pattern, of which it is the only name, with
no flags; the pattern must close nothing before it opens it. -/
theorem expand?_text_of_mem {pattern : Text} (hv : Valid pattern) (ho : OpensFirst pattern)
    {expansions : List Expansion} (he : expand? pattern = some expansions) {e : Expansion}
    (hmem : e ∈ expansions) : Valid e.text ∧ expand? e.text = some [⟨e.text, .empty⟩] := by
  obtain ⟨parts, h⟩ := exists_reads_of_valid hv ho
  have hne : e.text ≠ [] := (expand?_eq_some_iff.1 he).2 e hmem
  have hmarked := hmem
  rw [← (expand?_eq_some_iff.1 he).1, h.segments_eq] at hmarked
  obtain ⟨tail, htail, rfl⟩ := List.mem_map.1 hmarked
  have hpattern : BarsApart (parts.flatMap Segment.source) := by
    rw [h.source]
    exact barsApart_iff.2 (wellFormed_of_valid hv ho).bars
  have hbars : BarsApart (finish tail).text :=
    (barsApart_marked h.proper hpattern htail).1.collapse.part (Text.trimBoth_infix _ _)
  have hedge : edge ∉ (finish tail).text :=
    fun hin => edge_notMem_collapse _ (Text.mem_of_mem_trimBoth hin)
  exact expand?_eq_self hne (strip_of_expand? he hmem) (h.free_expansions he _ hmem) hbars hedge

/-- A flag between bars whose word is a bar: the bars of the names stand apart. -/
theorem expand?_text_barFlag :
    ∃ expansions, expand? ("a|[|]|(b|c)" : String) = some expansions ∧
      expansions.map Expansion.text = ["a| | |b", "a| | |c", "a| |b", "a| |c"].map String.toList ∧
      ∀ e ∈ expansions, Valid e.text ∧ expand? e.text = some [⟨e.text, .empty⟩] := by
  have hnames : (expand? ("a|[|]|(b|c)" : String)).map (List.map Expansion.text) =
      some (["a| | |b", "a| | |c", "a| |b", "a| |c"].map String.toList) := by
    decide +kernel
  obtain ⟨expansions, he, htexts⟩ := Option.map_eq_some_iff.1 hnames
  exact ⟨expansions, he, htexts, fun e hmem =>
    expand?_text_of_mem (by decide +kernel) (by decide +kernel) he hmem⟩

end Pattern
end Expectation

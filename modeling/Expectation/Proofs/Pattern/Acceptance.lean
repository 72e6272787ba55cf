import Mathlib.Data.List.Infix
import Expectation.Proofs.Pattern.Balance

/-!
# Accepted patterns

Where nothing is closed before it is opened, the scan of a pattern accepts a grammar: literal text,
flags and choices one after another, in which nothing is empty and nothing holds a delimiter, with
no blank character at the ends and no two bars side by side.
-/

namespace Expectation

namespace Pattern

/-- A pattern of the grammar. -/
structure WellFormed (pattern : Text) : Prop where
  nonempty : pattern ≠ []
  stripped : pattern = pattern.strip
  bars : ¬ ['|', '|'] <:+: pattern
  composed : ∃ parts : List Segment,
    (∀ part ∈ parts, part.Proper) ∧ parts.flatMap Segment.source = pattern

private theorem not_bars_of_notMem {text : Text} (h : '|' ∉ text) (previous : Option Char) :
    ¬ ['|', '|'] <:+: previous.toList ++ text := by
  have htext : ¬ ['|', '|'] <:+: text := fun hin => h (hin.subset (by simp))
  cases previous with
  | none => exact htext
  | some p =>
    intro hin
    rcases List.infix_cons_iff.1 hin with hpre | hin
    · have hbar : ['|'] <+: text := (List.cons_prefix_cons.1 hpre).2
      exact h (hbar.subset (by simp))
    · exact htext hin

private theorem exists_getLast?_of_free {text : Text} (hne : text ≠ []) (hf : Free text) :
    ∃ last ∈ text, text.getLast? = some last ∧ last ≠ '[' ∧ last ≠ '(' := by
  have hlast := List.getLast_mem hne
  have hfree := hf _ hlast
  simp only [delimiters, List.mem_cons, not_or] at hfree
  exact ⟨_, hlast, List.getLast?_eq_some_getLast hne, hfree.1, hfree.2.2.1⟩

namespace Tally

/-- A scan that finds no offence meets no two bars side by side. -/
theorem not_bars_of_firstOffence? {pattern : Text} {tally : Tally} {rest : Text}
    (ha : tally.Ahead rest) (h : firstOffence? pattern tally rest = none) :
    ¬ ['|', '|'] <:+: tally.previous.toList ++ rest := by
  induction rest generalizing tally with
  | nil => exact not_bars_of_notMem (by simp) _
  | cons c rest ih =>
    have hstep := firstOffence?_cons_eq_none.1 h
    have hlater : ¬ ['|', '|'] <:+: c :: rest := ih ha.read hstep.2
    cases hp : tally.previous with
    | none => exact hlater
    | some p =>
      intro hin
      have hin : ['|', '|'] <:+: p :: c :: rest := hin
      rcases List.infix_cons_iff.1 hin with hpre | hin
      · simp only [List.cons_prefix_cons, List.nil_prefix, and_true] at hpre
        obtain ⟨rfl, rfl⟩ := hpre
        exact (offence?_bar ha.now.2 hstep.1).2 hp
      · exact hlater hin

private theorem count_of_free {tally : Tally} {c : Char} (h : c ∉ delimiters) :
    tally.count c = tally := by
  simp only [delimiters, List.mem_cons, not_or] at h
  simp [count, h]

private theorem offence?_of_free {pattern : Text} {tally : Tally} {c : Char} (h : c ∉ delimiters)
    (hbar : c = '|' → tally.previous ≠ some '(' ∧ tally.previous ≠ some '|') :
    offence? pattern tally c = none := by
  simp only [delimiters, List.mem_cons, not_or] at h
  by_cases hc : c = '|'
  · simp [offence?, endOfAlternative?, h, hbar hc]
  · simp [offence?, h, hc]

/-- Text without delimiters is read without an offence if a bar in it follows neither a bar nor an
opening parenthesis. -/
theorem firstOffence?_append_of_free {pattern : Text} {tally : Tally} {text rest : Text}
    (hf : Free text) (hb : ¬ ['|', '|'] <:+: tally.previous.toList ++ text)
    (hp : tally.previous = some '(' → '|' ∉ text) :
    firstOffence? pattern tally (text ++ rest) =
      firstOffence? pattern { tally with previous := text.getLast?.or tally.previous } rest := by
  induction text generalizing tally with
  | nil => rfl
  | cons c text ih =>
    have hc : c ∉ delimiters := hf c (by simp)
    have hbar : c = '|' → tally.previous ≠ some '(' ∧ tally.previous ≠ some '|' := by
      rintro rfl
      refine ⟨fun hprev => hp hprev (by simp), fun hprev => hb ?_⟩
      rw [hprev]
      exact ⟨[], text, rfl⟩
    have hlater : ¬ ['|', '|'] <:+: c :: text := by
      intro hin
      exact hb (hin.trans (List.suffix_append _ _).isInfix)
    have hopen : (some c : Option Char) = some '(' → '|' ∉ text := by
      intro heq
      cases heq
      exact absurd hc (by decide)
    have hrest : firstOffence? pattern { tally with previous := some c } (text ++ rest) =
        firstOffence? pattern { tally with previous := text.getLast?.or (some c) } rest :=
      ih (fun d hd => hf d (by simp [hd])) hlater hopen
    rw [List.cons_append, firstOffence?, count_of_free hc, offence?_of_free hc hbar]
    change firstOffence? pattern { tally with previous := some c } (text ++ rest) = _
    rw [hrest, List.getLast?_cons]
    cases text.getLast? <;> rfl

/-- The alternatives of a choice and the parenthesis that closes it are read without an offence. -/
theorem InChoice.firstOffence?_alternatives {pattern : Text} {tally : Tally} {texts : List Text}
    {rest : Text} (h : tally.InChoice) (hne : texts ≠ [])
    (ht : ∀ text ∈ texts, text ≠ [] ∧ Free text ∧ '|' ∉ text) :
    firstOffence? pattern tally (Text.joinWith ['|'] texts ++ ')' :: rest) =
      firstOffence? pattern
        { tally with closeParens := tally.closeParens + 1, previous := some ')' } rest := by
  induction texts generalizing tally with
  | nil => exact absurd rfl hne
  | cons text texts ih =>
    obtain ⟨htext, hfree, hnobar⟩ := ht text (by simp)
    obtain ⟨last, hmem, hlast, -, hopen⟩ := exists_getLast?_of_free htext hfree
    have hsolid : last ≠ '(' ∧ last ≠ '|' := ⟨hopen, ne_of_mem_of_not_mem hmem hnobar⟩
    have hread : ∀ after, firstOffence? pattern tally (text ++ after) =
        firstOffence? pattern { tally with previous := some last } after := by
      intro after
      rw [firstOffence?_append_of_free hfree (not_bars_of_notMem hnobar _) fun _ => hnobar, hlast]
      rfl
    simp only [InChoice] at h
    cases texts with
    | nil =>
      rw [Text.joinWith, hread]
      simp [firstOffence?, offence?, closingParen?, endOfAlternative?, count, h, hsolid]
    | cons next texts =>
      have hjoin : Text.joinWith ['|'] (text :: next :: texts) ++ ')' :: rest =
          text ++ '|' :: (Text.joinWith ['|'] (next :: texts) ++ ')' :: rest) := by
        simp [Text.joinWith]
      have hbar : ∀ after, firstOffence? pattern { tally with previous := some last }
          ('|' :: after) = firstOffence? pattern { tally with previous := some '|' } after := by
        intro after
        simp [firstOffence?, offence?, endOfAlternative?, count, hsolid]
      rw [hjoin, hread, hbar]
      exact ih h (by simp) fun t hmem => ht t (by simp [hmem])

/-- A proper segment is read without an offence, from where nothing is open to where nothing is
open. -/
theorem Level.exists_firstOffence?_source {pattern : Text} {tally : Tally} {part : Segment}
    (h : tally.Level) (hp : part.Proper) (hprev : tally.previous ≠ some '(')
    (hb : ¬ ['|', '|'] <:+: tally.previous.toList ++ part.source) (rest : Text) :
    ∃ tally', tally'.Level ∧ tally'.previous = part.source.getLast? ∧
      tally'.previous ≠ some '(' ∧
      firstOffence? pattern tally (part.source ++ rest) = firstOffence? pattern tally' rest := by
  simp only [Level] at h
  cases part with
  | literal text =>
    obtain ⟨last, -, hlast, -, hsolid⟩ := exists_getLast?_of_free hp.1 hp.2
    refine ⟨{ tally with previous := some last }, h, hlast.symm, by simpa using hsolid, ?_⟩
    rw [Segment.source, firstOffence?_append_of_free hp.2 hb fun hopen => absurd hopen hprev, hlast]
    rfl
  | flag name =>
    obtain ⟨last, -, hlast, hsolid, -⟩ := exists_getLast?_of_free hp.1 hp.2
    have hname : ¬ ['|', '|'] <:+: (some '[').toList ++ name := by
      intro hin
      refine hb (hin.trans ⟨tally.previous.toList, [']'], ?_⟩)
      simp [Segment.source]
    refine ⟨⟨tally.openBrackets + 1, tally.closeBrackets + 1, tally.openParens, tally.closeParens,
      some ']'⟩, by simpa [Level] using h, ?_, by simp, ?_⟩
    · rw [Segment.source, List.getLast?_concat]
    · have hopen : firstOffence? pattern tally (Segment.source (.flag name) ++ rest) =
          firstOffence? pattern
            { tally with openBrackets := tally.openBrackets + 1, previous := some '[' }
            (name ++ ']' :: rest) := by
        simp [Segment.source, firstOffence?, offence?, count]
      rw [hopen, firstOffence?_append_of_free hp.2 hname (by simp), hlast]
      simp [firstOffence?, offence?, closingBracket?, count, h, hsolid]
  | choice texts =>
    have hopen : firstOffence? pattern tally (Segment.source (.choice texts) ++ rest) =
        firstOffence? pattern
          { tally with openParens := tally.openParens + 1, previous := some '(' }
          (Text.joinWith ['|'] texts ++ ')' :: rest) := by
      simp [Segment.source, firstOffence?, offence?, count]
    refine ⟨⟨tally.openBrackets, tally.closeBrackets, tally.openParens + 1, tally.closeParens + 1,
      some ')'⟩, by simpa [Level] using h, ?_, by simp, ?_⟩
    · rw [Segment.source, List.getLast?_concat]
    · rw [hopen, InChoice.firstOffence?_alternatives (by simpa [InChoice] using h) hp.1 hp.2]

/-- Proper segments are read to their end without an offence, if no two bars meet. -/
theorem Level.firstOffence?_flatMap_source {pattern : Text} {tally : Tally} {parts : List Segment}
    (h : tally.Level) (hp : ∀ part ∈ parts, part.Proper) (hprev : tally.previous ≠ some '(')
    (hb : ¬ ['|', '|'] <:+: tally.previous.toList ++ parts.flatMap Segment.source) :
    firstOffence? pattern tally (parts.flatMap Segment.source) = none := by
  induction parts generalizing tally with
  | nil => exact firstOffence?_nil_eq_none.2 h
  | cons part parts ih =>
    rw [List.flatMap_cons] at hb ⊢
    have hfirst : ¬ ['|', '|'] <:+: tally.previous.toList ++ part.source := by
      intro hin
      apply hb
      rw [← List.append_assoc]
      exact hin.trans (List.prefix_append _ _).isInfix
    obtain ⟨tally', hlevel, hlast, hopen, heq⟩ := h.exists_firstOffence?_source
      (hp part (by simp)) hprev hfirst (parts.flatMap Segment.source)
    rw [heq]
    apply ih hlevel (fun p hmem => hp p (by simp [hmem])) hopen
    intro hin
    apply hb
    have hsuffix : tally'.previous.toList <:+ part.source := by
      rw [hlast]
      cases hsource : part.source.getLast? with
      | none => exact List.nil_suffix
      | some last =>
        obtain ⟨front, hfront⟩ := List.getLast?_eq_some_iff.1 hsource
        exact ⟨front, hfront.symm⟩
    obtain ⟨front, hfront⟩ := hsuffix
    refine hin.trans ⟨tally.previous.toList ++ front, [], ?_⟩
    simp [← hfront]

end Tally

/-- What is accepted is in the grammar, if it closes nothing before it opens it. -/
theorem wellFormed_of_valid {pattern : Text} (hv : Valid pattern) (ho : OpensFirst pattern) :
    WellFormed pattern := by
  obtain ⟨hne, hstrip, hnone⟩ := valid_iff.1 hv
  obtain ⟨parts, h⟩ := exists_reads_of_valid hv ho
  exact ⟨hne, hstrip, Tally.not_bars_of_firstOffence? ho.ahead hnone, parts, h.proper, h.source⟩

/-- What is in the grammar is accepted. -/
theorem valid_of_wellFormed {pattern : Text} (h : WellFormed pattern) : Valid pattern := by
  obtain ⟨parts, hproper, hsource⟩ := h.composed
  have hlevel : Tally.start.Level := ⟨rfl, rfl⟩
  have hbars : ¬ ['|', '|'] <:+: Tally.start.previous.toList ++ parts.flatMap Segment.source := by
    rw [hsource]
    exact h.bars
  have hnone : Tally.firstOffence? pattern .start pattern = none := by
    conv_lhs => rw [← hsource]
    exact hlevel.firstOffence?_flatMap_source hproper (by simp [Tally.start]) hbars
  exact valid_iff.2 ⟨h.nonempty, h.stripped, hnone⟩

/-- Of the patterns that close nothing before they open it, exactly those of the grammar have no
fault, and every other one has a fault. -/
theorem fault?_eq_none_iff_wellFormed {pattern : Text} (ho : OpensFirst pattern) :
    (fault? pattern = none ↔ WellFormed pattern) ∧
      (¬ WellFormed pattern → ∃ fault, fault? pattern = some fault) := by
  have hiff : fault? pattern = none ↔ WellFormed pattern :=
    ⟨fun hv => wellFormed_of_valid hv ho, valid_of_wellFormed⟩
  refine ⟨hiff, fun hbad => ?_⟩
  rw [← hiff] at hbad
  exact Option.ne_none_iff_exists'.1 hbad

/-- A flag before a choice is in the grammar; a flag in a flag in a flag is not. -/
theorem fault?_wellFormed_notEqualOrBe :
    OpensFirst ("[not] to (equal|be)" : String) ∧ WellFormed ("[not] to (equal|be)" : String) ∧
      OpensFirst ("[[[a]]]" : String) ∧ ¬ WellFormed ("[[[a]]]" : String) ∧
      ∃ fault, fault? ("[[[a]]]" : String) = some fault := by
  have ho : OpensFirst ("[not] to (equal|be)" : String) := by decide +kernel
  have ho' : OpensFirst ("[[[a]]]" : String) := by decide +kernel
  have hbad : ¬ WellFormed ("[[[a]]]" : String) := by
    rw [← (fault?_eq_none_iff_wellFormed ho').1]
    decide +kernel
  exact ⟨ho, (fault?_eq_none_iff_wellFormed ho).1.1 (by decide +kernel), ho', hbad,
    (fault?_eq_none_iff_wellFormed ho').2 hbad⟩

end Pattern
end Expectation

import Expectation.Pattern.Marker
import Expectation.Proofs.Pattern.Expansion

/-!
# Rewriting markers

A pattern that an assertion evaluates inside itself has its flags for markers. Where the flags are
set apart from the text around them by single spaces, replacing the markers by the flags of an
expansion gives the name of the expansion: the space that belongs to a marker is the one that the
gap around the flag leaves.
-/

namespace Expectation

namespace Marker

variable {isSet : Text → Bool}

/-- A beginning without opening brackets is kept. -/
theorem replaceAll_append {text : Text} (h : '[' ∉ text) (rest : Text) :
    replaceAll isSet (text ++ rest) = text ++ replaceAll isSet rest := by
  induction text with
  | nil => rfl
  | cons c text ih =>
    rw [List.mem_cons, not_or] at h
    have hread : Delimited.read? '[' ']' (c :: (text ++ rest)) = none := by
      simp [Delimited.read?, Ne.symm h.1]
    rw [List.cons_append, replaceAll]
    split
    · next hsome =>
      rw [hread] at hsome
      cases hsome
    · rw [ih h.2]
      rfl

/-- A text without opening brackets is kept. -/
theorem replaceAll_eq_self {t : Text} (h : '[' ∉ t) : replaceAll isSet t = t := by
  have happend : replaceAll isSet (t ++ []) = t ++ replaceAll isSet [] := replaceAll_append h []
  rwa [List.append_nil, replaceAll, List.append_nil] at happend

/-- A marker is written, and takes one space with it. -/
theorem replaceAll_marker {inner : Text} (hne : inner ≠ []) (hclose : ']' ∉ inner) (rest : Text) :
    replaceAll isSet ('[' :: inner ++ ']' :: rest) =
      written isSet (ofInner inner) ++ replaceAll isSet (skipSpace rest) := by
  have hread : Delimited.read? '[' ']' ('[' :: (inner ++ ']' :: rest)) = some ⟨inner, rest⟩ :=
    Delimited.read?_eq_some hne hclose rest
  rw [List.cons_append, replaceAll]
  split
  · next hsome =>
    rw [hread] at hsome
    cases hsome
    rfl
  · next hnone =>
    rw [hread] at hnone
    cases hnone

/-- A marker that does not begin with an exclamation mark asks for its flag. -/
theorem ofInner_of_head? {inner : Text} (h : inner.head? ≠ some '!') :
    ofInner inner = ⟨inner, false⟩ := by
  unfold ofInner
  split
  · exact absurd rfl h
  · rfl

/-- A stripped name without opening brackets stands for itself. -/
theorem unmark_eq_self {name : Text} (hopen : '[' ∉ name) (hstrip : name.strip = name) :
    unmark isSet name = name := by
  rw [unmark, replaceAll_eq_self hopen, hstrip]

/-- Nothing is skipped where there is no space. -/
theorem skipSpace_eq_self {t : Text} (h : t.head? ≠ some ' ') : skipSpace t = t := by
  unfold skipSpace
  split
  · exact absurd rfl h
  · rfl

end Marker

namespace Pattern

open Marker

/-- A text begins with at most one space. -/
def Tight (t : Text) : Prop :=
  t = [] ∨ (∃ c rest, t = c :: rest ∧ isSpacing c = false) ∨
    ∃ c rest, t = ' ' :: c :: rest ∧ isSpacing c = false

/-- A text does not begin with a space or a tab. -/
def Flush (t : Text) : Prop := ∀ c ∈ t.head?, isSpacing c = false

/-- A text does not end with a space or a tab. -/
def FlushEnd (t : Text) : Prop := ∀ c ∈ t.getLast?, isSpacing c = false

/-- A flag is set apart from the segments before and after it. -/
structure Standing (before after : List Segment) : Prop where
  front : before = [] ∨ (∃ name, before.getLast? = some (.flag name)) ∨
    ∃ text, before.flatMap Segment.source = text ++ [' '] ∧ FlushEnd text
  back : Tight (after.flatMap Segment.source)

/-- The name of a flag as a marker that asks for it. -/
structure Plain (name : Text) : Prop where
  positive : name.head? ≠ some '!'
  flush : Flush name
  flushEnd : FlushEnd name

/-- The flags of a pattern are different, plain, and set apart. -/
structure FlagsStandApart (pattern : Text) : Prop where
  distinct : ((segments pattern).filterMap Segment.flag?).Nodup
  plain : ∀ name ∈ (segments pattern).filterMap Segment.flag?, Plain name
  standing : ∀ before name after, segments pattern = before ++ .flag name :: after →
    Standing before after

/-- Segments in which flags are set apart, as they come after a flag or first: text has at most one
space before it, and one after it if a flag follows. -/
inductive Apart : List Segment → Prop
  | nil : Apart []
  | flag {name : Text} {parts : List Segment} (hp : Segment.Proper (.flag name)) (hn : Plain name)
      (h : Apart parts) : Apart (.flag name :: parts)
  | last {gap core : Text} (hgap : gap = [] ∨ gap = [' ']) (hne : core ≠ []) (hflush : Flush core)
      (hopen : '[' ∉ core) : Apart [.literal (gap ++ core)]
  | text {gap core name : Text} {parts : List Segment} (hgap : gap = [] ∨ gap = [' '])
      (hne : core ≠ []) (hflush : Flush core) (hend : FlushEnd core) (hopen : '[' ∉ core)
      (h : Apart (.flag name :: parts)) :
      Apart (.literal (gap ++ core ++ [' ']) :: .flag name :: parts)
  | space {name : Text} {parts : List Segment} (h : Apart (.flag name :: parts)) :
      Apart (.literal [' '] :: .flag name :: parts)

private theorem isSpacing_of_mem_gap {gap : Text} (h : gap = [] ∨ gap = [' ']) :
    ∀ c ∈ gap, isSpacing c = true := by
  rcases h with rfl | rfl <;> simp [isSpacing]

private theorem skipSpace_gap {gap core : Text} (hgap : gap = [] ∨ gap = [' ']) (hne : core ≠ [])
    (hflush : Flush core) (rest : Text) : skipSpace (gap ++ core ++ rest) = core ++ rest := by
  obtain ⟨c, core, rfl⟩ := List.exists_cons_of_ne_nil hne
  rcases hgap with rfl | rfl
  · refine skipSpace_eq_self fun heq => ?_
    cases heq
    cases hflush ' ' rfl
  · rfl

private theorem skipSpace_flag (name : Text) (parts : List Segment) :
    skipSpace ((Segment.flag name :: parts).flatMap Segment.source) =
      (Segment.flag name :: parts).flatMap Segment.source := by
  apply skipSpace_eq_self
  simp [Segment.source]

/-- The text before a flag is the first piece. -/
private theorem exists_pieces_literal_flag (text name : Text) (parts : List Segment)
    {selection : Selection} (hs : selection.Of (.literal text :: .flag name :: parts)) :
    ∃ (way : Nat) (selection' : Selection) (others : List Text), selection = way :: selection' ∧
      selection'.Of (.flag name :: parts) ∧
      pieces (.literal text :: .flag name :: parts) selection = text :: others ∧
      words (pieces (.flag name :: parts) selection') = words others := by
  cases hs with
  | @cons way _ selection' _ _ hs =>
    cases hs with
    | @cons way' _ later _ _ hs' =>
      by_cases hway : way' = 0
      · refine ⟨way, _, name :: pieces parts later, rfl, .cons ‹_› hs', ?_, ?_⟩
        · simp [pieces, hway]
        · rw [pieces, if_pos hway, words_cons_of_nil rfl]
      · refine ⟨way, _, pieces parts later, rfl, .cons ‹_› hs', ?_, ?_⟩
        · simp [pieces, hway]
        · rw [pieces, if_neg hway, words_cons_of_nil rfl]

/-- The word of text that is set apart. -/
private theorem words_gap {gap core : Text} (hgap : gap = [] ∨ gap = [' ']) (hne : core ≠ [])
    (hflush : Flush core) (rest : Text) (others : List Text) :
    words ((gap ++ (core ++ rest)) :: others) =
      Text.trimBoth isSpacing (core ++ rest) :: words others := by
  have hflush' : Flush (core ++ rest) := by
    intro c hc
    obtain ⟨d, core, rfl⟩ := List.exists_cons_of_ne_nil hne
    exact hflush c hc
  have hspaces := isSpacing_of_mem_gap hgap
  have hword : (gap ++ (core ++ rest)).dropWhile isSpacing ≠ [] := by
    rw [List.dropWhile_append_of_pos hspaces, Text.dropWhile_eq_self hflush']
    simp [hne]
  rw [words_cons_of_ne_nil hword, Text.trimBoth_append_left hspaces]

/-- With its markers replaced by the flags of a selection, what follows a flag becomes the words of
the selection with single spaces between them, up to spaces and tabs at the end. -/
theorem exists_replaceAll_source {parts : List Segment} (h : Apart parts) {selection : Selection}
    (hs : selection.Of parts) {isSet : Text → Bool}
    (hset : ∀ entry ∈ presence parts selection, isSet entry.1 = entry.2) :
    ∃ back, replaceAll isSet (skipSpace (parts.flatMap Segment.source)) =
        Text.joinWith [' '] (words (pieces parts selection)) ++ back ∧
      ∀ c ∈ back, isSpacing c = true := by
  induction h generalizing selection with
  | nil =>
    cases hs
    refine ⟨[], ?_, by simp⟩
    simp [skipSpace, replaceAll, pieces, words, Text.trimBoth, Text.joinWith]
  | @flag name parts hp hn h ih =>
    cases hs with
    | @cons way _ selection _ _ hs =>
      have hname : isSet name = decide (way = 0) := hset _ List.mem_cons_self
      obtain ⟨back, hrest, hback⟩ := ih hs fun entry he => hset entry (List.mem_cons_of_mem _ he)
      have hsource : (Segment.flag name :: parts).flatMap Segment.source =
          '[' :: name ++ ']' :: parts.flatMap Segment.source := by
        simp [Segment.source]
      rw [skipSpace_flag, hsource, replaceAll_marker hp.1 fun hc => hp.2 _ hc (by decide),
        ofInner_of_head? hn.positive, hrest, pieces]
      by_cases hway : way = 0
      · have hword : name.dropWhile isSpacing ≠ [] := by
          rw [Text.dropWhile_eq_self hn.flush]
          exact hp.1
        have hwritten : written isSet ⟨name, false⟩ = name ++ [' '] := by
          simp [written, hname, hway]
        rw [if_pos hway, words_cons_of_nil rfl, words_cons_of_ne_nil hword,
          Text.trimBoth_eq_self hn.flush hn.flushEnd, hwritten, List.append_assoc]
        exact exists_joinWith_cons name _ hback
      · have hwritten : written isSet ⟨name, false⟩ = [] := by
          simp [written, hname, hway]
        rw [if_neg hway, words_cons_of_nil rfl, hwritten]
        exact ⟨back, rfl, hback⟩
  | @last gap core hgap hne hflush hopen =>
    cases hs with
    | @cons way _ selection _ _ hs =>
      cases hs
      obtain ⟨back, hdrop, hback⟩ := Text.exists_eq_append_trimBoth isSpacing core
      rw [Text.dropWhile_eq_self hflush] at hdrop
      have hskip := skipSpace_gap hgap hne hflush []
      have hword := words_gap hgap hne hflush [] []
      rw [List.append_nil] at hskip hword
      refine ⟨back, ?_, hback⟩
      simp only [List.flatMap_cons, List.flatMap_nil, Segment.source, List.append_nil, pieces,
        List.modifyHead_cons] at hskip ⊢
      rw [hskip, replaceAll_eq_self hopen, hword]
      exact hdrop
  | @text gap core name parts hgap hne hflush hend hopen h ih =>
    obtain ⟨way, selection, others, rfl, hs, hpieces, hwords⟩ :=
      exists_pieces_literal_flag _ _ _ hs
    obtain ⟨back, hrest, hback⟩ := ih hs hset
    have hcore : Text.trimBoth isSpacing (core ++ [' ']) = core := by
      rw [Text.trimBoth_append_right (by simp [isSpacing]), Text.trimBoth_eq_self hflush hend]
    rw [skipSpace_flag, hwords] at hrest
    rw [hpieces, List.append_assoc, words_gap hgap hne hflush, hcore, List.flatMap_cons,
      Segment.source, ← List.append_assoc, List.append_assoc _ [' '], skipSpace_gap hgap hne hflush,
      replaceAll_append hopen, replaceAll_append (by simp), hrest]
    exact exists_joinWith_cons core _ hback
  | @space name parts h ih =>
    obtain ⟨way, selection, others, rfl, hs, hpieces, hwords⟩ :=
      exists_pieces_literal_flag _ _ _ hs
    rw [hpieces, words_cons_of_nil rfl, ← hwords]
    have := ih hs hset
    rwa [skipSpace_flag] at this

private theorem apart_last {text : Text} (hp : Segment.Proper (.literal text)) (ht : Tight text) :
    Apart [.literal text] := by
  have hopen : '[' ∉ text := fun hc => hp.2 _ hc (by decide)
  rcases ht with rfl | ⟨c, rest, rfl, hc⟩ | ⟨c, rest, rfl, hc⟩
  · exact absurd rfl hp.1
  · exact .last (.inl rfl) (by simp) (by simpa [Flush] using hc) hopen
  · exact .last (.inr rfl) (by simp) (by simpa [Flush] using hc) fun hmem => hopen (by simp [hmem])

/-- Text with at most one space before it, and one after it before a flag. -/
private theorem apart_literal_flag {text name after : Text} {parts : List Segment}
    (hopen : '[' ∉ text) (ht : Tight (text ++ [' '] ++ '[' :: after)) (hend : FlushEnd text)
    (h : Apart (.flag name :: parts)) :
    Apart (.literal (text ++ [' ']) :: .flag name :: parts) := by
  cases text with
  | nil => exact .space h
  | cons c text =>
    by_cases hc : isSpacing c = true
    · -- The text begins with its one space, and does not end there.
      rcases ht with hnil | ⟨d, rest, heq, hd⟩ | ⟨d, rest, heq, hd⟩
      · simp at hnil
      · cases heq
        rw [hc] at hd
        cases hd
      · cases text with
        | nil =>
          have := hend c rfl
          rw [hc] at this
          cases this
        | cons e text =>
          cases heq
          have hflush : Flush (d :: text) := by simpa [Flush] using hd
          refine @Apart.text [' '] (d :: text) _ _ (.inr rfl) (by simp) hflush ?_ ?_ h
          · intro x hx
            exact hend x (by rwa [List.getLast?_cons_cons])
          · exact fun hmem => hopen (List.mem_cons_of_mem _ hmem)
    · exact .text (.inl rfl) (by simp) (by simpa [Flush] using hc) hend hopen h

/-- Text before a flag that is set apart ends with a single space. -/
private theorem Standing.exists_front {before after : List Segment} {text : Text}
    (h : Standing (before ++ [.literal text]) after) (hne : text ≠ []) :
    ∃ front, text = front ++ [' '] ∧ FlushEnd front := by
  obtain ⟨front, last, rfl⟩ := (List.eq_nil_or_concat text).resolve_left hne
  rcases h.front with hnil | ⟨name, hlast⟩ | ⟨rest, heq, hend⟩
  · simp at hnil
  · simp at hlast
  · rw [List.concat_eq_append] at hne heq ⊢
    rw [List.flatMap_append, List.flatMap_singleton, Segment.source, ← List.append_assoc] at heq
    obtain ⟨rfl, hsingle⟩ := List.append_inj' heq rfl
    cases hsingle
    refine ⟨front, rfl, fun c hc => hend c ?_⟩
    rw [List.getLast?_append, Option.mem_def.1 hc]
    rfl

/-- Segments are apart where every flag among them is set apart from what stands before them and in
them, and no choice is among them. -/
private theorem apart_of_standing {before parts : List Segment}
    (hproper : ∀ part ∈ parts, part.Proper)
    (hmaximal : parts.IsChain fun part next => part.IsLiteral → ¬ next.IsLiteral)
    (hchoice : ∀ texts, .choice texts ∉ parts) (hplain : ∀ name, .flag name ∈ parts → Plain name)
    (hstanding : ∀ between name after, parts = between ++ .flag name :: after →
      Standing (before ++ between) after)
    (ht : Tight (parts.flatMap Segment.source)) : Apart parts := by
  induction parts generalizing before with
  | nil => exact .nil
  | cons part parts ih =>
    have hrest : Tight (parts.flatMap Segment.source) → Apart parts := by
      apply @ih (before ++ [part]) (fun p hp => hproper p (List.mem_cons_of_mem _ hp))
        hmaximal.tail (fun texts hmem => hchoice texts (List.mem_cons_of_mem _ hmem))
        (fun name hmem => hplain name (List.mem_cons_of_mem _ hmem))
      intro between name after heq
      have := hstanding (part :: between) name after (by rw [heq]; rfl)
      rwa [List.append_assoc]
    cases part with
    | choice texts => exact absurd List.mem_cons_self (hchoice texts)
    | flag name =>
      have hback := (hstanding [] name parts rfl).back
      exact .flag (hproper _ List.mem_cons_self) (hplain name List.mem_cons_self) (hrest hback)
    | literal text =>
      have hp := hproper _ List.mem_cons_self
      cases parts with
      | nil => exact apart_last hp (by simpa [Segment.source] using ht)
      | cons next parts =>
        cases next with
        | literal other =>
          exact absurd trivial ((List.isChain_cons_cons.1 hmaximal).1 trivial)
        | choice texts => exact absurd (by simp) (hchoice texts)
        | flag name =>
          obtain ⟨front, rfl, hend⟩ :=
            (hstanding [.literal text] name parts rfl).exists_front hp.1
          have hsource : (Segment.flag name :: parts).flatMap Segment.source =
              '[' :: (name ++ ']' :: parts.flatMap Segment.source) := by
            simp [Segment.source]
          have hflag : Apart (.flag name :: parts) := by
            apply hrest
            rw [hsource]
            exact .inr (.inl ⟨'[', _, rfl, rfl⟩)
          rw [List.flatMap_cons, hsource] at ht
          exact apart_literal_flag (fun hc => hp.2 '[' (by simp [hc]) (by decide)) ht hend hflag

/-- A valid pattern begins and ends with no space or tab. -/
private theorem Valid.flush {pattern : Text} (hv : Valid pattern) : Flush pattern := by
  intro c hc
  rw [(valid_iff.1 hv).2.1] at hc
  have hblank := Text.not_of_mem_head?_trimBoth hc
  by_contra hspacing
  rw [Bool.not_eq_false] at hspacing
  rw [isBlank_of_isSpacing hspacing] at hblank
  cases hblank

/-- The segments of a pattern whose flags stand apart. -/
theorem Reads.apart {pattern : Text} {parts : List Segment} (h : Reads pattern parts)
    (hv : Valid pattern) (hparen : '(' ∉ pattern) (hf : FlagsStandApart pattern) :
    Apart parts := by
  have hsegments := h.segments_eq
  have hmem : ∀ part ∈ parts, ∀ c ∈ part.source, c ∈ pattern := by
    intro part hpart c hc
    rw [← h.source]
    exact List.mem_flatMap.2 ⟨part, hpart, hc⟩
  refine @apart_of_standing [] parts h.proper h.maximal ?_ ?_ ?_ ?_
  · intro texts hpart
    exact hparen (hmem _ hpart '(' (by simp [Segment.source]))
  · intro name hpart
    refine hf.plain name (List.mem_filterMap.2 ⟨.flag name, ?_, rfl⟩)
    rwa [hsegments]
  · intro between name after heq
    exact hf.standing between name after (by rw [hsegments, heq])
  · rw [h.source]
    cases hpattern : pattern with
    | nil => exact .inl rfl
    | cons c rest => exact .inr (.inl ⟨c, rest, rfl, hv.flush c (by rw [hpattern]; rfl)⟩)

/-- A pattern whose flags stand apart, with its markers replaced by the flags of one of its
expansions, is the name of the expansion. -/
theorem unmark_eq_text {pattern : Text} (hv : Valid pattern) (ho : OpensFirst pattern)
    (hedge : edge ∉ pattern) (hparen : '(' ∉ pattern) (hf : FlagsStandApart pattern)
    {expansions : List Expansion} (he : expand? pattern = some expansions) {e : Expansion}
    (hmem : e ∈ expansions) {isSet : Text → Bool}
    (hset : ∀ entry ∈ e.flags.entries, isSet entry.1 = entry.2) :
    unmark isSet pattern = e.text := by
  obtain ⟨parts, h⟩ := exists_reads_of_valid hv ho
  have hdistinct := hf.distinct
  rw [h.expansions_eq hedge he] at hmem
  rw [h.segments_eq] at hdistinct
  obtain ⟨selection, hselection, rfl⟩ := List.mem_map.1 hmem
  have hof : selection.Of parts := mem_selections.1 hselection
  dsimp only at hset ⊢
  rw [entries_recorded hof hdistinct] at hset
  obtain ⟨back, hreplace, hback⟩ := exists_replaceAll_source (h.apart hv hparen hf) hof hset
  have hskip : skipSpace pattern = pattern := by
    refine skipSpace_eq_self fun hspace => ?_
    cases hv.flush ' ' hspace
  rw [h.source, hskip] at hreplace
  rw [unmark, hreplace, nameOf, spaced, Text.strip, Text.strip,
    Text.trimBoth_append_right fun c hc => isBlank_of_isSpacing (hback c hc)]

end Pattern
end Expectation

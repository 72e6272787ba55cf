import Mathlib.Data.List.Chain
import Expectation.Pattern.Segment

/-!
# The grammar of patterns

A pattern is read as literal text, flags `[name]` and choices `(a|b|…)` that stand one after
another. Nothing in them is empty or holds a delimiter, and literal text is read as far as it goes.
Cutting a pattern that reads as segments gives these segments, so there is at most one reading.
-/

namespace Expectation

/-- A delimited run that is written out is read back. -/
theorem Delimited.read?_eq_some {opening closing : Char} {inner : Text} (hne : inner ≠ [])
    (hfree : closing ∉ inner) (after : Text) :
    read? opening closing (opening :: inner ++ closing :: after) = some ⟨inner, after⟩ := by
  have hkeep : ∀ c ∈ inner, decide (c ≠ closing) = true := by
    intro c hc
    have : c ≠ closing := by
      rintro rfl
      exact hfree hc
    simpa using this
  obtain ⟨d, inner, rfl⟩ := List.exists_cons_of_ne_nil hne
  rw [List.cons_append, read?, if_pos rfl, List.takeWhile_append_of_pos hkeep,
    List.dropWhile_append_of_pos hkeep, List.takeWhile_cons_of_neg (by simp),
    List.dropWhile_cons_of_neg (by simp), List.append_nil]

namespace Pattern

/-- The characters that open and close flags and choices. -/
def delimiters : List Char := ['[', ']', '(', ')']

/-- A text that holds no delimiter. -/
def Free (t : Text) : Prop := ∀ c ∈ t, c ∉ delimiters

end Pattern

namespace Segment

open Pattern

/-- The segment is literal text. -/
def IsLiteral : Segment → Prop
  | .literal _ => True
  | _ => False

/-- The name of a flag. -/
def flag? : Segment → Option Text
  | .flag name => some name
  | _ => none

/-- The alternatives of a choice. -/
def alternatives? : Segment → Option (List Text)
  | .choice alternatives => some alternatives
  | _ => none

/-- The texts that a segment holds. -/
def texts : Segment → List Text
  | .literal text => [text]
  | .flag name => [name]
  | .choice alternatives => alternatives

/-- A segment as it is written in a pattern. -/
def source : Segment → Text
  | .literal text => text
  | .flag name => '[' :: name ++ [']']
  | .choice alternatives => '(' :: Text.joinWith ['|'] alternatives ++ [')']

/-- A segment in which nothing is empty and nothing holds a delimiter, nor an alternative a bar. -/
def Proper : Segment → Prop
  | .literal text => text ≠ [] ∧ Free text
  | .flag name => name ≠ [] ∧ Free name
  | .choice alternatives =>
    alternatives ≠ [] ∧ ∀ text ∈ alternatives, text ≠ [] ∧ Free text ∧ '|' ∉ text

end Segment

namespace Pattern

/-- A pattern reads as segments: it is what they are written as, they are proper, and no literal
text goes on in the next segment. -/
structure Reads (pattern : Text) (parts : List Segment) : Prop where
  source : parts.flatMap Segment.source = pattern
  proper : ∀ part ∈ parts, part.Proper
  maximal : parts.IsChain fun part next => part.IsLiteral → ¬ next.IsLiteral

private theorem readRun?_flag {name : Text} (h : Segment.Proper (.flag name)) (after : Text) :
    readRun? ('[' :: name ++ ']' :: after) = some (Segment.source (.flag name), after) := by
  have hfree : ']' ∉ name := fun hmem => h.2 _ hmem (by decide)
  rw [readRun?, Delimited.read?_eq_some h.1 hfree]
  rfl

private theorem joinWith_free {texts : List Text} {c : Char} (hc : c ≠ '|')
    (h : ∀ text ∈ texts, c ∉ text) : c ∉ Text.joinWith ['|'] texts := by
  induction texts with
  | nil => simp [Text.joinWith]
  | cons text texts ih =>
    have hrest := ih fun t ht => h t (by simp [ht])
    have htext := h text (by simp)
    cases texts with
    | nil => simpa [Text.joinWith] using htext
    | cons next texts => simp [Text.joinWith, htext, hc, hrest]

private theorem joinWith_ne_nil {texts : List Text} (hne : texts ≠ [])
    (h : ∀ text ∈ texts, text ≠ []) : Text.joinWith ['|'] texts ≠ [] := by
  match texts with
  | [] => exact absurd rfl hne
  | [text] => simpa [Text.joinWith] using h text (by simp)
  | text :: next :: texts => simp [Text.joinWith]

private theorem readRun?_choice {alternatives : List Text}
    (h : Segment.Proper (.choice alternatives)) (after : Text) :
    readRun? ('(' :: Text.joinWith ['|'] alternatives ++ ')' :: after) =
      some (Segment.source (.choice alternatives), after) := by
  have hne := joinWith_ne_nil h.1 fun text ht => (h.2 text ht).1
  have hfree : ')' ∉ Text.joinWith ['|'] alternatives :=
    joinWith_free (by decide) fun text ht hmem => (h.2 text ht).2.1 _ hmem (by decide)
  have hflag : Delimited.read? '[' ']' ('(' :: Text.joinWith ['|'] alternatives ++ ')' :: after) =
      none := by
    simp [Delimited.read?]
  rw [readRun?, hflag, Delimited.read?_eq_some hne hfree]
  rfl

private theorem readRun?_of_free {c : Char} (h : c ∉ delimiters) (rest : Text) :
    readRun? (c :: rest) = none := by
  simp only [delimiters, List.mem_cons, not_or] at h
  simp [readRun?, Delimited.read?, h]

/-- A run that is read stands after an empty one. -/
theorem runs_of_readRun? {t run after : Text} (h : readRun? t = some (run, after)) :
    runs t = [] :: run :: runs after := by
  cases t with
  | nil => simp [readRun?, Delimited.read?] at h
  | cons c rest =>
    rw [runs]
    split
    · next heq =>
      rw [h] at heq
      cases heq
      rfl
    · next heq =>
      rw [h] at heq
      cases heq

/-- A flag or a choice is a run of its own. -/
private theorem runs_source {part : Segment} (h : part.Proper) (hl : ¬ part.IsLiteral)
    (rest : Text) : runs (part.source ++ rest) = [] :: part.source :: runs rest := by
  cases part with
  | literal text => exact absurd trivial hl
  | flag name =>
    have := runs_of_readRun? (readRun?_flag h rest)
    simpa [Segment.source] using this
  | choice alternatives =>
    have := runs_of_readRun? (readRun?_choice h rest)
    simpa [Segment.source] using this

/-- A character from which no run is read belongs to the run that follows it. -/
theorem runs_cons_of_readRun?_eq_none {c : Char} {rest run : Text} {others : List Text}
    (h : readRun? (c :: rest) = none) (hruns : runs rest = run :: others) :
    runs (c :: rest) = (c :: run) :: others := by
  rw [runs]
  split
  · next heq =>
    rw [h] at heq
    cases heq
  · rw [hruns]

/-- Literal text belongs to the run that follows it. -/
private theorem runs_append_of_free {text : Text} (h : Free text) {rest run : Text}
    {others : List Text} (hruns : runs rest = run :: others) :
    runs (text ++ rest) = (text ++ run) :: others := by
  induction text with
  | nil => exact hruns
  | cons c text ih =>
    have hrest := ih fun d hd => h d (by simp [hd])
    exact runs_cons_of_readRun?_eq_none (readRun?_of_free (h c (by simp)) _) hrest

/-- The runs of a pattern that is written out are its segments, and it begins with an empty run
unless with literal text. -/
private theorem runs_flatMap_source {parts : List Segment} (hp : ∀ part ∈ parts, part.Proper)
    (hm : parts.IsChain fun part next => part.IsLiteral → ¬ next.IsLiteral) :
    (runs (parts.flatMap Segment.source)).filter (· ≠ []) = parts.map Segment.source ∧
      ∃ run others, runs (parts.flatMap Segment.source) = run :: others ∧
        ((∀ part ∈ parts.head?, ¬ part.IsLiteral) → run = []) := by
  induction parts with
  | nil => exact ⟨by simp [runs], [], [], by simp [runs], by simp⟩
  | cons part parts ih =>
    obtain ⟨hrest, run, others, hruns, hempty⟩ := ih (fun p h => hp p (by simp [h])) hm.tail
    have hpart : part.Proper := hp part (by simp)
    rw [List.flatMap_cons]
    by_cases hl : part.IsLiteral
    · -- The run before the next flag or choice is this literal text.
      obtain ⟨text, rfl⟩ : ∃ text, part = .literal text := by
        cases part with
        | literal text => exact ⟨text, rfl⟩
        | flag name => exact absurd hl id
        | choice alternatives => exact absurd hl id
      have hnext : ∀ next ∈ parts.head?, ¬ next.IsLiteral :=
        fun next hn => (List.isChain_cons.1 hm).1 next hn hl
      have hcat := runs_append_of_free hpart.2 hruns
      rw [hempty hnext] at hcat hruns
      rw [hruns] at hrest
      refine ⟨?_, _, _, hcat, fun hhead => absurd hl (hhead _ rfl)⟩
      rw [Segment.source, hcat, List.append_nil, List.map_cons, ← hrest]
      simp [hpart.1, Segment.source]
    · have hcut := runs_source hpart hl (parts.flatMap Segment.source)
      refine ⟨?_, _, _, hcut, fun _ => rfl⟩
      have hne : part.source ≠ [] := by
        cases part with
        | literal text => exact absurd trivial hl
        | flag name => simp [Segment.source]
        | choice alternatives => simp [Segment.source]
      rw [hcut, List.map_cons, ← hrest]
      simp [hne]

private theorem go_append_of_free {text : Text} (hf : Free text) (hb : '|' ∉ text)
    {c : Char} (hc : c ∈ ['(', ')', '|']) (part rest : Text) :
    alternatives.go part (text ++ c :: rest) =
      alternatives.keep (part ++ text) (alternatives.go [] rest) := by
  induction text generalizing part with
  | nil => rw [List.nil_append, alternatives.go, if_pos hc, List.append_nil]
  | cons d text ih =>
    have hd : d ∉ ['(', ')', '|'] := by
      have := hf d (by simp)
      rw [List.mem_cons, not_or] at hb
      simp only [delimiters, List.mem_cons, not_or] at this
      simp [this, Ne.symm hb.1]
    rw [List.mem_cons, not_or] at hb
    rw [List.cons_append, alternatives.go, if_neg hd,
      ih (fun e he => hf e (by simp [he])) hb.2]
    simp

/-- The alternatives of a choice that is written out. -/
private theorem go_joinWith {texts : List Text} (hne : texts ≠ [])
    (h : ∀ text ∈ texts, text ≠ [] ∧ Free text ∧ '|' ∉ text) :
    alternatives.go [] (Text.joinWith ['|'] texts ++ [')']) = texts := by
  induction texts with
  | nil => exact absurd rfl hne
  | cons text texts ih =>
    have ht := h text (by simp)
    cases texts with
    | nil =>
      rw [Text.joinWith, go_append_of_free ht.2.1 ht.2.2 (by simp)]
      simp [alternatives.go, alternatives.keep, ht.1]
    | cons next texts =>
      have hrest := ih (by simp) fun t hmem => h t (by simp [hmem])
      have hjoin : Text.joinWith ['|'] (text :: next :: texts) ++ [')'] =
          text ++ '|' :: (Text.joinWith ['|'] (next :: texts) ++ [')']) := by
        simp [Text.joinWith]
      rw [hjoin, go_append_of_free ht.2.1 ht.2.2 (by simp), hrest]
      simp [alternatives.keep, ht.1]

/-- A run between brackets is a flag. -/
theorem segmentOfRun_brackets (name : Text) : segmentOfRun ('[' :: name ++ [']']) = .flag name := by
  have hlast : ('[' :: (name ++ [']'])).getLast? = some ']' := by
    rw [← List.cons_append, List.getLast?_concat]
  simp [segmentOfRun, hlast]

/-- A run between parentheses is a choice. -/
theorem segmentOfRun_parens (inner : Text) :
    segmentOfRun ('(' :: inner ++ [')']) = .choice (alternatives ('(' :: inner ++ [')'])) := by
  have hlast : ('(' :: (inner ++ [')'])).getLast? = some ')' := by
    rw [← List.cons_append, List.getLast?_concat]
  simp [segmentOfRun, hlast]

/-- A segment that is written out is read back. -/
private theorem segmentOfRun_source {part : Segment} (h : part.Proper) :
    segmentOfRun part.source = part := by
  cases part with
  | literal text =>
    obtain ⟨c, text, rfl⟩ := List.exists_cons_of_ne_nil h.1
    have hc := h.2 c (by simp)
    simp only [delimiters, List.mem_cons, not_or] at hc
    simp [segmentOfRun, Segment.source, hc]
  | flag name => exact segmentOfRun_brackets name
  | choice texts =>
    rw [Segment.source, segmentOfRun_parens]
    simp [alternatives, alternatives.go, alternatives.keep, go_joinWith h.1 h.2]

/-- A pattern that reads as segments is cut into them. -/
theorem Reads.segments_eq {pattern : Text} {parts : List Segment} (h : Reads pattern parts) :
    segments pattern = parts := by
  rw [segments, ← h.source, (runs_flatMap_source h.proper h.maximal).1, List.map_map]
  conv_rhs => rw [← List.map_id parts]
  exact List.map_congr_left fun part hpart => segmentOfRun_source (h.proper part hpart)

/-- A pattern reads as segments in at most one way. -/
theorem Reads.unique {pattern : Text} {parts others : List Segment} (h : Reads pattern parts)
    (h' : Reads pattern others) : parts = others :=
  h.segments_eq.symm.trans h'.segments_eq

end Pattern
end Expectation

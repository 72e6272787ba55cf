import Expectation.Proofs.Pattern.Balance
import Expectation.Proofs.Pattern.Selection

/-!
# Markup in names

A valid pattern that closes nothing before it opens it is cut at all its delimiters, so that none is
left in the names that it declares. Any other valid pattern keeps some delimiter in a run, and with
it in a name: where the scan is ahead of what is opened, it lets a closing delimiter pass.
-/

namespace Expectation

namespace Text

/-- A text that begins and ends with two different characters is what lies between them, and they
around it. -/
theorem exists_eq_of_ends {t : Text} {opening closing : Char} (hne : opening ≠ closing)
    (hhead : t.head? = some opening) (hlast : t.getLast? = some closing) :
    ∃ inner, t = opening :: inner ++ [closing] := by
  obtain ⟨front, rfl⟩ := List.getLast?_eq_some_iff.1 hlast
  cases front with
  | nil => exact absurd (Option.some.inj hhead).symm hne
  | cons c inner =>
    cases hhead
    exact ⟨inner, rfl⟩

/-- A character that is not dropped is kept. -/
theorem mem_dropWhile {p : Char → Bool} {t : Text} {c : Char} (h : c ∈ t) (hc : p c = false) :
    c ∈ t.dropWhile p := by
  rw [← List.takeWhile_append_dropWhile (p := p) (l := t), List.mem_append] at h
  rcases h with h | h
  · have := List.mem_takeWhile_imp h
    rw [hc] at this
    cases this
  · exact h

/-- Trimming adds no character. -/
theorem mem_of_mem_trimBoth {p : Char → Bool} {t : Text} {c : Char} (h : c ∈ trimBoth p t) :
    c ∈ t := by
  have hback := (List.dropWhile_suffix p).mem (List.mem_reverse.1 h)
  exact (List.dropWhile_suffix p).mem (List.mem_reverse.1 hback)

/-- Trimming keeps a character that is not trimmed. -/
theorem mem_trimBoth {p : Char → Bool} {t : Text} {c : Char} (h : c ∈ t) (hc : p c = false) :
    c ∈ trimBoth p t :=
  List.mem_reverse.2 (mem_dropWhile (List.mem_reverse.2 (mem_dropWhile h hc)) hc)

end Text

namespace Pattern

/-- A character of a collapsed text is a space or a character of the text. -/
theorem mem_of_mem_collapse {t : Text} {c : Char} (h : c ∈ collapse t) : c = ' ' ∨ c ∈ t := by
  fun_induction collapse t with
  | case1 => simp at h
  | case2 d rest _ gap ih =>
    rcases List.mem_append.1 h with h | h
    · split at h
      · exact .inl (List.mem_singleton.1 h)
      · rcases List.mem_cons.1 h with rfl | h
        · simp
        · exact .inr (List.mem_cons_of_mem _ ((List.takeWhile_prefix isGap).mem h))
    · rcases ih h with h | h
      · exact .inl h
      · exact .inr (List.mem_cons_of_mem _ ((List.dropWhile_suffix isGap).mem h))
  | case3 d rest _ ih =>
    rcases List.mem_cons.1 h with rfl | h
    · simp
    · exact (ih h).imp_right (List.mem_cons_of_mem _)

/-- Collapsing takes only spaces, tabs and edges out of a text. -/
theorem mem_collapse {t : Text} {c : Char} (h : c ∈ t) (hc : isGap c = false) : c ∈ collapse t := by
  fun_induction collapse t with
  | case1 => exact h
  | case2 d rest hd gap ih =>
    have hrest : c ∈ rest := by
      rcases List.mem_cons.1 h with rfl | h
      · rw [hd] at hc
        cases hc
      · exact h
    exact List.mem_append_right _ (ih (Text.mem_dropWhile hrest hc))
  | case3 d rest _ ih =>
    rcases List.mem_cons.1 h with rfl | h
    · simp
    · exact List.mem_cons_of_mem _ (ih h)

/-- No edge is left in a collapsed text. -/
theorem edge_notMem_collapse (t : Text) : edge ∉ collapse t := by
  fun_induction collapse t with
  | case1 => exact List.not_mem_nil
  | case2 c rest hc gap ih =>
    rw [List.mem_append, not_or]
    refine ⟨?_, ih⟩
    split
    · decide
    · next hedge => exact hedge
  | case3 c rest hc ih =>
    rw [List.mem_cons, not_or]
    refine ⟨?_, ih⟩
    rintro rfl
    exact hc rfl

/-- A delimiter is in a name exactly if it is in the marked text of the name. -/
theorem mem_finish_iff {e : Expansion} {c : Char} (hc : c ∈ delimiters) :
    c ∈ (finish e).text ↔ c ∈ e.text := by
  have hplain : isGap c = false ∧ isBlank c = false ∧ c ≠ ' ' := by
    simp only [delimiters, List.mem_cons, List.not_mem_nil, or_false] at hc
    rcases hc with rfl | rfl | rfl | rfl <;> decide
  constructor
  · intro h
    exact (mem_of_mem_collapse (Text.mem_of_mem_trimBoth h)).resolve_left hplain.2.2
  · intro h
    exact Text.mem_trimBoth (mem_collapse h hplain.1) hplain.2.1

/-- A name that a pattern declares begins and ends with no blank character. -/
theorem strip_of_expand? {pattern : Text} {expansions : List Expansion}
    (he : expand? pattern = some expansions) {e : Expansion} (hmem : e ∈ expansions) :
    e.text.strip = e.text := by
  rw [← (expand?_eq_some_iff.1 he).1] at hmem
  obtain ⟨tail, -, rfl⟩ := List.mem_map.1 hmem
  exact Text.trimBoth_trimBoth isBlank _

/-- A character of a marked text is an edge or comes from a text of a segment. -/
theorem mem_texts_of_mem_marked {parts : List Segment} {e : Expansion} {c : Char}
    (he : e ∈ marked parts) (hc : c ∈ e.text) :
    c = edge ∨ ∃ part ∈ parts, ∃ text ∈ part.texts, c ∈ text := by
  induction parts generalizing e with
  | nil =>
    rw [marked, List.mem_singleton] at he
    subst he
    cases hc
  | cons part parts ih =>
    have hlater : ∀ e ∈ marked parts, c ∈ e.text →
        c = edge ∨ ∃ p ∈ part :: parts, ∃ text ∈ p.texts, c ∈ text := by
      intro e he hc
      rcases ih he hc with h | ⟨p, hp, h⟩
      · exact .inl h
      · exact .inr ⟨p, List.mem_cons_of_mem _ hp, h⟩
    cases part with
    | literal text =>
      obtain ⟨tail, htail, rfl⟩ := List.mem_map.1 he
      rcases List.mem_append.1 hc with hc | hc
      · exact .inr ⟨_, List.mem_cons_self, text, by simp [Segment.texts], hc⟩
      · exact hlater tail htail hc
    | flag name =>
      rcases List.mem_append.1 he with he | he
      · obtain ⟨tail, htail, rfl⟩ := List.mem_map.1 he
        simp only [List.mem_cons, List.mem_append, List.cons_append] at hc
        rcases hc with hc | hc | hc | hc
        · exact .inl hc
        · exact .inr ⟨_, List.mem_cons_self, name, by simp [Segment.texts], hc⟩
        · exact .inl hc
        · exact hlater tail htail hc
      · obtain ⟨tail, htail, rfl⟩ := List.mem_map.1 he
        rcases List.mem_cons.1 hc with hc | hc
        · exact .inl hc
        · exact hlater tail htail hc
    | choice alternatives =>
      obtain ⟨text, ht, he⟩ := List.mem_flatMap.1 he
      obtain ⟨tail, htail, rfl⟩ := List.mem_map.1 he
      rcases List.mem_append.1 hc with hc | hc
      · exact .inr ⟨_, List.mem_cons_self, text, ht, hc⟩
      · exact hlater tail htail hc

/-- A character of a text of a segment is in some marked text, if there is any. -/
theorem exists_mem_marked {parts : List Segment} (hne : marked parts ≠ []) {part : Segment}
    (hp : part ∈ parts) {text : Text} (ht : text ∈ part.texts) {c : Char} (hc : c ∈ text) :
    ∃ e ∈ marked parts, c ∈ e.text := by
  induction parts with
  | nil => cases hp
  | cons first parts ih =>
    have hrest : marked parts ≠ [] := by
      intro hnil
      cases first <;> simp [marked, hnil] at hne
    obtain ⟨tail, htail⟩ := List.exists_mem_of_ne_nil _ hrest
    rcases List.mem_cons.1 hp with rfl | hp
    · cases part with
      | literal literal =>
        rw [Segment.texts, List.mem_singleton] at ht
        subst ht
        exact ⟨_, List.mem_map_of_mem htail, by simp [hc]⟩
      | flag name =>
        rw [Segment.texts, List.mem_singleton] at ht
        subst ht
        exact ⟨_, List.mem_append_left _ (List.mem_map_of_mem htail), by simp [hc]⟩
      | choice alternatives =>
        exact ⟨_, List.mem_flatMap.2 ⟨text, ht, List.mem_map_of_mem htail⟩, by simp [hc]⟩
    · obtain ⟨e, he, hce⟩ := ih hrest hp
      cases first with
      | literal literal => exact ⟨_, List.mem_map_of_mem he, by simp [hce]⟩
      | flag name =>
        exact ⟨_, List.mem_append_right _ (List.mem_map_of_mem he), by simp [hce]⟩
      | choice alternatives =>
        obtain ⟨alternative, ha⟩ : ∃ alternative, alternative ∈ alternatives := by
          apply List.exists_mem_of_ne_nil
          rintro rfl
          simp [marked] at hne
        exact ⟨_, List.mem_flatMap.2 ⟨alternative, ha, List.mem_map_of_mem he⟩, by simp [hce]⟩

/-- The texts of a proper segment hold no delimiter. -/
theorem free_of_proper {part : Segment} (h : part.Proper) {text : Text} (ht : text ∈ part.texts) :
    Free text := by
  cases part with
  | literal literal => exact List.mem_singleton.1 ht ▸ h.2
  | flag name => exact List.mem_singleton.1 ht ▸ h.2
  | choice alternatives => exact (h.2 text ht).2.1

/-- The names of a pattern that reads as segments hold no delimiter. -/
theorem Reads.free_expansions {pattern : Text} {parts : List Segment} (h : Reads pattern parts)
    {expansions : List Expansion} (he : expand? pattern = some expansions) :
    ∀ e ∈ expansions, Free e.text := by
  rw [← (expand?_eq_some_iff.1 he).1, h.segments_eq]
  intro e hmem c hc hd
  obtain ⟨tail, htail, rfl⟩ := List.mem_map.1 hmem
  rcases mem_texts_of_mem_marked htail ((mem_finish_iff hd).1 hc) with rfl | hsegment
  · exact absurd hd (by decide)
  · obtain ⟨part, hp, text, ht, hct⟩ := hsegment
    exact free_of_proper (h.proper part hp) ht c hct hd

/-- Where the names of a pattern hold no delimiter, neither do the texts of its segments. -/
theorem free_texts_of_free_expansions {pattern : Text} {expansions : List Expansion}
    (he : expand? pattern = some expansions) (hne : expansions ≠ [])
    (h : ∀ e ∈ expansions, Free e.text) :
    ∀ part ∈ segments pattern, ∀ text ∈ part.texts, Free text := by
  rw [← (expand?_eq_some_iff.1 he).1] at hne h
  intro part hp text ht c hc hd
  obtain ⟨tail, htail, hct⟩ := exists_mem_marked (fun hnil => hne (by rw [hnil]; rfl)) hp ht hc
  exact h _ (List.mem_map_of_mem htail) c ((mem_finish_iff hd).2 hct) hd

/-- An alternative holds every character of a run that is no separator. -/
private theorem exists_mem_go {run part : Text} {c : Char} (hc : c ∉ ['(', ')', '|'])
    (h : c ∈ part ∨ c ∈ run) : ∃ text ∈ alternatives.go part run, c ∈ text := by
  have hkeep : ∀ {part : Text} (parts : List Text), c ∈ part →
      ∃ text ∈ alternatives.keep part parts, c ∈ text := by
    intro part parts hpart
    have hne : part ≠ [] := List.ne_nil_of_mem hpart
    exact ⟨part, by simp [alternatives.keep, hne], hpart⟩
  induction run generalizing part with
  | nil =>
    rw [alternatives.go]
    exact hkeep _ (h.resolve_right (by simp))
  | cons d run ih =>
    rw [alternatives.go]
    split
    · next hd =>
      rcases h with h | h
      · exact hkeep _ h
      · have hrun : c ∈ run := (List.mem_cons.1 h).resolve_left fun heq => hc (heq ▸ hd)
        obtain ⟨text, ht, hct⟩ : ∃ text ∈ alternatives.go [] run, c ∈ text := ih (.inr hrun)
        refine ⟨text, ?_, hct⟩
        rw [alternatives.keep]
        split
        · exact ht
        · exact List.mem_cons_of_mem _ ht
    · apply ih
      rcases h with h | h
      · exact .inl (List.mem_append_left _ h)
      · rcases List.mem_cons.1 h with rfl | h
        · exact .inl (by simp)
        · exact .inr h

/-- A choice holds every character of its run that is no separator. -/
theorem exists_mem_alternatives {run : Text} {c : Char} (hc : c ∉ ['(', ')', '|']) (h : c ∈ run) :
    ∃ text ∈ alternatives run, c ∈ text :=
  exists_mem_go hc (.inr h)

/-- A run that is read is written in front of what follows, and closes only at its end. -/
theorem readRun?_eq_some {t run after : Text} (h : readRun? t = some (run, after)) :
    t = run ++ after ∧ ∃ inner,
      run = '[' :: inner ++ [']'] ∧ ']' ∉ inner ∨ run = '(' :: inner ++ [')'] ∧ ')' ∉ inner := by
  unfold readRun? at h
  split at h
  · next found hfound =>
    cases h
    obtain ⟨heq, -, hnot⟩ := Delimited.eq_of_read? hfound
    exact ⟨by simp [heq], found.inner, .inl ⟨rfl, hnot⟩⟩
  · split at h
    · next found hfound =>
      cases h
      obtain ⟨heq, -, hnot⟩ := Delimited.eq_of_read? hfound
      exact ⟨by simp [heq], found.inner, .inr ⟨rfl, hnot⟩⟩
    · cases h

/-- Where no choice is read although one is opened and closed, it is closed at once. -/
theorem head?_of_readRun?_eq_none {t : Text} (h : readRun? ('(' :: t) = none) (hclose : ')' ∈ t) :
    t.head? = some ')' := by
  obtain ⟨inner, rest, rfl, hnot⟩ := List.eq_append_cons_of_mem hclose
  cases inner with
  | nil => rfl
  | cons c inner =>
    have hflag : Delimited.read? '[' ']' ('(' :: (c :: inner ++ ')' :: rest)) = none := by
      simp [Delimited.read?]
    have hchoice : Delimited.read? '(' ')' ('(' :: (c :: inner ++ ')' :: rest)) =
        some ⟨c :: inner, rest⟩ := Delimited.read?_eq_some (List.cons_ne_nil c inner) hnot rest
    rw [readRun?, hflag, hchoice] at h
    cases h

/-- A pattern is literal text up to the first run that is read, if any, and is not read at once
where the text is not empty. -/
theorem exists_runs_eq (t : Text) :
    ∃ text rest, t = text ++ rest ∧ (text = [] ∨ readRun? t = none) ∧
      (rest = [] ∧ runs t = [text] ∨
        ∃ run after, readRun? rest = some (run, after) ∧ runs t = text :: run :: runs after) := by
  induction t with
  | nil => exact ⟨[], [], rfl, .inl rfl, .inl ⟨rfl, by rw [runs]⟩⟩
  | cons c t ih =>
    cases hread : readRun? (c :: t) with
    | some found =>
      exact ⟨[], c :: t, rfl, .inl rfl, .inr ⟨found.1, found.2, hread, runs_of_readRun? hread⟩⟩
    | none =>
      obtain ⟨text, rest, heq, -, hruns⟩ := ih
      have hcons : ∀ {run others}, runs t = run :: others → runs (c :: t) = (c :: run) :: others :=
        fun h => runs_cons_of_readRun?_eq_none hread h
      refine ⟨c :: text, rest, by rw [heq]; rfl, .inr rfl, ?_⟩
      rcases hruns with ⟨hnil, hruns⟩ | ⟨run, after, hrun, hruns⟩
      · exact .inl ⟨hnil, hcons hruns⟩
      · exact .inr ⟨run, after, hrun, hcons hruns⟩

namespace Tally

/-- Nothing has been closed more often than opened. -/
def Held (tally : Tally) : Prop :=
  tally.closeBrackets ≤ tally.openBrackets ∧ tally.closeParens ≤ tally.openParens

/-- The tally after a text. -/
def after (tally : Tally) (text : Text) : Tally := text.foldl read tally

theorem ahead_nil {tally : Tally} : tally.Ahead [] ↔ tally.Held := by
  refine ⟨Ahead.now, fun h before hbefore => ?_⟩
  rw [List.prefix_nil.1 hbefore]
  exact h

theorem ahead_cons {tally : Tally} {c : Char} {rest : Text} :
    tally.Ahead (c :: rest) ↔ tally.Held ∧ (tally.read c).Ahead rest := by
  refine ⟨fun h => ⟨h.now, h.read⟩, fun ⟨hnow, hrest⟩ before hbefore => ?_⟩
  rcases List.prefix_cons_iff.1 hbefore with rfl | ⟨before, rfl, hprefix⟩
  · exact hnow
  · have := hrest before hprefix
    simp only [List.count_cons, beq_iff_eq, openBrackets_read, closeBrackets_read, openParens_read,
      closeParens_read] at this ⊢
    omega

theorem ahead_append {tally : Tally} {text rest : Text} :
    tally.Ahead (text ++ rest) ↔ tally.Ahead text ∧ (tally.after text).Ahead rest := by
  induction text generalizing tally with
  | nil => exact ⟨fun h => ⟨ahead_nil.2 h.now, h⟩, And.right⟩
  | cons c text ih =>
    rw [List.cons_append, ahead_cons, ih, ahead_cons, and_assoc]
    rfl

/-- What is read without an offence has none after a beginning. -/
theorem firstOffence?_after {pattern : Text} {tally : Tally} {text rest : Text}
    (h : firstOffence? pattern tally (text ++ rest) = none) :
    firstOffence? pattern (tally.after text) rest = none := by
  induction text generalizing tally with
  | nil => exact h
  | cons c text ih => exact ih (firstOffence?_cons_eq_none.1 h).2

theorem Ahead.held_after {tally : Tally} {text : Text} (h : tally.Ahead text) :
    (tally.after text).Held := by
  rw [← List.append_nil text, ahead_append] at h
  exact h.2.now

/-- Text without delimiters closes nothing. -/
theorem Held.ahead_of_free {tally : Tally} (h : tally.Held) {text : Text} (hf : Free text) :
    tally.Ahead text := by
  intro before hbefore
  have hcount : ∀ c ∈ delimiters, before.count c = 0 :=
    fun c hc => List.count_eq_zero.2 fun hmem => hf c (hbefore.mem hmem) hc
  simp only [delimiters, List.forall_mem_cons] at hcount
  simp only [hcount]
  exact h

/-- A run that closes only at its end closes what it opened. -/
theorem Held.ahead_delimited {tally : Tally} (h : tally.Held) {inner : Text}
    (hbracket : ']' ∉ inner) (hparen : ')' ∉ inner) :
    tally.Ahead ('[' :: inner ++ [']']) ∧ tally.Ahead ('(' :: inner ++ [')']) := by
  have hcount : ∀ {c closing : Char} {before : Text}, c ∉ inner → before <+: inner ++ [closing] →
      before.count c ≤ if closing = c then 1 else 0 := by
    intro c closing before hc hbefore
    have := hbefore.sublist.count_le c
    rw [List.count_append, List.count_eq_zero.2 hc, List.count_singleton] at this
    simpa using this
  simp only [Held] at h
  constructor <;>
  · intro before hbefore
    rcases List.prefix_cons_iff.1 hbefore with rfl | ⟨before, rfl, hprefix⟩
    · exact h
    · have hb := hcount hbracket hprefix
      have hp := hcount hparen hprefix
      simp only [Char.reduceEq, ↓reduceIte] at hb hp
      simp only [List.count_cons, Char.reduceBEq, Bool.false_eq_true, ↓reduceIte]
      omega

/-- A run between delimiters closes what it opened, if it stands for texts without delimiters. -/
theorem Held.ahead_of_run {tally : Tally} (h : tally.Held) {run inner : Text}
    (hrun : run = '[' :: inner ++ [']'] ∧ ']' ∉ inner ∨ run = '(' :: inner ++ [')'] ∧ ')' ∉ inner)
    (hfree : ∀ text ∈ (segmentOfRun run).texts, Free text) : tally.Ahead run := by
  rcases hrun with ⟨rfl, hnot⟩ | ⟨rfl, hnot⟩
  · rw [segmentOfRun_brackets] at hfree
    have hinner : Free inner := hfree inner (by simp [Segment.texts])
    exact (h.ahead_delimited hnot fun hmem => hinner _ hmem (by decide)).1
  · rw [segmentOfRun_parens] at hfree
    refine (h.ahead_delimited (fun hmem => ?_) hnot).2
    have hmem' : ']' ∈ '(' :: inner ++ [')'] := by simp [hmem]
    obtain ⟨text, ht, hc⟩ := exists_mem_alternatives (by decide) hmem'
    exact hfree text ht _ hc (by decide)

/-- A run that is not read between delimiters closes nothing before it is opened, if it stands for
texts without delimiters. -/
theorem Held.ahead_of_rest {pattern : Text} {tally : Tally} (h : tally.Held) {text rest : Text}
    (hstart : text = [] ∨ readRun? (text ++ rest) = none)
    (hnone : firstOffence? pattern tally (text ++ rest) = none)
    (hfree : ∀ t ∈ (segmentOfRun text).texts, Free t) : tally.Ahead text := by
  rw [segmentOfRun] at hfree
  split_ifs at hfree with hflag hchoice
  · obtain ⟨inner, rfl⟩ := Text.exists_eq_of_ends (by decide) hflag.1 hflag.2
    have hinner : Free inner := by simpa [Segment.texts] using hfree
    exact (h.ahead_delimited (fun hmem => hinner _ hmem (by decide))
      fun hmem => hinner _ hmem (by decide)).1
  · -- The parenthesis is closed at once, which is an offence.
    obtain ⟨inner, rfl⟩ := Text.exists_eq_of_ends (by decide) hchoice.1 hchoice.2
    have hread : readRun? ('(' :: (inner ++ [')'] ++ rest)) = none := hstart.resolve_left (by simp)
    have hhead := head?_of_readRun?_eq_none hread (by simp)
    obtain ⟨more, hmore⟩ := List.head?_eq_some_iff.1 hhead
    have hcons : '(' :: inner ++ [')'] ++ rest = '(' :: ')' :: more := by
      rw [← hmore]
      rfl
    rw [hcons] at hnone
    have hoffence := (firstOffence?_cons_eq_none.1 (firstOffence?_cons_eq_none.1 hnone).2).1
    have hlt : (tally.read '(').closeParens < (tally.read '(').openParens := by
      have := h.2
      simp only [closeParens_read, openParens_read, Char.reduceEq, ↓reduceIte]
      omega
    exact absurd rfl (offence?_closeParen hlt hoffence).2.2.1
  · exact h.ahead_of_free (by simpa [Segment.texts] using hfree)

/-- Where the runs of what is read without an offence stand for texts without delimiters, nothing is
closed before it is opened. -/
theorem Held.ahead_of_free_runs {pattern : Text} {tally : Tally} {t : Text} (h : tally.Held)
    (hnone : firstOffence? pattern tally t = none)
    (hfree : ∀ run ∈ runs t, ∀ text ∈ (segmentOfRun run).texts, Free text) : tally.Ahead t := by
  induction hlength : t.length using Nat.strong_induction_on generalizing t tally with
  | _ length ih =>
    obtain ⟨text, rest, rfl, hstart, hruns⟩ := exists_runs_eq t
    have hmem : text ∈ runs (text ++ rest) := by
      rcases hruns with ⟨-, hruns⟩ | ⟨_, _, -, hruns⟩ <;> simp [hruns]
    have htext : tally.Ahead text := h.ahead_of_rest hstart hnone (hfree text hmem)
    refine ahead_append.2 ⟨htext, ?_⟩
    have hlater := firstOffence?_after hnone
    rcases hruns with ⟨rfl, -⟩ | ⟨run, after, hread, hruns⟩
    · exact ahead_nil.2 htext.held_after
    · obtain ⟨rfl, inner, hrun⟩ := readRun?_eq_some hread
      have hclosed : (tally.after text).Ahead run :=
        htext.held_after.ahead_of_run hrun (hfree run (by simp [hruns]))
      refine ahead_append.2 ⟨hclosed, ?_⟩
      refine ih after.length ?_ hclosed.held_after (firstOffence?_after hlater) ?_ rfl
      · have := length_lt_of_readRun? hread
        rw [← hlength, List.length_append]
        omega
      · intro other hother
        exact hfree other (by simp [hruns, hother])

end Tally

/-- Of the valid patterns that declare names, exactly those that close nothing before they open it
declare only names without delimiters. -/
theorem forall_free_iff_opensFirst {pattern : Text} (hv : Valid pattern)
    {expansions : List Expansion} (he : expand? pattern = some expansions) (hne : expansions ≠ []) :
    (∀ e ∈ expansions, Free e.text) ↔ OpensFirst pattern := by
  constructor
  · intro h
    have htexts := free_texts_of_free_expansions he hne h
    have hruns : ∀ run ∈ runs pattern, ∀ text ∈ (segmentOfRun run).texts, Free text := by
      intro run hrun text ht
      by_cases hempty : run = []
      · subst hempty
        have : text = [] := by simpa [segmentOfRun, Segment.texts] using ht
        simp [this, Free]
      · refine htexts _ (List.mem_map_of_mem (List.mem_filter.2 ⟨hrun, ?_⟩)) text ht
        simpa using hempty
    have hheld : Tally.start.Held := ⟨Nat.le_refl _, Nat.le_refl _⟩
    exact opensFirst_iff_ahead.2 (hheld.ahead_of_free_runs (valid_iff.1 hv).2.2 hruns)
  · intro ho
    obtain ⟨parts, h⟩ := exists_reads_of_valid hv ho
    exact h.free_expansions he

end Pattern
end Expectation

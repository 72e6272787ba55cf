import Mathlib.Data.List.DropRight
import Expectation.Pattern.Expansion
import Expectation.Proofs.Text.Lines

/-!
# Spacing around flags

While a name is put together, the edges of flags cut it into pieces. Collapsing the stretches
around the edges and stripping the ends amounts to taking the spaces and tabs off every piece and
joining what is not empty with single spaces.
-/

namespace Expectation

namespace Text

/-- Trimming leaves out a run at the front all of whose characters are trimmed. -/
theorem trimBoth_append_left {p : Char → Bool} {front : Text} (h : ∀ c ∈ front, p c = true)
    (t : Text) : trimBoth p (front ++ t) = trimBoth p t := by
  rw [trimBoth, List.dropWhile_append_of_pos h, trimBoth]

/-- Trimming leaves out a run at the back all of whose characters are trimmed. -/
theorem trimBoth_append_right {p : Char → Bool} {back : Text} (h : ∀ c ∈ back, p c = true)
    (t : Text) : trimBoth p (t ++ back) = trimBoth p t := by
  have hback : back.dropWhile p = [] := List.dropWhile_eq_nil_iff.2 h
  have hrev : ∀ c ∈ back.reverse, p c = true := fun c hc => h c (List.mem_reverse.1 hc)
  rw [trimBoth, List.dropWhile_append, trimBoth]
  split
  · next hempty =>
    rw [hback, List.isEmpty_iff.1 hempty]
  · rw [List.reverse_append, List.dropWhile_append_of_pos hrev]

/-- A text is its trimmed text between two runs of trimmed characters. -/
theorem exists_eq_append_trimBoth (p : Char → Bool) (t : Text) :
    ∃ back, t.dropWhile p = trimBoth p t ++ back ∧ ∀ c ∈ back, p c = true := by
  refine ⟨((t.dropWhile p).reverse.takeWhile p).reverse, ?_, ?_⟩
  · rw [trimBoth, ← List.reverse_append, List.takeWhile_append_dropWhile, List.reverse_reverse]
  · intro c hc
    exact List.mem_takeWhile_imp (List.mem_reverse.1 hc)

/-- Nothing remains of a text exactly if all its characters are trimmed. -/
theorem trimBoth_eq_nil_iff {p : Char → Bool} {t : Text} :
    trimBoth p t = [] ↔ ∀ c ∈ t, p c = true := by
  rw [trimBoth, List.reverse_eq_nil_iff, List.dropWhile_eq_nil_iff]
  constructor
  · intro h
    have hall : ∀ c ∈ t.dropWhile p, p c = true := fun c hc => h c (List.mem_reverse.2 hc)
    rw [← List.dropWhile_eq_nil_iff, List.dropWhile_idempotent] at hall
    exact List.dropWhile_eq_nil_iff.1 hall
  · intro h c hc
    exact h c ((List.dropWhile_suffix p).mem (List.mem_reverse.1 hc))

/-- The last character of a trimmed text is not trimmed. -/
theorem not_of_mem_getLast?_trimBoth {p : Char → Bool} {t : Text} {c : Char}
    (h : c ∈ (trimBoth p t).getLast?) : p c = false := by
  rw [trimBoth, List.getLast?_reverse] at h
  have := List.head?_dropWhile_not p (t.dropWhile p).reverse
  rw [Option.mem_def.1 h] at this
  simpa using this

/-- The first character of a trimmed text is not trimmed. -/
theorem not_of_mem_head?_trimBoth {p : Char → Bool} {t : Text} {c : Char}
    (h : c ∈ (trimBoth p t).head?) : p c = false := by
  obtain ⟨back, hdrop, -⟩ := exists_eq_append_trimBoth p t
  obtain ⟨rest, hrest⟩ := List.head?_eq_some_iff.1 h
  have := List.head?_dropWhile_not p t
  rw [hdrop, hrest] at this
  simpa using this

/-- Nothing is dropped from a text whose first character is not dropped. -/
theorem dropWhile_eq_self {p : Char → Bool} {t : Text} (h : ∀ c ∈ t.head?, p c = false) :
    t.dropWhile p = t := by
  cases t with
  | nil => rfl
  | cons c t => exact List.dropWhile_cons_of_neg (by simp [h c rfl])

/-- A text is trimmed already if neither its first nor its last character is trimmed. -/
theorem trimBoth_eq_self {p : Char → Bool} {t : Text} (hhead : ∀ c ∈ t.head?, p c = false)
    (hlast : ∀ c ∈ t.getLast?, p c = false) : trimBoth p t = t := by
  rw [← List.head?_reverse] at hlast
  rw [trimBoth, dropWhile_eq_self hhead, dropWhile_eq_self hlast, List.reverse_reverse]

/-- To trim twice is to trim once. -/
theorem trimBoth_trimBoth (p : Char → Bool) (t : Text) :
    trimBoth p (trimBoth p t) = trimBoth p t :=
  trimBoth_eq_self (fun _ => not_of_mem_head?_trimBoth) fun _ => not_of_mem_getLast?_trimBoth

end Text

namespace Pattern

/-- Spaces and tabs, which collapse with the edge of a flag. -/
def isSpacing (c : Char) : Bool := c = ' ' || c = '\t'

/-- The words of a cut text: what is left of its pieces without the spaces and tabs at their
ends. -/
def words (pieces : List Text) : List Text :=
  (pieces.map (Text.trimBoth isSpacing)).filter (· ≠ [])

/-- Pieces as words with single spaces between them. -/
def spaced (pieces : List Text) : Text := (Text.joinWith [' '] (words pieces)).strip

private theorem isGap_iff {c : Char} : isGap c = true ↔ isSpacing c = true ∨ c = edge := by
  simp [isGap, isSpacing]

/-- Spaces and tabs are blank. -/
theorem isBlank_of_isSpacing {c : Char} (h : isSpacing c = true) : isBlank c = true := by
  simp only [isSpacing, Bool.or_eq_true, decide_eq_true_eq] at h
  rcases h with rfl | rfl <;> decide

private theorem collapse_cons_of_not_gap {c : Char} (h : isGap c = false) (t : Text) :
    collapse (c :: t) = c :: collapse t := by
  simp [collapse, h]

private theorem collapse_cons_of_gap {c : Char} (h : isGap c = true) (t : Text) :
    collapse (c :: t) =
      (if edge ∈ c :: t.takeWhile isGap then [' '] else c :: t.takeWhile isGap) ++
        collapse (t.dropWhile isGap) := by
  simp [collapse, h]

/-- Collapsing turns the gap at the front of a text into spaces and tabs. -/
private theorem exists_collapse_eq (t : Text) :
    ∃ front, collapse t = front ++ collapse (t.dropWhile isGap) ∧
      ∀ c ∈ front, isSpacing c = true := by
  cases t with
  | nil => exact ⟨[], rfl, by simp⟩
  | cons c t =>
    by_cases hc : isGap c = true
    · rw [collapse_cons_of_gap hc, List.dropWhile_cons_of_pos hc]
      refine ⟨_, rfl, ?_⟩
      intro d hd
      split at hd
      · rw [List.mem_singleton.1 hd]
        rfl
      · next hedge =>
        have hgap : isGap d = true := by
          rcases List.mem_cons.1 hd with rfl | hd
          · exact hc
          · exact List.mem_takeWhile_imp hd
        rcases isGap_iff.1 hgap with h | rfl
        · exact h
        · exact absurd hd hedge
    · rw [List.dropWhile_cons_of_neg hc]
      exact ⟨[], rfl, by simp⟩

/-- A character is kept if it is no edge and no gap from it on holds one. -/
private theorem collapse_cons_of_free {c : Char} {t : Text} (hc : c ≠ edge)
    (h : isGap c = true → edge ∉ t.takeWhile isGap) : collapse (c :: t) = c :: collapse t := by
  by_cases hgap : isGap c = true
  · have hfree := h hgap
    have hnot : edge ∉ c :: t.takeWhile isGap := by
      rw [List.mem_cons, not_or]
      exact ⟨Ne.symm hc, hfree⟩
    rw [collapse_cons_of_gap hgap, if_neg hnot]
    cases t with
    | nil => simp [collapse]
    | cons d t =>
      by_cases hd : isGap d = true
      · rw [List.takeWhile_cons_of_pos hd] at hfree ⊢
        rw [collapse_cons_of_gap hd, if_neg hfree, List.dropWhile_cons_of_pos hd]
        rfl
      · rw [List.takeWhile_cons_of_neg hd, List.dropWhile_cons_of_neg hd]
        rfl
  · exact collapse_cons_of_not_gap (by simpa using hgap) t

/-- A text without edges is kept. -/
theorem collapse_of_edge_notMem {t : Text} (h : edge ∉ t) : collapse t = t := by
  induction t with
  | nil => simp [collapse]
  | cons c t ih =>
    rw [List.mem_cons, not_or] at h
    rw [collapse_cons_of_free (Ne.symm h.1), ih h.2]
    intro _ hmem
    exact h.2 ((List.takeWhile_prefix isGap).mem hmem)

/-- A beginning without edges is kept if it ends with no gap. -/
private theorem collapse_append {p : Text} (h : edge ∉ p)
    (hlast : ∀ c ∈ p.getLast?, isGap c = false) (t : Text) :
    collapse (p ++ t) = p ++ collapse t := by
  induction p with
  | nil => rfl
  | cons c p ih =>
    rw [List.mem_cons, not_or] at h
    cases p with
    | nil => exact collapse_cons_of_not_gap (hlast c rfl) t
    | cons d p =>
      have hlast' : ∀ e ∈ (d :: p).getLast?, isGap e = false := by
        intro e he
        exact hlast e (by rwa [List.getLast?_cons_cons])
      rw [List.cons_append, collapse_cons_of_free (Ne.symm h.1), ih h.2 hlast']
      · rfl
      · intro _ hmem
        -- The gap ends before the last character of the beginning.
        have hbefore : ∃ e ∈ d :: p, isGap e ≠ true := by
          refine ⟨(d :: p).getLast (by simp), List.getLast_mem _, ?_⟩
          rw [hlast' _ (List.getLast?_eq_some_getLast _)]
          simp
        rw [List.takeWhile_append] at hmem
        split at hmem
        · next hall =>
          obtain ⟨e, he, hne⟩ := hbefore
          have hself := List.takeWhile_eq_self_iff.1
            ((List.takeWhile_prefix isGap).eq_of_length hall)
          exact hne (hself e he)
        · exact h.2 ((List.takeWhile_prefix isGap).mem hmem)

/-- A gap that holds an edge becomes one space. -/
private theorem collapse_gap_append {gap : Text} (h : ∀ c ∈ gap, isGap c = true) (t : Text) :
    collapse (gap ++ edge :: t) = ' ' :: collapse (t.dropWhile isGap) := by
  have hedge : isGap edge = true := rfl
  have hall : ∀ c ∈ gap ++ [edge], isGap c = true := by
    intro c hc
    rcases List.mem_append.1 hc with hc | hc
    · exact h c hc
    · rw [List.mem_singleton.1 hc]
      exact hedge
  cases gap with
  | nil =>
    rw [List.nil_append, collapse_cons_of_gap hedge, if_pos (by simp)]
    rfl
  | cons c gap =>
    have hrest : ∀ d ∈ gap ++ [edge], isGap d = true := fun d hd => hall d (by simp [hd])
    have hassoc : gap ++ edge :: t = (gap ++ [edge]) ++ t := by simp
    rw [List.cons_append, collapse_cons_of_gap (h c (by simp)), hassoc,
      List.takeWhile_append_of_pos hrest, List.dropWhile_append_of_pos hrest, if_pos (by simp)]
    rfl

/-- Up to the gap at its end, a beginning without edges is kept, and the gap around the edge after
it becomes one space. -/
private theorem collapse_edge {p : Text} (h : edge ∉ p) (hhead : ∀ c ∈ p.head?, isGap c = false)
    (t : Text) : collapse (p ++ edge :: t) =
      Text.trimBoth isSpacing p ++ ' ' :: collapse (t.dropWhile isGap) := by
  have hdrop : p.dropWhile isSpacing = p := by
    refine Text.dropWhile_eq_self fun c hc => ?_
    have hgap := hhead c hc
    rw [← Bool.not_eq_true, isGap_iff, not_or, Bool.not_eq_true] at hgap
    exact hgap.1
  obtain ⟨back, hp, hback⟩ := Text.exists_eq_append_trimBoth isSpacing p
  rw [hdrop] at hp
  have hkept : edge ∉ Text.trimBoth isSpacing p := by
    intro hmem
    rw [hp] at h
    exact h (List.mem_append_left _ hmem)
  have hlast : ∀ c ∈ (Text.trimBoth isSpacing p).getLast?, isGap c = false := by
    intro c hc
    have hs := Text.not_of_mem_getLast?_trimBoth hc
    have hne : c ≠ edge := by
      rintro rfl
      exact hkept (List.mem_of_getLast? hc)
    by_contra hgap
    rcases isGap_iff.1 (by simpa using hgap) with h' | h'
    · rw [hs] at h'
      cases h'
    · exact hne h'
  have hgap : ∀ c ∈ back, isGap c = true := fun c hc => isGap_iff.2 (.inl (hback c hc))
  rw [← collapse_gap_append hgap t, ← collapse_append hkept hlast, ← List.append_assoc, ← hp]

private theorem dropWhile_isGap {p : Text} (h : edge ∉ p) :
    p.dropWhile isGap = p.dropWhile isSpacing := by
  induction p with
  | nil => rfl
  | cons c p ih =>
    rw [List.mem_cons, not_or] at h
    have hc : isGap c = isSpacing c := by
      rw [Bool.eq_iff_iff, isGap_iff]
      simp [Ne.symm h.1]
    rw [List.dropWhile_cons, List.dropWhile_cons, hc, ih h.2]

/-- A piece of spaces and tabs is no word. -/
theorem words_cons_of_nil {p : Text} (h : p.dropWhile isSpacing = [])
    (pieces : List Text) : words (p :: pieces) = words pieces := by
  simp [words, Text.trimBoth, h]

/-- Any other piece is a word. -/
theorem words_cons_of_ne_nil {p : Text} (h : p.dropWhile isSpacing ≠ [])
    (pieces : List Text) : words (p :: pieces) = Text.trimBoth isSpacing p :: words pieces := by
  have hne : Text.trimBoth isSpacing p ≠ [] := by
    intro hnil
    exact h (List.dropWhile_eq_nil_iff.2 (Text.trimBoth_eq_nil_iff.1 hnil))
  simp [words, hne]

/-- A piece of spaces and tabs vanishes in the gap around the edge after it. -/
private theorem dropWhile_blank_edge {p : Text} (h : p.dropWhile isSpacing = []) (t : Text) :
    (p ++ edge :: t).dropWhile isGap = t.dropWhile isGap := by
  have hp : ∀ c ∈ p, isGap c = true := by
    intro c hc
    exact isGap_iff.2 (.inl (List.dropWhile_eq_nil_iff.1 h c hc))
  rw [List.dropWhile_append_of_pos hp, List.dropWhile_cons_of_pos rfl]

/-- A piece that is a word leaves the word and a space. -/
private theorem collapse_dropWhile_edge {p : Text} (hp : edge ∉ p)
    (h : p.dropWhile isSpacing ≠ []) (t : Text) :
    collapse ((p ++ edge :: t).dropWhile isGap) =
      Text.trimBoth isSpacing p ++ ' ' :: collapse (t.dropWhile isGap) := by
  have hfree : edge ∉ p.dropWhile isSpacing :=
    fun hmem => hp ((List.dropWhile_suffix isSpacing).mem hmem)
  have hhead : ∀ c ∈ (p.dropWhile isSpacing).head?, isGap c = false := by
    intro c hc
    have hs := List.head?_dropWhile_not isSpacing p
    rw [Option.mem_def.1 hc] at hs
    by_contra hgap
    rcases isGap_iff.1 (by simpa using hgap) with h' | rfl
    · simp [h'] at hs
    · exact hfree (List.mem_of_head? hc)
  have hdrop : (p ++ edge :: t).dropWhile isGap = p.dropWhile isSpacing ++ edge :: t := by
    rw [List.dropWhile_append, dropWhile_isGap hp, if_neg (by simpa using h)]
  rw [hdrop, collapse_edge hfree hhead, Text.trimBoth, List.dropWhile_idempotent, Text.trimBoth]

/-- A word and a space in front of words with single spaces between them; if there are none, the
space is part of what is stripped. -/
theorem exists_joinWith_cons (word : Text) (others : List Text) {back : Text}
    (hback : ∀ c ∈ back, isSpacing c = true) :
    ∃ back', word ++ ' ' :: (Text.joinWith [' '] others ++ back) =
        Text.joinWith [' '] (word :: others) ++ back' ∧ ∀ c ∈ back', isSpacing c = true := by
  cases others with
  | nil =>
    refine ⟨' ' :: back, by simp [Text.joinWith], ?_⟩
    intro c hc
    rcases List.mem_cons.1 hc with rfl | hc
    · rfl
    · exact hback c hc
  | cons other others =>
    refine ⟨back, ?_, hback⟩
    rw [Text.joinWith_cons_of_ne_nil (List.cons_ne_nil other others), List.append_assoc,
      List.cons_append]

/-- What collapsing leaves of joined pieces, from their first word on. -/
private theorem exists_collapse_joinWith {pieces : List Text} (h : ∀ p ∈ pieces, edge ∉ p) :
    ∃ back, collapse ((Text.joinWith [edge] pieces).dropWhile isGap) =
        Text.joinWith [' '] (words pieces) ++ back ∧ ∀ c ∈ back, isSpacing c = true := by
  induction pieces with
  | nil => exact ⟨[], by simp [Text.joinWith, words, collapse], by simp⟩
  | cons p pieces ih =>
    have hp : edge ∉ p := h p (by simp)
    obtain ⟨back, hrest, hback⟩ := ih fun q hq => h q (by simp [hq])
    cases pieces with
    | nil =>
      have hfree : edge ∉ p.dropWhile isSpacing :=
        fun hmem => hp ((List.dropWhile_suffix isSpacing).mem hmem)
      obtain ⟨back, hdrop, hback⟩ := Text.exists_eq_append_trimBoth isSpacing p
      refine ⟨back, ?_, hback⟩
      rw [Text.joinWith, dropWhile_isGap hp, collapse_of_edge_notMem hfree, hdrop]
      by_cases hnil : Text.trimBoth isSpacing p = []
      · simp [words, hnil, Text.joinWith]
      · simp [words, hnil, Text.joinWith]
    | cons q pieces =>
      rw [Text.joinWith_cons_of_ne_nil (List.cons_ne_nil q pieces)]
      by_cases hnil : p.dropWhile isSpacing = []
      · rw [words_cons_of_nil hnil, dropWhile_blank_edge hnil]
        exact ⟨back, hrest, hback⟩
      · rw [words_cons_of_ne_nil hnil, collapse_dropWhile_edge hp hnil, hrest]
        exact exists_joinWith_cons _ _ hback

/-- The name of a text that edges cut into pieces: the words of the pieces, with single spaces
between them. -/
theorem strip_collapse_joinWith {pieces : List Text} (h : ∀ p ∈ pieces, edge ∉ p) :
    (collapse (Text.joinWith [edge] pieces)).strip = spaced pieces := by
  obtain ⟨front, hcollapse, hfront⟩ := exists_collapse_eq (Text.joinWith [edge] pieces)
  obtain ⟨back, hjoin, hback⟩ := exists_collapse_joinWith h
  rw [hcollapse, hjoin, spaced, Text.strip, Text.strip,
    Text.trimBoth_append_left fun c hc => isBlank_of_isSpacing (hfront c hc),
    Text.trimBoth_append_right fun c hc => isBlank_of_isSpacing (hback c hc)]

end Pattern
end Expectation

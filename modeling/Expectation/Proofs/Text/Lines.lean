import Mathlib.Data.List.Basic
import Expectation.Text.Basic

/-!
# Lines of texts

A text is cut at its newlines as the texts on both sides of a newline are. Texts that are written
one a line are read back as their lines, which are the texts themselves exactly if none of them
holds a newline.
-/

namespace Expectation

namespace Text

/-- A text is cut at a separator as its two sides are. -/
theorem splitOn_append (separator : Char) (before after : Text) :
    splitOn separator (before ++ separator :: after) =
      splitOn separator before ++ splitOn separator after := by
  induction before with
  | nil => simp [splitOn]
  | cons c before ih =>
    by_cases hc : c = separator
    · simp [splitOn, hc, ih]
    · cases hsplit : splitOn separator before with
      | nil => exact absurd hsplit (splitOn_ne_nil separator before)
      | cons piece pieces => simp [splitOn, hc, ih, hsplit]

/-- A text without separators is one piece. -/
theorem splitOn_of_notMem {separator : Char} {t : Text} (h : separator ∉ t) :
    splitOn separator t = [t] := by
  induction t with
  | nil => rfl
  | cons c t ih =>
    obtain ⟨hc, ht⟩ := not_or.1 (List.mem_cons.not.1 h)
    simp [splitOn, Ne.symm hc, ih ht]

/-- No piece holds a separator. -/
theorem notMem_of_mem_splitOn {separator : Char} {t piece : Text}
    (h : piece ∈ splitOn separator t) : separator ∉ piece := by
  induction t generalizing piece with
  | nil => simp_all [splitOn]
  | cons c t ih =>
    by_cases hc : c = separator
    · rw [splitOn, if_pos hc] at h
      rcases List.mem_cons.1 h with rfl | h
      · exact List.not_mem_nil
      · exact ih h
    · rw [splitOn, if_neg hc] at h
      cases hsplit : splitOn separator t with
      | nil => exact absurd hsplit (splitOn_ne_nil separator t)
      | cons first others =>
        rw [hsplit] at h ih
        rcases List.mem_cons.1 h with rfl | h
        · exact List.mem_cons.not.2 (not_or.2 ⟨Ne.symm hc, ih List.mem_cons_self⟩)
        · exact ih (List.mem_cons_of_mem _ h)

/-- A piece in front of others is joined to them by the separator. -/
theorem joinWith_cons_of_ne_nil {pieces : List Text} (h : pieces ≠ []) (separator : Char)
    (piece : Text) : joinWith [separator] (piece :: pieces) =
      piece ++ separator :: joinWith [separator] pieces := by
  obtain ⟨next, others, rfl⟩ := List.exists_cons_of_ne_nil h
  rw [joinWith, List.append_assoc, List.singleton_append]
  simp

/-- Every piece is found in what the pieces are joined to. -/
theorem subset_joinWith {pieces : List Text} {piece : Text} (h : piece ∈ pieces)
    (separator : Text) : piece ⊆ joinWith separator pieces := by
  intro c hc
  induction pieces with
  | nil => exact absurd h List.not_mem_nil
  | cons first pieces ih =>
    cases pieces with
    | nil =>
      rw [List.mem_singleton] at h
      rwa [joinWith, ← h]
    | cons next pieces =>
      rcases List.mem_cons.1 h with rfl | h
      · simp [joinWith, hc]
      · simp [joinWith, ih h]

/-- What is written for each character is written piece by piece, where the separator stays. -/
theorem joinWith_map_flatMap {separator : Char} {written : Char → Text}
    (hs : written separator = [separator]) (pieces : List Text) :
    joinWith [separator] (pieces.map (·.flatMap written)) =
      (joinWith [separator] pieces).flatMap written := by
  induction pieces with
  | nil => rfl
  | cons piece pieces ih =>
    by_cases hne : pieces = []
    · rw [hne]
      rfl
    · rw [List.map_cons, joinWith_cons_of_ne_nil (by simpa using hne), ih,
        joinWith_cons_of_ne_nil hne, List.flatMap_append, List.flatMap_cons, hs]
      rfl

/-- The lines of texts that are written one a line are the lines of the texts. -/
theorem lines_joinWith {texts : List Text} (hne : texts ≠ []) :
    lines (joinWith ['\n'] texts) = texts.flatMap lines := by
  induction texts with
  | nil => exact absurd rfl hne
  | cons text texts ih =>
    cases texts with
    | nil => simp [joinWith]
    | cons next texts =>
      have hrest := ih (List.cons_ne_nil next texts)
      rw [joinWith, List.append_assoc, List.singleton_append, lines, splitOn_append,
        List.flatMap_cons, ← hrest]
      · rfl
      · simp

/-- Texts have their own lines exactly if none of them holds a newline. -/
theorem flatMap_lines_eq_self_iff {texts : List Text} :
    texts.flatMap lines = texts ↔ ∀ text ∈ texts, '\n' ∉ text := by
  constructor
  · intro h text htext
    rw [← h] at htext
    obtain ⟨_, -, hline⟩ := List.mem_flatMap.1 htext
    exact notMem_of_mem_splitOn hline
  · intro h
    calc texts.flatMap lines
        = texts.flatMap fun text => [text] :=
          List.flatMap_congr fun text htext => splitOn_of_notMem (h text htext)
      _ = texts := List.flatMap_pure_eq_map _ _ |>.trans (List.map_id texts)

/-- The line after a newline that no other follows is the last one. -/
theorem lastLine_append_newline (before : Text) {after : Text} (h : '\n' ∉ after) :
    lastLine (before ++ '\n' :: after) = after := by
  induction before with
  | nil =>
    rw [List.nil_append, lastLine, if_pos (by simp)]
    cases after with
    | nil => rfl
    | cons c rest => rw [lastLine, if_neg h]
  | cons c rest ih => rw [List.cons_append, lastLine, if_pos (by simp), ih]

/-- A last piece is joined to the others by the separator. -/
theorem joinWith_concat {pieces : List Text} (h : pieces ≠ []) (separator : Char) (piece : Text) :
    joinWith [separator] (pieces ++ [piece]) =
      joinWith [separator] pieces ++ separator :: piece := by
  induction pieces with
  | nil => exact absurd rfl h
  | cons first pieces ih =>
    by_cases hne : pieces = []
    · rw [hne]
      exact joinWith_cons_of_ne_nil (List.cons_ne_nil piece []) separator first
    · rw [List.cons_append, joinWith_cons_of_ne_nil (by simp), ih hne,
        joinWith_cons_of_ne_nil hne, List.append_assoc, List.cons_append]

/-- The last line is the last of the lines. -/
theorem lastLine_eq_of_lines {t last : Text} {above : List Text} (h : lines t = above ++ [last]) :
    lastLine t = last := by
  have hlast : '\n' ∉ last := by
    refine notMem_of_mem_splitOn (t := t) ?_
    rw [← lines, h]
    simp
  have hjoin : joinWith ['\n'] (above ++ [last]) = t := h ▸ joinWith_splitOn '\n' t
  rw [← hjoin]
  by_cases habove : above = []
  · rw [habove, List.nil_append, joinWith]
    cases last with
    | nil => rfl
    | cons c rest => rw [lastLine, if_neg hlast]
  · rw [joinWith_concat habove, lastLine_append_newline _ hlast]

end Text

end Expectation

import Mathlib.Order.Bounds.Defs
import Expectation.Text.EditDistance

/-!
# The edit distance is the least number of edits

An edit inserts, deletes or substitutes one character anywhere in a text. The number of edits that
two texts need follows from the numbers that their ends need; the table of the distance has these
numbers for the reversed beginnings of the texts. One edit changes the number needed to come to any
text by at most one, so no sequence of edits is shorter, and there is one of just that length.
-/

namespace Expectation.Text

/-- One character of a text is inserted, deleted or substituted. -/
inductive Edited : Text → Text → Prop
  | insert (before after : Text) (c : Char) : Edited (before ++ after) (before ++ c :: after)
  | delete (before after : Text) (c : Char) : Edited (before ++ c :: after) (before ++ after)
  | substitute (before after : Text) (c d : Char) :
      Edited (before ++ c :: after) (before ++ d :: after)

/-- A sequence of so many edits turns one text into another. -/
inductive Turns : (edits : Nat) → Text → Text → Prop
  | refl (a : Text) : Turns 0 a a
  | edit {edits : Nat} {a b c : Text} (h : Edited a b) (hrest : Turns edits b c) :
      Turns (edits + 1) a c

/-- The edits that two texts need: their first characters are deleted, inserted, or substituted
unless they agree. -/
def leastEdits : (a b : Text) → Nat
  | [], b => b.length
  | a, [] => a.length
  | c :: a, d :: b =>
    min (min (leastEdits a (d :: b) + 1) (leastEdits (c :: a) b + 1))
      (leastEdits a b + if c = d then 0 else 1)
termination_by a b => a.length + b.length

@[simp] theorem leastEdits_nil_left (b : Text) : leastEdits [] b = b.length := by
  rw [leastEdits]

@[simp] theorem leastEdits_nil_right (a : Text) : leastEdits a [] = a.length := by
  cases a with
  | nil => rw [leastEdits]
  | cons c a =>
    rw [leastEdits]
    exact List.cons_ne_nil c a

theorem leastEdits_cons_cons (c d : Char) (a b : Text) :
    leastEdits (c :: a) (d :: b) =
      min (min (leastEdits a (d :: b) + 1) (leastEdits (c :: a) b + 1))
        (leastEdits a b + if c = d then 0 else 1) := by
  rw [leastEdits]

@[simp] theorem leastEdits_self (a : Text) : leastEdits a a = 0 := by
  induction a with
  | nil => simp
  | cons c a ih => simp [leastEdits_cons_cons, ih]

theorem leastEdits_comm (a b : Text) : leastEdits a b = leastEdits b a := by
  induction a generalizing b with
  | nil => simp
  | cons c a iha =>
    induction b with
    | nil => simp
    | cons d b ihb =>
      rw [leastEdits_cons_cons, leastEdits_cons_cons, iha, iha, ihb, Nat.min_comm (_ + 1)]
      simp only [eq_comm]

/-- The edits that `u` needs to become each of the texts that `v` becomes as the characters of `b`
are put in front of it, one after the other. -/
def furtherEdits (u : Text) : (v b : Text) → List Nat
  | _, [] => []
  | v, d :: b => leastEdits u (d :: v) :: furtherEdits u (d :: v) b

/-- The table begins with the row of the empty text. -/
theorem range'_eq_furtherEdits (v b : Text) :
    List.range' v.length (b.length + 1) = v.length :: furtherEdits [] v b := by
  induction b generalizing v with
  | nil => rfl
  | cons d b ih =>
    have hrest := ih (d :: v)
    rw [List.length_cons, List.range'_succ, furtherEdits, leastEdits_nil_left, ← hrest]
    rfl

/-- The row of a text is followed by that of the text with one more character. -/
theorem entries_furtherEdits (c : Char) (u v b : Text) :
    entries c (leastEdits (c :: u) v) (leastEdits u v :: furtherEdits u v b) b =
      furtherEdits (c :: u) v b := by
  induction b generalizing v with
  | nil => rfl
  | cons d b ih =>
    rw [furtherEdits, furtherEdits, ← ih (d :: v)]
    simp only [entries, leastEdits_cons_cons]

/-- From the row of a text the rows of the characters behind it lead to the row of the whole. -/
theorem foldl_nextRow (a b u : Text) :
    (a.zipIdx (u.length + 1)).foldl (nextRow b) (u.length :: furtherEdits u [] b) =
      (a.reverse ++ u).length :: furtherEdits (a.reverse ++ u) [] b := by
  induction a generalizing u with
  | nil => rfl
  | cons c a ih =>
    have hrow : nextRow b (u.length :: furtherEdits u [] b) (c, u.length + 1) =
        (c :: u).length :: furtherEdits (c :: u) [] b := by
      rw [← entries_furtherEdits, leastEdits_nil_right, leastEdits_nil_right]
      rfl
    rw [List.zipIdx_cons, List.foldl_cons, hrow, List.reverse_cons, List.append_assoc]
    exact ih (c :: u)

theorem getLastD_furtherEdits (u v b : Text) :
    (furtherEdits u v b).getLastD (leastEdits u v) = leastEdits u (b.reverse ++ v) := by
  induction b generalizing v with
  | nil => rfl
  | cons d b ih =>
    rw [furtherEdits, List.getLastD_cons, ih, List.reverse_cons, List.append_assoc]
    rfl

theorem getLastD_lastRow (a b : Text) :
    (lastRow a b).getLastD 0 = leastEdits a.reverse b.reverse := by
  have hfirst : List.range (b.length + 1) = 0 :: furtherEdits [] [] b := by
    rw [List.range_eq_range']
    exact range'_eq_furtherEdits [] b
  have hlast : lastRow a b = a.reverse.length :: furtherEdits a.reverse [] b := by
    have hrows := foldl_nextRow a b []
    rw [List.append_nil] at hrows
    rw [lastRow, hfirst]
    exact hrows
  rw [hlast, List.getLastD_cons, ← leastEdits_nil_right, getLastD_furtherEdits, List.append_nil]

/-- The table has the edits that the reversed texts need as its last entry, whichever of the texts
its rows are for. -/
theorem editDistance_eq_leastEdits (a b : Text) :
    editDistance a b = leastEdits a.reverse b.reverse := by
  rw [editDistance, getLastD_lastRow, getLastD_lastRow, leastEdits_comm b.reverse, ite_self]

/-- One more character in front of the second text is at most one more edit. -/
theorem leastEdits_cons_right_le (a : Text) (d : Char) (b : Text) :
    leastEdits a (d :: b) ≤ leastEdits a b + 1 := by
  cases a with
  | nil => simp
  | cons c a =>
    rw [leastEdits_cons_cons]
    omega

/-- One more character in front of the first text is at most one more edit. -/
theorem leastEdits_cons_left_le (c : Char) (a b : Text) :
    leastEdits (c :: a) b ≤ leastEdits a b + 1 := by
  cases b with
  | nil => simp
  | cons d b =>
    rw [leastEdits_cons_cons]
    omega

/-- One character less in front of the first text is at most one more edit. -/
theorem leastEdits_le_cons_left (c : Char) (a b : Text) :
    leastEdits a b ≤ leastEdits (c :: a) b + 1 := by
  induction b with
  | nil =>
    simp only [leastEdits_nil_right, List.length_cons]
    omega
  | cons d b ih =>
    have hright := leastEdits_cons_right_le a d b
    rw [leastEdits_cons_cons]
    omega

/-- Another character in front of the first text is at most one more edit. -/
theorem leastEdits_cons_le_cons (c d : Char) (a b : Text) :
    leastEdits (c :: a) b ≤ leastEdits (d :: a) b + 1 := by
  induction b with
  | nil => simp
  | cons x b ih =>
    rw [leastEdits_cons_cons, leastEdits_cons_cons]
    split <;> split <;> omega

/-- Two texts that are at most one edit apart, seen from any text, still are with the same text in
front. -/
theorem leastEdits_append_le {u v : Text}
    (h : ∀ b, leastEdits u b ≤ leastEdits v b + 1) (before b : Text) :
    leastEdits (before ++ u) b ≤ leastEdits (before ++ v) b + 1 := by
  induction before generalizing b with
  | nil => exact h b
  | cons c before ih =>
    induction b with
    | nil =>
      have hends := ih []
      simp only [leastEdits_nil_right, List.cons_append, List.length_cons] at hends ⊢
      omega
    | cons d b ihb =>
      have hdeleted := ih (d :: b)
      have hsubstituted := ih b
      simp only [List.cons_append, leastEdits_cons_cons] at ihb ⊢
      omega

/-- An edit takes at most one off the distance to any text. -/
theorem Edited.leastEdits_le {a a' : Text} (h : Edited a a') (b : Text) :
    leastEdits a b ≤ leastEdits a' b + 1 := by
  cases h with
  | insert before after c =>
    exact leastEdits_append_le (leastEdits_le_cons_left c after) before b
  | delete before after c =>
    exact leastEdits_append_le (leastEdits_cons_left_le c after) before b
  | substitute before after c d =>
    exact leastEdits_append_le (leastEdits_cons_le_cons c d after) before b

/-- No sequence of edits is shorter than the distance. -/
theorem Turns.leastEdits_le {edits : Nat} {a b : Text} (h : Turns edits a b) :
    leastEdits a b ≤ edits := by
  induction h with
  | refl a => simp
  | @edit edits a a' b hfirst _ ih =>
    have hstep := hfirst.leastEdits_le b
    omega

/-- Edits may be made behind a character. -/
theorem Turns.cons {edits : Nat} {a b : Text} (h : Turns edits a b) (x : Char) :
    Turns edits (x :: a) (x :: b) := by
  induction h with
  | refl a => exact .refl (x :: a)
  | edit hfirst _ ih =>
    refine .edit ?_ ih
    cases hfirst with
    | insert before after c => exact .insert (x :: before) after c
    | delete before after c => exact .delete (x :: before) after c
    | substitute before after c d => exact .substitute (x :: before) after c d

/-- Some sequence of edits has the length of the distance. -/
theorem turns_leastEdits (a b : Text) : Turns (leastEdits a b) a b := by
  induction a generalizing b with
  | nil =>
    induction b with
    | nil =>
      rw [leastEdits_self]
      exact .refl []
    | cons d b ih =>
      rw [leastEdits_nil_left] at ih ⊢
      exact .edit (.insert [] [] d) (ih.cons d)
  | cons c a iha =>
    induction b with
    | nil =>
      have hrest := iha []
      rw [leastEdits_nil_right] at hrest ⊢
      exact .edit (.delete [] a c) hrest
    | cons d b ihb =>
      -- The least of the three ways to treat the first characters is taken.
      have hways : leastEdits (c :: a) (d :: b) = leastEdits a (d :: b) + 1 ∨
          leastEdits (c :: a) (d :: b) = leastEdits (c :: a) b + 1 ∨
          leastEdits (c :: a) (d :: b) = leastEdits a b + if c = d then 0 else 1 := by
        rw [leastEdits_cons_cons]
        omega
      rcases hways with hdelete | hinsert | hsubstitute
      · rw [hdelete]
        exact .edit (.delete [] a c) (iha (d :: b))
      · rw [hinsert]
        exact .edit (.insert [] (c :: a) d) (ihb.cons d)
      · rw [hsubstitute]
        split
        · next hsame =>
          subst hsame
          exact (iha b).cons c
        · exact .edit (.substitute [] a c d) ((iha b).cons d)

/-- An edit of a text is one of the reversed text. -/
theorem Edited.reverse {a b : Text} (h : Edited a b) : Edited a.reverse b.reverse := by
  cases h with
  | insert before after c => simpa using Edited.insert after.reverse before.reverse c
  | delete before after c => simpa using Edited.delete after.reverse before.reverse c
  | substitute before after c d =>
    simpa using Edited.substitute after.reverse before.reverse c d

theorem Turns.reverse {edits : Nat} {a b : Text} (h : Turns edits a b) :
    Turns edits a.reverse b.reverse := by
  induction h with
  | refl a => exact .refl a.reverse
  | edit hfirst _ ih => exact .edit hfirst.reverse ih

/-- The edit distance of two texts is the least length of a sequence of insertions, deletions and
substitutions of single characters that turns the first into the second. -/
theorem isLeast_editDistance (a b : Text) :
    IsLeast {edits | Turns edits a b} (editDistance a b) := by
  rw [editDistance_eq_leastEdits]
  constructor
  · have hturns := (turns_leastEdits a.reverse b.reverse).reverse
    rwa [List.reverse_reverse, List.reverse_reverse] at hturns
  · intro edits h
    exact h.reverse.leastEdits_le

-- One deletion in front and one insertion behind, where four substitutions would do it in place.
example : editDistance ['f', 'l', 'a', 'w'] ['l', 'a', 'w', 'n'] = 2 := by decide

end Expectation.Text

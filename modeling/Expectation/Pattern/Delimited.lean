import Expectation.Text.Basic

/-!
# Delimited runs

A delimited run is an opening character, at least one character other than the closing one, and
the closing character. Reading one from the front of a text leaves a shorter text.
-/

namespace Expectation

/-- A delimited run read from the front of a text. -/
structure Delimited where
  inner : Text
  after : Text
  deriving Repr, DecidableEq

/-- Read a delimited run from the front of a text. -/
def Delimited.read? (opening closing : Char) : Text → Option Delimited
  | [] => none
  | c :: rest =>
    if c = opening then
      match rest.takeWhile (· ≠ closing), rest.dropWhile (· ≠ closing) with
      | d :: inner, _ :: after => some ⟨d :: inner, after⟩
      | _, _ => none
    else none

theorem Delimited.eq_of_read? {opening closing : Char} {t : Text} {run : Delimited}
    (h : read? opening closing t = some run) :
    t = opening :: run.inner ++ closing :: run.after ∧ run.inner ≠ [] ∧ closing ∉ run.inner := by
  cases t with
  | nil => simp [read?] at h
  | cons c rest =>
    simp only [read?] at h
    split at h
    · rename_i hc
      split at h
      · rename_i d inner e after htake hdrop
        have hsplit := List.takeWhile_append_dropWhile (p := (· ≠ closing)) (l := rest)
        have he : e = closing := by
          have := List.head?_dropWhile_not (p := (· ≠ closing)) (l := rest)
          rw [hdrop] at this
          simpa using this
        have hnot : closing ∉ d :: inner := by
          intro hmem
          have := List.all_takeWhile (p := (· ≠ closing)) (l := rest)
          rw [htake, List.all_eq_true] at this
          simpa using this closing hmem
        rw [htake, hdrop] at hsplit
        cases h
        exact ⟨by simp [hc, ← hsplit, he], by simp, hnot⟩
      · exact absurd h (by simp)
    · exact absurd h (by simp)

theorem Delimited.length_after_lt {opening closing : Char} {t : Text} {run : Delimited}
    (h : read? opening closing t = some run) : run.after.length < t.length := by
  have := (eq_of_read? h).1
  rw [this]
  simp
  omega

end Expectation

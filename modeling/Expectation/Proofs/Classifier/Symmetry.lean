import Expectation.Proofs.Classifier.Comparison
import Expectation.Proofs.Value.Dictionary
import Expectation.Proofs.Value.Equality

/-!
# Comparisons of values the other way round

Sequences are compared item by item as the other way round, and dictionaries keyed by texts entry by
entry, if their parts are. The universal comparison tells values equal or not, whichever comes
first, unless they are containers of one kind. None of these raises a fault by itself.
-/

namespace Expectation

namespace Comparison

/-- The answer of a comparison whose questions are answered by a test. -/
def answer (test : Ref → Ref → Bool) (c : Comparison) : Except Fault Bool :=
  (c.run fun a b => (pure (test a b) : Traced Bool)).outcome

variable {test : Ref → Ref → Bool} {s : Store} {a b : Ref}

/-- Pairs are equal if each of them is. -/
theorem answer_pairs (pairs : List (Ref × Ref)) :
    (Comparison.pairs pairs).answer test = .ok (pairs.all fun pair => test pair.1 pair.2) := by
  induction pairs with
  | nil => rfl
  | cons pair pairs ih =>
    rw [List.all_cons]
    show (if test pair.1 pair.2 = true then Comparison.pairs pairs else done false).answer test = _
    cases test pair.1 pair.2 with
    | true => exact ih
    | false => rfl

/-- Sequences are compared item by item as the other way round, if items are. -/
theorem answer_items_swap (htest : ∀ x y, test x y = test y x) {equal : Bool}
    (h : (Equal.items s a b).answer test = .ok equal) :
    (Equal.items s b a).answer test = .ok equal := by
  unfold Equal.items withElements at h ⊢
  split at h
  · next xs ys hxs hys =>
    rw [hys, hxs]
    dsimp only at h ⊢
    by_cases hlength : xs.length = ys.length
    · rw [if_pos hlength, answer_pairs] at h
      rw [if_pos hlength.symm, answer_pairs, ← h, ← List.zip_swap xs ys, List.all_map]
      congr
      funext pair
      exact htest pair.2 pair.1
    · rw [if_neg hlength] at h
      rw [if_neg (Ne.symm hlength)]
      exact h
  · cases h
  · cases h

section Entries

variable {xs ys : List (Ref × Ref)}

/-- The pairs of values under the same texts pass a test if each entry has a partner that does. -/
theorem exists_entryPairs_eq (hxs : ∀ entry ∈ xs, ∃ t, s.text? entry.1 = some t)
    (hys : s.TextKeyed ys) (test : Ref → Ref → Bool) :
    ∃ found, entryPairs s ys xs = .ok found ∧
      (found.any fun pairs => pairs.all fun pair => test pair.1 pair.2) =
        xs.all fun entry => (s.partner? ys entry.1).any (test entry.2) := by
  induction xs with
  | nil => exact ⟨some [], rfl, rfl⟩
  | cons entry xs ih =>
    obtain ⟨t, ht⟩ := hxs entry List.mem_cons_self
    obtain ⟨rest, hrest, hall⟩ := ih fun other hother => hxs other (List.mem_cons_of_mem _ hother)
    rw [entryPairs, hys.lookup?_eq ht, List.all_cons]
    cases hpartner : s.partner? ys entry.1 with
    | none => exact ⟨none, rfl, rfl⟩
    | some other =>
      refine ⟨rest.map fun pairs => (entry.2, other) :: pairs, by simp only [hrest], ?_⟩
      rw [← hall, Option.any_some]
      cases rest with
      | none => simp
      | some pairs => rfl

/-- Dictionaries keyed by texts are compared with a partner for each entry of the first. -/
theorem answer_entries (ha : s.node a = .dict xs) (hb : s.node b = .dict ys)
    (hxs : s.TextKeyed xs) (hys : s.TextKeyed ys) :
    (Equal.entries s a b).answer test = .ok (decide (xs.length = ys.length) &&
      xs.all fun entry => (s.partner? ys entry.1).any (test entry.2)) := by
  obtain ⟨found, hfound, hall⟩ := exists_entryPairs_eq hxs.texts hys test
  unfold Equal.entries
  rw [ha, hb, ← hall]
  dsimp only
  by_cases hlength : xs.length = ys.length
  · rw [if_pos hlength, hfound, decide_eq_true hlength, Bool.true_and]
    cases found with
    | none => rfl
    | some pairs => exact answer_pairs pairs
  · rw [if_neg hlength, decide_eq_false hlength, Bool.false_and]
    rfl

/-- Dictionaries keyed by texts are compared by their entries as the other way round, if values
are. -/
theorem answer_entries_swap (ha : s.node a = .dict xs) (hb : s.node b = .dict ys)
    (hxs : s.TextKeyed xs) (hys : s.TextKeyed ys) (htest : ∀ x y, test x y = test y x) :
    (Equal.entries s b a).answer test = (Equal.entries s a b).answer test := by
  rw [answer_entries ha hb hxs hys, answer_entries hb ha hys hxs]
  by_cases hlength : xs.length = ys.length
  · rw [hlength, Store.all_partner?_swap hxs hys hlength htest]
  · rw [decide_eq_false hlength, decide_eq_false (Ne.symm hlength), Bool.false_and, Bool.false_and]

/-- Pairs are compared without a fault of the comparison itself. -/
theorem not_raises_pairs (pairs : List (Ref × Ref)) (cause : Fault) :
    ¬ (Comparison.pairs pairs).Raises cause := by
  induction pairs with
  | nil => exact id
  | cons pair pairs ih =>
    rintro ⟨equal, h⟩
    cases equal with
    | true => exact ih h
    | false => exact h

/-- Dictionaries keyed by texts are compared by their entries without a fault of the comparison
itself. -/
theorem not_raises_entries (ha : s.node a = .dict xs) (hb : s.node b = .dict ys)
    (hxs : s.TextKeyed xs) (hys : s.TextKeyed ys) (cause : Fault) :
    ¬ (Equal.entries s a b).Raises cause := by
  obtain ⟨found, hfound, -⟩ := exists_entryPairs_eq hxs.texts hys fun _ _ => true
  unfold Equal.entries
  rw [ha, hb]
  dsimp only
  split
  · rw [hfound]
    cases found with
    | none => exact id
    | some pairs => exact not_raises_pairs pairs cause
  · exact id

end Entries

/-- The universal comparison tells values that are not containers of one kind equal or not. -/
theorem universal_of_not_areAlike (h : ¬ s.AreAlike a b) :
    Behaviour.universal.equal s a b = done (decide (a = b) || s.flatEqual a b) := by
  unfold Behaviour.universal
  dsimp only
  rw [Store.matching?_of_not_areAlike h]

/-- Sequences are compared item by item without a fault of the comparison itself. -/
theorem not_raises_items {xs ys : List Ref} (hxs : s.elements a = .ok xs)
    (hys : s.elements b = .ok ys) (cause : Fault) : ¬ (Equal.items s a b).Raises cause := by
  unfold Equal.items withElements
  rw [hxs, hys]
  dsimp only
  split
  · exact not_raises_pairs _ cause
  · exact id

end Comparison

end Expectation

import Mathlib.Data.List.Perm.Subperm
import Expectation.Proofs.Value.FlagDictionary

/-!
# Dictionaries keyed by texts

If the keys of dictionaries are texts, and different ones in each, a key has at most one partner in
another dictionary. Of two dictionaries of one size, each entry of the one has a partner in the
other that passes a test exactly if the same holds the other way round.
-/

namespace Expectation

namespace Store

/-- The keys of entries are texts, no two of them the same. -/
structure TextKeyed (s : Store) (entries : List (Ref × Ref)) : Prop where
  texts : ∀ entry ∈ entries, ∃ t, s.text? entry.1 = some t
  distinct : (entries.map fun entry => s.text? entry.1).Nodup

/-- The value under the same text as a key. -/
def partner? (s : Store) (entries : List (Ref × Ref)) (key : Ref) : Option Ref :=
  (entries.find? fun entry => s.text? entry.1 = s.text? key).map Prod.snd

variable {s : Store} {xs ys entries : List (Ref × Ref)} {entry : Ref × Ref}

theorem TextKeyed.of_cons (h : s.TextKeyed (entry :: entries)) : s.TextKeyed entries where
  texts := fun other hother => h.texts other (List.mem_cons_of_mem entry hother)
  distinct := (List.nodup_cons.1 h.distinct).2

/-- A key that is a text is looked up among texts by what it says. -/
theorem TextKeyed.lookup?_eq (h : s.TextKeyed entries) {key : Ref} {t : Text}
    (hkey : s.text? key = some t) : s.lookup? key entries = some (s.partner? entries key) := by
  induction entries with
  | nil => rfl
  | cons entry entries ih =>
    obtain ⟨other, hother⟩ := h.texts entry List.mem_cons_self
    have hrest : s.lookup? key entries = some (s.partner? entries key) := ih h.of_cons
    rw [lookup?, findEntry, matching?_of_text? hkey hother, partner?, List.find?_cons, hkey, hother]
    by_cases hsame : other = t
    · simp [hsame]
    · rw [lookup?, partner?, hkey] at hrest
      simp [hsame, Ne.symm hsame, hrest]

/-- An entry is the partner of its own key. -/
theorem TextKeyed.partner?_of_mem (h : s.TextKeyed entries) (hmem : entry ∈ entries) :
    s.partner? entries entry.1 = some entry.2 := by
  induction entries with
  | nil => cases hmem
  | cons first entries ih =>
    rw [partner?, List.find?_cons]
    rcases List.mem_cons.1 hmem with rfl | hmem
    · simp
    · have hother : s.text? first.1 ≠ s.text? entry.1 := by
        intro hsame
        apply (List.nodup_cons.1 h.distinct).1
        exact List.mem_map.2 ⟨entry, hmem, hsame.symm⟩
      simp only [hother, decide_false]
      exact ih h.of_cons hmem

/-- A partner is the value of an entry under the same text. -/
theorem exists_mem_of_partner? {key value : Ref} (h : s.partner? entries key = some value) :
    ∃ entry ∈ entries, s.text? entry.1 = s.text? key := by
  obtain ⟨entry, hentry, -⟩ := Option.map_eq_some_iff.1 h
  exact ⟨entry, List.mem_of_find?_eq_some hentry, by simpa using List.find?_some hentry⟩

private theorem any_partner?_of_all (hxs : s.TextKeyed xs) (hys : s.TextKeyed ys)
    (hlength : xs.length = ys.length) {test : Ref → Ref → Bool} (htest : ∀ x y, test x y = test y x)
    (h : ∀ entry ∈ xs, (s.partner? ys entry.1).any (test entry.2) = true) :
    ∀ entry ∈ ys, (s.partner? xs entry.1).any (test entry.2) = true := by
  -- The texts of the keys are among those of the other dictionary, hence the same up to order.
  have hsub : (xs.map fun entry => s.text? entry.1) ⊆ ys.map fun entry => s.text? entry.1 := by
    intro t ht
    obtain ⟨entry, hentry, rfl⟩ := List.mem_map.1 ht
    obtain ⟨value, hvalue, -⟩ := (Option.any_eq_true _ _).1 (h entry hentry)
    obtain ⟨other, hother, hsame⟩ := exists_mem_of_partner? hvalue
    exact List.mem_map.2 ⟨other, hother, hsame⟩
  have hperm := (hxs.distinct.subperm hsub).perm_of_length_le (by simp [hlength])
  intro entry hentry
  obtain ⟨other, hother, hsame⟩ :=
    List.mem_map.1 (hperm.symm.subset (List.mem_map.2 ⟨entry, hentry, rfl⟩))
  have hpartner : s.partner? ys other.1 = some entry.2 := by
    rw [partner?, hsame]
    exact hys.partner?_of_mem hentry
  have hpartner' : s.partner? xs entry.1 = some other.2 := by
    rw [partner?, ← hsame]
    exact hxs.partner?_of_mem hother
  have hpass := h other hother
  rw [hpartner] at hpass
  rw [hpartner', Option.any_some, htest]
  exact hpass

/-- Every entry of a dictionary has a partner in another of that size that passes a test, if the
same holds the other way round, and only then. -/
theorem all_partner?_swap (hxs : s.TextKeyed xs) (hys : s.TextKeyed ys)
    (hlength : xs.length = ys.length) {test : Ref → Ref → Bool}
    (htest : ∀ x y, test x y = test y x) :
    (xs.all fun entry => (s.partner? ys entry.1).any (test entry.2)) =
      ys.all fun entry => (s.partner? xs entry.1).any (test entry.2) := by
  rw [Bool.eq_iff_iff, List.all_eq_true, List.all_eq_true]
  exact ⟨any_partner?_of_all hxs hys hlength htest, any_partner?_of_all hys hxs hlength.symm htest⟩

end Store

end Expectation

import Mathlib.Data.List.Lex
import Mathlib.Data.Char
import Expectation.Assertion.Registry
import Expectation.Proofs.Table
import Expectation.Proofs.Text.Lines

/-!
# Lists of names

The names of all types are listed in strictly ascending order, each once. The order is that of texts
by code points.
-/

namespace Expectation

namespace Text

/-- The order of texts is the lexicographic one by code points. -/
theorem precedes_iff_lt {s t : Text} : precedes s t = true ↔ s < t := by
  induction s generalizing t with
  | nil => cases t <;> simp [precedes]
  | cons a s ih =>
    cases t with
    | nil => simp [precedes]
    | cons b t =>
      have hval : a.val = b.val ↔ a = b := ⟨Char.ext, congrArg Char.val⟩
      have hlt : a.val < b.val ↔ a < b := Iff.rfl
      simp only [precedes, Bool.or_eq_true, Bool.and_eq_true, decide_eq_true_eq, beq_iff_eq,
        List.cons_lt_cons_iff, ih, hval, hlt]

end Text

namespace AssertionRegistry

/-- A name that is put among names is there, and those that were there stay. -/
theorem mem_insertName {name other : Text} {names : List Text} :
    other ∈ insertName name names ↔ other = name ∨ other ∈ names := by
  induction names with
  | nil => simp [insertName]
  | cons first names ih =>
    rw [insertName]
    split_ifs with heq hlt
    · subst heq
      simp
    · exact List.mem_cons
    · rw [List.mem_cons, List.mem_cons, ih, or_left_comm]

/-- A name that is put among names in strictly ascending order keeps the order. -/
theorem pairwise_insertName {name : Text} {names : List Text} (h : names.Pairwise (· < ·)) :
    (insertName name names).Pairwise (· < ·) := by
  induction names with
  | nil => exact List.pairwise_singleton _ _
  | cons first names ih =>
    obtain ⟨hfirst, hnames⟩ := List.pairwise_cons.1 h
    rw [insertName]
    split_ifs with heq hlt
    · exact h
    · have hlt := Text.precedes_iff_lt.1 hlt
      refine List.pairwise_cons.2 ⟨List.forall_mem_cons.2 ⟨hlt, ?_⟩, h⟩
      exact fun other hother => hlt.trans (hfirst other hother)
    · have hgt : first < name :=
        lt_of_le_of_ne (not_lt.1 fun h => hlt (Text.precedes_iff_lt.2 h)) (Ne.symm heq)
      refine List.pairwise_cons.2 ⟨fun other hother => ?_, ih hnames⟩
      rcases mem_insertName.1 hother with rfl | hother
      · exact hgt
      · exact hfirst other hother

/-- The names of all types are in strictly ascending order. -/
theorem pairwise_allNames (registry : AssertionRegistry) :
    registry.allNames.Pairwise (· < ·) := by
  rw [allNames]
  induction registry.tables.entries.flatMap fun entry => entry.2.keys with
  | nil => exact List.Pairwise.nil
  | cons name names ih => exact pairwise_insertName ih

/-- A name is in a fold of names into place exactly if it is one of them. -/
private theorem mem_foldr_insertName {name : Text} {names : List Text} :
    name ∈ names.foldr insertName [] ↔ name ∈ names := by
  induction names with
  | nil => rfl
  | cons first names ih => rw [List.foldr_cons, mem_insertName, ih, List.mem_cons]

/-- The names of all types are those of each type. -/
theorem mem_allNames {registry : AssertionRegistry} {name : Text} :
    name ∈ registry.allNames ↔ ∃ typeName, name ∈ registry.names typeName := by
  rw [allNames, mem_foldr_insertName, List.mem_flatMap]
  constructor
  · rintro ⟨entry, hentry, hname⟩
    refine ⟨entry.1, ?_⟩
    rw [names, rules, Table.get?_eq_some_of_mem hentry]
    exact hname
  · rintro ⟨typeName, hname⟩
    rw [names, rules] at hname
    cases htable : registry.tables.get? typeName with
    | none =>
      rw [htable] at hname
      cases hname
    | some table =>
      rw [htable] at hname
      exact ⟨(typeName, table), Table.get?_eq_some_iff.1 htable, hname⟩

end AssertionRegistry

end Expectation

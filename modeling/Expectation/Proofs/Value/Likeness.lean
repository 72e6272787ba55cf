import Mathlib.Data.List.Forall2
import Expectation.Proofs.Value.Containment
import Expectation.Value.Printer

/-!
# Values that are the same part by part

Two values are the same part by part if they are lists or dictionaries of the same shape with such
values in the same places, or otherwise made of the same. It does not matter which objects they are
made of: one object may stand in one of them where the other has several.
-/

namespace Expectation

/-- The value holds other values. -/
def Node.isContainer (n : Node) : Bool := n.kind = .list || n.kind = .tuple || n.kind = .dict

namespace Store

/-- Two lists of the same length, or two dictionaries with the same keys in the same order; keys are
no containers. -/
inductive Matches (s : Store) (a b : Ref) : Prop
  | list {xs ys : List Ref} (ha : s.node a = .list xs) (hb : s.node b = .list ys)
      (hlength : xs.length = ys.length)
  | dict {xs ys : List (Ref × Ref)} (ha : s.node a = .dict xs) (hb : s.node b = .dict ys)
      (hkeys : List.Forall₂
        (fun x y => s.node x.1 = s.node y.1 ∧ (s.node x.1).isContainer = false) xs ys)

/-- Two values are the same part by part. -/
inductive Same (s : Store) : Ref → Ref → Prop
  | atom {a b : Ref} (hnode : s.node a = s.node b) (hatom : (s.node a).isContainer = false) :
      Same s a b
  | container {a b : Ref} (hmatch : s.Matches a b)
      (hparts : ∀ pair ∈ (s.parts a).zip (s.parts b), Same s pair.1 pair.2) : Same s a b

/-- The arrays and objects in a value nest at most so deep, the value itself included and so the
keys of dictionaries. -/
def NestsWithin (s : Store) : Nat → Ref → Prop
  | 0, a => (s.node a).isNested = false
  | n + 1, a => ∀ x ∈ s.parts a, s.NestsWithin n x

/-- How deep arrays and objects nest can be decided. -/
instance decidableNestsWithin (s : Store) : (n : Nat) → (a : Ref) → Decidable (s.NestsWithin n a)
  | 0, a => inferInstanceAs (Decidable ((s.node a).isNested = false))
  | n + 1, a =>
    have := decidableNestsWithin s n
    inferInstanceAs (Decidable (∀ x ∈ s.parts a, s.NestsWithin n x))

variable {s : Store} {a b : Ref}

/-- The form of a value that holds no others depends on what it is made of. -/
theorem shown_congr (hnode : s.node a = s.node b) (hatom : (s.node a).isContainer = false) :
    s.shown a = s.shown b := by
  change s.shownWithin (999 + 1) [] a = s.shownWithin (999 + 1) [] b
  rw [shownWithin, shownWithin, ← hnode]
  cases hn : s.node a with
  | list _ | tuple _ | dict _ => simp [hn, Node.isContainer, Node.kind] at hatom
  | _ => rfl

/-- The text of a value that holds no others depends on what it is made of. -/
theorem plain_congr (hnode : s.node a = s.node b) (hatom : (s.node a).isContainer = false) :
    s.plain a = s.plain b := by
  unfold plain
  rw [← hnode]
  split
  · rfl
  · rfl
  · rfl
  · exact shown_congr hnode hatom

/-- What holds no others has no parts. -/
theorem parts_eq_nil (hatom : (s.node a).isContainer = false) : s.parts a = [] := by
  unfold parts
  cases hn : s.node a with
  | list _ | tuple _ | dict _ => simp [hn, Node.isContainer, Node.kind] at hatom
  | _ => rfl

/-- A value that holds no others is of no shape. -/
theorem Matches.isContainer (h : s.Matches a b) : (s.node a).isContainer = true := by
  cases h with
  | list ha | dict ha => simp [ha, Node.isContainer, Node.kind]

/-- Values that are the same part by part are arrays or objects together. -/
theorem Same.isNested_eq (h : s.Same a b) : (s.node a).isNested = (s.node b).isNested := by
  cases h with
  | atom hnode => rw [hnode]
  | container hmatch =>
    cases hmatch with
    | list ha hb | dict ha hb => rw [ha, hb]; rfl

/-- Parts in the same place of values that are the same part by part are so too. -/
theorem Same.of_mem_zip (h : s.Same a b) {x y : Ref}
    (hplace : (x, y) ∈ (s.parts a).zip (s.parts b)) : s.Same x y := by
  cases h with
  | atom _ hatom =>
    rw [parts_eq_nil hatom] at hplace
    cases hplace
  | container _ hparts => exact hparts _ hplace

/-- Only arrays and objects have parts. -/
theorem Holds.isNested {x : Ref} (h : s.Holds a x) : (s.node a).isNested = true := by
  unfold Holds parts at h
  split at h
  · next hn => rw [hn]; rfl
  · next hn => rw [hn]; rfl
  · next hn => rw [hn]; rfl
  · cases h

end Store

end Expectation

import Expectation.Value.Equality

/-!
# Equality of values and its symmetry

Numbers are equal whichever comes first. Two values that are not containers of one kind are told
equal or not at once, without a look at parts, and again whichever comes first.
-/

namespace Expectation

theorem Fraction.same_comm (a b : Fraction) : a.same b = b.same a := by
  simp only [Fraction.same, eq_comm]

theorem Binary64.same_comm (x y : Binary64) : x.same y = y.same x := by
  cases x with
  | nan => cases y <;> rfl
  | infinite negative =>
    cases y with
    | nan => rfl
    | infinite negative' => simp only [Binary64.same, eq_comm]
    | finite _ _ _ => simp [Binary64.same, Binary64.value?]
  | finite _ _ _ =>
    cases y with
    | nan => rfl
    | infinite _ => simp [Binary64.same, Binary64.value?]
    | finite _ _ _ =>
      simp only [Binary64.same, Binary64.value?]
      exact Fraction.same_comm _ _

theorem Number.same_comm (m n : Number) : m.same n = n.same m := by
  cases m <;> cases n <;> simp only [Number.same, eq_comm, Binary64.same_comm]

namespace Store

variable {s : Store} {a b : Ref}

/-- Two values are containers of one kind. -/
def AreAlike (s : Store) (a b : Ref) : Prop :=
  (s.node a).kind = (s.node b).kind ∧ (s.node a).kind ∈ [Kind.list, Kind.tuple, Kind.dict]

/-- Equality of numbers, and of any other values as objects. -/
def numericEqual (s : Store) (a b : Ref) : Bool :=
  match (s.node a).number?, (s.node b).number? with
  | some m, some n => m.same n
  | _, _ => a = b

/-- Equality of two values without a look at their parts. -/
def flatEqual (s : Store) (a b : Ref) : Bool :=
  match s.node a, s.node b with
  | .text x, .text y => x = y
  | .bytes x, .bytes y => x = y
  | _, _ => s.numericEqual a b

private theorem numericEqual_comm (s : Store) (a b : Ref) :
    s.numericEqual a b = s.numericEqual b a := by
  unfold numericEqual
  cases (s.node a).number? <;> cases (s.node b).number? <;>
    simp only [eq_comm, Number.same_comm]

private theorem flatEqual_of_not_strings (htexts : ∀ x y, s.node a = .text x → s.node b ≠ .text y)
    (hbytes : ∀ x y, s.node a = .bytes x → s.node b ≠ .bytes y) :
    s.flatEqual a b = s.numericEqual a b := by
  unfold flatEqual
  split
  · next ha hb => exact absurd hb (htexts _ _ ha)
  · next ha hb => exact absurd hb (hbytes _ _ ha)
  · rfl

theorem flatEqual_comm (s : Store) (a b : Ref) : s.flatEqual a b = s.flatEqual b a := by
  rw [flatEqual]
  split
  · next ha hb => simp only [flatEqual, ha, hb, eq_comm]
  · next ha hb => simp only [flatEqual, ha, hb, eq_comm]
  · next htexts hbytes =>
    rw [numericEqual_comm, flatEqual_of_not_strings]
    · exact fun x y hb ha => htexts y x ha hb
    · exact fun x y hb ha => hbytes y x ha hb

/-- Values that are not containers of one kind are told equal or not at once. -/
theorem equalWithin_of_not_areAlike (h : ¬ s.AreAlike a b) (depth : Nat) :
    s.equalWithin (depth + 1) a b = some (s.flatEqual a b) := by
  unfold AreAlike at h
  unfold equalWithin
  dsimp only
  split
  · next ha hb => simp only [flatEqual, ha, hb]
  · next ha hb => simp only [flatEqual, ha, hb]
  · next ha hb => simp [ha, hb, Node.kind] at h
  · next ha hb => simp [ha, hb, Node.kind] at h
  · next ha hb => simp [ha, hb, Node.kind] at h
  · next htexts hbytes _ _ _ =>
    rw [flatEqual_of_not_strings htexts hbytes, numericEqual]
    cases (s.node a).number? <;> cases (s.node b).number? <;> rfl

/-- Values that are not containers of one kind match if they are the same object or told equal. -/
theorem matching?_of_not_areAlike (h : ¬ s.AreAlike a b) :
    s.matching? a b = some (decide (a = b) || s.flatEqual a b) := by
  rw [matching?, equal?, nesting, equalWithin_of_not_areAlike h]
  by_cases hab : a = b <;> simp [hab]

end Store

end Expectation

import Expectation.Proofs.Engine.Circularity
import Expectation.Proofs.Engine.Structural

/-!
# Later watches

A comparison that answers although it is watched gives the same answer if the watch begins further
down, and also if there is none: the watch can end a comparison and does nothing else to it.
-/

namespace Expectation

namespace Comparison

section Related

variable {α β : Type} {answer : Ref → Ref → Except Fault Bool × List α}
  {answer' : Ref → Ref → Except Fault Bool × List β} {R : List α → List β → Prop}

/-- If each question is answered alike, and what the answers leave is related, so is what is left by
all of them. -/
theorem exists_trail_of_related (hnil : R [] [])
    (happend : ∀ {l l' m m'}, R l l' → R m m' → R (l ++ m) (l' ++ m'))
    (h : ∀ {a b equal left}, answer a b = (.ok equal, left) →
      ∃ left', answer' a b = (.ok equal, left') ∧ R left left')
    {c : Comparison} {equal : Bool} {left : List α} (hc : c.trail answer = (.ok equal, left)) :
    ∃ left', c.trail answer' = (.ok equal, left') ∧ R left left' := by
  induction c generalizing left with
  | done answered =>
    cases hc
    exact ⟨[], rfl, hnil⟩
  | fault cause => cases hc
  | record entries next ih => exact ih hc
  | ask a b next ih =>
    rw [trail] at hc
    split at hc
    · next answered first hanswer =>
      obtain ⟨first', hanswer', hfirst⟩ := h hanswer
      obtain ⟨hequal, rfl⟩ := Prod.mk.inj hc
      obtain ⟨rest', hrest', hrest⟩ := ih answered (Prod.ext hequal rfl)
      refine ⟨first' ++ rest', ?_, happend hfirst hrest⟩
      simp only [trail, hanswer', hrest']
    · cases hc

end Related

/-- A comparison answers as before if the questions that are answered are answered as before. -/
theorem outcome_run_mono {answer answer' : Ref → Ref → Traced Bool}
    (h : ∀ {a b equal}, (answer a b).outcome = .ok equal → (answer' a b).outcome = .ok equal)
    {c : Comparison} {equal : Bool} (hc : (c.run answer).outcome = .ok equal) :
    (c.run answer').outcome = .ok equal := by
  induction c with
  | done answered => exact hc
  | fault cause => exact hc
  | record entries next ih => exact ih hc
  | ask a b next ih =>
    rw [run, Traced.outcome_bind_eq_ok] at hc ⊢
    obtain ⟨answered, hanswer, hnext⟩ := hc
    exact ⟨answered, h hanswer, ih answered hnext⟩

/-- A comparison ends as its trail does if its questions do. -/
theorem outcome_run_of_trail {α : Type} {answer : Ref → Ref → Traced Bool}
    {plain : Ref → Ref → Except Fault Bool × List α}
    (h : ∀ a b, (answer a b).outcome = (plain a b).1) (c : Comparison) :
    (c.run answer).outcome = (c.trail plain).1 := by
  induction c with
  | done equal => rfl
  | fault cause => rfl
  | record entries next ih => exact ih
  | ask a b next ih =>
    rw [run, Traced.outcome_bind, h, trail]
    rcases plain a b with ⟨cause | equal, left⟩
    · rfl
    · exact ih equal

end Comparison

namespace Engine

variable (e : Engine) (s : Store)

/-- The engine with another greatest depth, below which comparisons are watched. -/
def watchedBelow (depth : Nat) : Engine :=
  { e with settings := { e.settings with maxCompareDepth := depth } }

/-- Compare two values without a watch, nested at most so deep. -/
def compareFreely : (depth : Nat) → (a b : Ref) → Traced Bool
  | 0, _, _ => .fault .tooDeep
  | depth + 1, a, b => e.compareStep s (compareFreely depth) a b

variable {e s} {a b : Ref} {equal : Bool}

private theorem compareTracked_watchedBelow (depth fuel : Nat) :
    (e.watchedBelow depth).compareTracked s fuel = e.compareTracked s fuel := by
  induction fuel with
  | zero => rfl
  | succ fuel ih =>
    funext a b
    rw [compareTracked, ih]
    rfl

private theorem compare_watchedBelow (depth levels : Nat) :
    (e.watchedBelow depth).compare s levels = e.compare s levels := by
  induction levels with
  | zero =>
    funext a b
    rw [compare, compareTracked_watchedBelow]
    rfl
  | succ levels ih =>
    funext a b
    rw [compare, ih]
    rfl

/-- The greatest depth tells how many levels come before the watch, and nothing else. -/
theorem equal_watchedBelow (depth : Nat) (a b : Ref) :
    (e.watchedBelow depth).equal s a b = e.compare s (depth + 1) a b := by
  rw [Engine.equal, compare_watchedBelow]
  rfl

/-- With or without a list of what was compared, a comparison without a watch ends the same way. -/
theorem outcome_compareFreely (depth : Nat) (a b : Ref) :
    (e.compareFreely s depth a b).outcome = (e.unwatched s depth a b).1 := by
  induction depth generalizing a b with
  | zero => rfl
  | succ depth ih =>
    rw [compareFreely, unwatched, compareStep, trailStep, Traced.outcome_bind]
    cases e.classifiers.resolveCommon s a b with
    | error cause => rfl
    | ok found =>
      cases found with
      | none => rfl
      | some type => exact Comparison.outcome_run_of_trail ih _

/-- If each question is answered alike, and what the answers leave is related, so is what is left by
a comparison in one way or another. -/
theorem exists_trailStep_of_related {α β : Type}
    {answer : Ref → Ref → Except Fault Bool × List α}
    {answer' : Ref → Ref → Except Fault Bool × List β} {R : List α → List β → Prop}
    (hnil : R [] []) (happend : ∀ {l l' m m'}, R l l' → R m m' → R (l ++ m) (l' ++ m'))
    (h : ∀ {a b equal left}, answer a b = (.ok equal, left) →
      ∃ left', answer' a b = (.ok equal, left') ∧ R left left')
    {left : List α} (hc : e.trailStep s answer a b = (.ok equal, left)) :
    ∃ left', e.trailStep s answer' a b = (.ok equal, left') ∧ R left left' := by
  unfold trailStep at hc ⊢
  split at hc
  · exact Comparison.exists_trail_of_related hnil happend h hc
  · cases hc
    exact ⟨[], rfl, hnil⟩
  · cases hc

/-- An answer without a watch comes from an answer of the type that the values have in common. -/
theorem unwatched_succ_eq_ok {depth : Nat} {visited : List Ref}
    (h : e.unwatched s (depth + 1) a b = (.ok equal, visited)) :
    ∃ below, e.trailStep s (e.unwatched s depth) a b = (.ok equal, below) ∧
      visited = a :: below := by
  obtain ⟨hequal, rfl⟩ := Prod.mk.inj h
  exact ⟨_, Prod.ext hequal rfl, rfl⟩

/-- An answer without a watch stays if the comparison may nest deeper. -/
theorem unwatched_succ_of_ok {depth : Nat} {visited : List Ref}
    (h : e.unwatched s depth a b = (.ok equal, visited)) :
    e.unwatched s (depth + 1) a b = (.ok equal, visited) := by
  induction depth generalizing a b equal visited with
  | zero => cases h
  | succ depth ih =>
    obtain ⟨below, hbelow, rfl⟩ := unwatched_succ_eq_ok h
    obtain ⟨below', hbelow', rfl⟩ := exists_trailStep_of_related (R := Eq) rfl
      (by rintro _ _ _ _ rfl rfl; rfl) (fun hanswer => ⟨_, ih hanswer, rfl⟩) hbelow
    rw [unwatched, hbelow']

/-- An answer without a watch stays however deep the comparison may nest. -/
theorem unwatched_of_le {depth depth' : Nat} (hle : depth ≤ depth') {visited : List Ref}
    (h : e.unwatched s depth a b = (.ok equal, visited)) :
    e.unwatched s depth' a b = (.ok equal, visited) := by
  induction hle with
  | refl => exact h
  | step _ ih => exact unwatched_succ_of_ok ih

/-- What is answered down to a beginning of the watch is answered without a watch. -/
theorem exists_unwatched_of_trails {fuel levels : Nat} {lists : List (List Ref)}
    (h : e.trails s fuel levels a b = (.ok equal, lists)) :
    ∃ visited, e.unwatched s (fuel + levels) a b = (.ok equal, visited) := by
  induction levels generalizing a b equal lists with
  | zero =>
    obtain ⟨hequal, -⟩ := Prod.mk.inj h
    exact ⟨_, Prod.ext hequal rfl⟩
  | succ levels ih =>
    obtain ⟨below, hbelow, -⟩ := exists_trailStep_of_related (R := fun _ _ => True) trivial
      (fun _ _ => trivial) (fun hanswer => (ih hanswer).imp fun _ h => ⟨h, trivial⟩) h
    exact ⟨a :: below, by rw [← Nat.add_assoc, unwatched, hbelow]⟩

/-- Where the watch begins one level further down, each of the lists of first values is a part of
the list above. -/
theorem exists_trails_one {fuel : Nat} {visited : List Ref}
    (h : e.unwatched s (fuel + 1) a b = (.ok equal, visited)) :
    ∃ lists, e.trails s (fuel + 1) 1 a b = (.ok equal, lists) ∧
      ∀ later ∈ lists, later.Sublist visited := by
  obtain ⟨below, hbelow, rfl⟩ := unwatched_succ_eq_ok h
  have hanswers {x y : Ref} {answered : Bool} {left : List Ref}
      (hanswer : e.unwatched s fuel x y = (.ok answered, left)) :
      ∃ lists, e.trails s (fuel + 1) 0 x y = (.ok answered, lists) ∧
        ∀ later : List Ref, later ∈ lists → later.Sublist left := by
    refine ⟨[left], ?_, by simp⟩
    rw [trails, unwatched_succ_of_ok hanswer]
  obtain ⟨lists, hlists, hsub⟩ := exists_trailStep_of_related
    (R := fun left lists => ∀ later : List Ref, later ∈ lists → later.Sublist left) (by simp)
    (by
      intro l lists m lists' hl hm later hlater
      rcases List.mem_append.1 hlater with hlater | hlater
      · exact (hl later hlater).trans (List.sublist_append_left l m)
      · exact (hm later hlater).trans (List.sublist_append_right l m))
    hanswers hbelow
  exact ⟨lists, hlists, fun later hlater => (hsub later hlater).cons a⟩

/-- What comes twice in a part of a list comes twice in the list. -/
theorem Revisits.of_sublist {visited later : List Ref} (hsub : later.Sublist visited)
    (h : Revisits later) : Revisits visited :=
  fun hn => h (hn.sublist (hsub.filter _))

/-- A watched comparison that answers is one without a watch, in which nothing comes twice after a
beginning of the watch. -/
theorem judged_eq_ok {all : Except Fault Bool × List (List Ref)} :
    judged all = .ok equal ↔ all.1 = .ok equal ∧ ∀ visited ∈ all.2, ¬ Revisits visited := by
  unfold judged
  split
  · next h =>
    obtain ⟨visited, hmem, hvisits⟩ := h
    refine ⟨fun h => (by cases h), fun h => absurd hvisits (h.2 visited hmem)⟩
  · next h =>
    refine ⟨fun heq => ⟨heq, fun visited hmem hvisits => h ⟨visited, hmem, hvisits⟩⟩, And.left⟩

/-- An answer stays if the watch begins one level further down. -/
theorem outcome_compare_succ {levels : Nat} (h : (e.compare s levels a b).outcome = .ok equal) :
    (e.compare s (levels + 1) a b).outcome = .ok equal := by
  induction levels generalizing a b equal with
  | zero =>
    rw [outcome_compare, judged_eq_ok] at h ⊢
    obtain ⟨lists, hlists, hsub⟩ := exists_trails_one (Prod.ext h.1 rfl)
    rw [hlists]
    refine ⟨rfl, fun later hlater hvisits => ?_⟩
    exact h.2 _ (List.mem_singleton_self _) (hvisits.of_sublist (hsub later hlater))
  | succ levels ih =>
    rw [compare, compareStep, Traced.outcome_bind_eq_ok] at h ⊢
    obtain ⟨found, hfound, hanswer⟩ := h
    refine ⟨found, hfound, ?_⟩
    cases found with
    | none => exact hanswer
    | some type => exact Comparison.outcome_run_mono ih hanswer

/-- An answer stays if the watch begins further down. -/
theorem outcome_compare_of_le {levels levels' : Nat} (hle : levels ≤ levels')
    (h : (e.compare s levels a b).outcome = .ok equal) :
    (e.compare s levels' a b).outcome = .ok equal := by
  induction hle with
  | refl => exact h
  | step _ ih => exact outcome_compare_succ ih

/-- A watched comparison that answers answers without a watch, if it may nest deep enough. -/
theorem exists_compareFreely_of_compare {levels : Nat}
    (h : (e.compare s levels a b).outcome = .ok equal) :
    ∃ least, ∀ deep, least ≤ deep → (e.compareFreely s deep a b).outcome = .ok equal := by
  rw [outcome_compare, judged_eq_ok] at h
  obtain ⟨visited, hanswer⟩ := exists_unwatched_of_trails (Prod.ext h.1 rfl)
  refine ⟨s.bound + 1 + levels, fun deep hdeep => ?_⟩
  rw [outcome_compareFreely, unwatched_of_le hdeep hanswer]

/-- If two values, circular or not, are compared with an answer where comparisons are watched below
one depth, they are compared with the same answer where comparisons are watched below a greater
depth, and also without any watch. -/
theorem outcome_equal_of_later_watch {depth depth' : Nat} (hle : depth ≤ depth')
    (h : ((e.watchedBelow depth).equal s a b).outcome = .ok equal) :
    ((e.watchedBelow depth').equal s a b).outcome = .ok equal ∧
      ∃ least, ∀ deep, least ≤ deep → (e.compareFreely s deep a b).outcome = .ok equal := by
  rw [equal_watchedBelow] at h ⊢
  constructor
  · exact outcome_compare_of_le (Nat.succ_le_succ hle) h
  · exact exists_compareFreely_of_compare h

-- Two lists that hold themselves after a number.
private def rings : Store := ⟨#[.list [.small 1, .cell 0], .list [.small 2, .cell 1]], #[]⟩

/-- Two circular lists that begin with different numbers are not equal, wherever the watch begins
and also without any. -/
theorem outcome_equal_rings :
    (((Structural.watchful Equal.items).watchedBelow 7).equal rings (.cell 0) (.cell 1)).outcome =
      .ok false ∧
    ∃ least, ∀ deep, least ≤ deep →
      ((Structural.watchful Equal.items).compareFreely rings deep (.cell 0) (.cell 1)).outcome =
        .ok false := by
  have h : (((Structural.watchful Equal.items).watchedBelow 0).equal rings
      (.cell 0) (.cell 1)).outcome = .ok false := rfl
  exact outcome_equal_of_later_watch (Nat.zero_le 7) h

end Engine

end Expectation

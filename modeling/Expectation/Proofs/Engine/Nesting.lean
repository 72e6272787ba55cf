import Expectation.Proofs.Engine.Circularity
import Expectation.Proofs.Engine.Structural

/-!
# How deep comparisons nest

A comparison of circular values ends. Each watched comparison of a value with parts records one
that was not recorded before, and only so many can be reached, so that nothing is left to be
compared after as many levels. What could happen further down is therefore all the same.
-/

namespace Expectation

namespace Engine

section Deeper

variable (e : Engine) (s : Store) (deeper : Ref → Ref → StateT (List Ref) Traced Bool)

/-- Compare two values past the greatest depth; for a comparison that nests so many levels further
down, something else is done. -/
def compareTrackedOr : (count : Nat) → (a b : Ref) → StateT (List Ref) Traced Bool
  | 0, a, b => deeper a b
  | count + 1, a, b => do
    let recorded ← get
    if isRecorded recorded a then liftM (Traced.fault .circular : Traced Bool)
    else
      set (a :: recorded)
      e.compareStep s (compareTrackedOr count) a b

/-- Compare two values with so many levels left before values are recorded, and with something else
done for a comparison that nests a number of levels below that. -/
def compareOr (count : Nat) : (levels : Nat) → (a b : Ref) → Traced Bool
  | 0, a, b => (e.compareTrackedOr s deeper count a b).run' []
  | levels + 1, a, b => e.compareStep s (compareOr count levels) a b

/-- Whether two values are equal, if something else is done for every comparison that nests more
than `below` levels further down than the greatest depth. -/
def equalOr (below : Nat) (a b : Ref) : Traced Bool :=
  e.compareOr s deeper below (e.settings.maxCompareDepth + 1) a b

end Deeper

variable {e : Engine} {s : Store} {a b : Ref}

/-- With parts, a value lies in a cell and is recorded for good. -/
private theorem notMem_of_isRecorded {recorded : List Ref} {x y : Ref} (hy : y ∈ s.parts x)
    (h : ¬ isRecorded recorded x = true) : x ∉ recorded := by
  intro hmem
  obtain ⟨address, -, rfl⟩ := List.mem_map.1 (Store.mem_cells_of_holds hy)
  simp [isRecorded, hmem, Ref.passesBy] at h

section Congruence

variable {answer answer' : Ref → Ref → StateT (List Ref) Traced Bool} {P : List Ref → Prop}

private theorem run_congr_of_recorded {xs ys : List Ref} {c : Comparison} (hc : c.AsksPairs xs ys)
    (h : ∀ x ∈ xs, ∀ y ∈ ys, ∀ recorded, P recorded →
      (answer x y).run recorded = (answer' x y).run recorded)
    (hkeep : ∀ x ∈ xs, ∀ y ∈ ys, ∀ recorded, P recorded → ∀ equal later,
      ((answer' x y).run recorded).outcome = .ok (equal, later) → P later)
    {recorded : List Ref} (hrecorded : P recorded) :
    (c.run answer).run recorded = (c.run answer').run recorded := by
  induction c generalizing recorded with
  | done equal => rfl
  | fault cause => rfl
  | record entries next ih =>
    rw [Comparison.run, Comparison.run, StateT.run_bind, StateT.run_bind]
    apply Traced.bind_congr_of_ok
    intro answered hanswered
    cases hanswered
    exact ih hc hrecorded
  | ask a b next ih =>
    obtain ⟨ha, hb, hnext⟩ := hc
    rw [Comparison.run, Comparison.run, StateT.run_bind, StateT.run_bind,
      h a ha b hb recorded hrecorded]
    apply Traced.bind_congr_of_ok
    rintro ⟨equal, later⟩ hanswered
    exact ih equal (hnext equal) (hkeep a ha b hb recorded hrecorded equal later hanswered)

private theorem run_compareStep_congr_of_recorded
    (hc : e.AsksPartsOf s a b)
    (h : ∀ x ∈ s.parts a, ∀ y ∈ s.parts b, ∀ recorded, P recorded →
      (answer x y).run recorded = (answer' x y).run recorded)
    (hkeep : ∀ x ∈ s.parts a, ∀ y ∈ s.parts b, ∀ recorded, P recorded → ∀ equal later,
      ((answer' x y).run recorded).outcome = .ok (equal, later) → P later)
    {recorded : List Ref} (hrecorded : P recorded) :
    (e.compareStep s answer a b).run recorded = (e.compareStep s answer' a b).run recorded := by
  rw [compareStep, compareStep, StateT.run_bind, StateT.run_bind]
  apply Traced.bind_congr_of_ok
  rintro ⟨found, later⟩ hfound
  cases hr : e.classifiers.resolveCommon s a b with
  | error cause =>
    rw [hr] at hfound
    cases hfound
  | ok found =>
    rw [hr] at hfound
    cases hfound
    cases found with
    | none => rfl
    | some type => exact run_congr_of_recorded (hc type hr) h hkeep hrecorded

end Congruence

private theorem compareStep_congr {answer answer' : Ref → Ref → Traced Bool}
    (hc : e.AsksPartsOf s a b)
    (h : ∀ x ∈ s.parts a, ∀ y ∈ s.parts b, answer x y = answer' x y) :
    e.compareStep s answer a b = e.compareStep s answer' a b := by
  rw [compareStep, compareStep]
  apply Traced.bind_congr_of_ok
  rintro found hfound
  cases found with
  | none => rfl
  | some type => exact Comparison.run_congr h (hc type hfound)

/-- A watched comparison keeps what is recorded. -/
private theorem subset_of_compareTracked {fuel : Nat} {recorded later : List Ref} {equal : Bool}
    (h : ((e.compareTracked s fuel a b).run recorded).outcome = .ok (equal, later)) :
    recorded ⊆ later := by
  rw [outcome_compareTracked, watched] at h
  split at h
  · cases h
  · cases hall : (e.unwatched s fuel a b).1 with
    | error cause =>
      rw [hall] at h
      cases h
    | ok answered =>
      rw [hall] at h
      cases h
      exact List.subset_append_right _ recorded

/-- With a level for each value with parts that is not recorded, and one more, nothing is left to
be compared further down. -/
theorem run_compareTrackedOr (he : e.ComparesParts s a b)
    (deeper : Ref → Ref → StateT (List Ref) Traced Bool) {x y : Ref} (hx : x ∈ s.reach a)
    (hy : y ∈ s.reach b) (recorded : List Ref) (count fuel : Nat)
    (hcount : (s.unlisted a recorded).ncard < count)
    (hfuel : (s.unlisted a recorded).ncard < fuel) :
    (e.compareTrackedOr s deeper count x y).run recorded =
      (e.compareTracked s fuel x y).run recorded := by
  induction count generalizing fuel recorded x y with
  | zero => omega
  | succ count ih =>
    obtain ⟨fuel, rfl⟩ : ∃ n, fuel = n + 1 := ⟨fuel - 1, by omega⟩
    rw [compareTrackedOr, compareTracked, StateT.run_bind, StateT.run_bind, StateT.run_get,
      Traced.done_bind, Traced.done_bind]
    by_cases hr : isRecorded recorded x = true
    · rw [if_pos hr, if_pos hr]
    · rw [if_neg hr, if_neg hr, StateT.run_bind, StateT.run_bind, StateT.run_set, Traced.done_bind,
        Traced.done_bind]
      -- Among the parts of `x` more and more is recorded, but always at least `x :: recorded`,
      -- which leaves fewer values with parts than `recorded` does.
      apply run_compareStep_congr_of_recorded (P := fun later => x :: recorded ⊆ later)
      · exact he x hx y hy
      · intro x' hx' y' hy' later hlater
        have hless : (s.unlisted a (x :: recorded)).ncard < (s.unlisted a recorded).ncard :=
          Store.ncard_unlisted_cons_lt hx (List.ne_nil_of_mem hx') (notMem_of_isRecorded hx' hr)
        have hlisted := Store.ncard_unlisted_le s a hlater
        apply ih (Store.mem_reach_of_mem_parts hx hx') (Store.mem_reach_of_mem_parts hy hy')
        · omega
        · omega
      · intro x' _ y' _ later hlater answered last hlast
        exact List.Subset.trans hlater (subset_of_compareTracked hlast)
      · exact List.Subset.refl _

/-- With so many levels below the greatest depth, nothing is left to be compared further down. -/
theorem compareOr_eq (he : e.ComparesParts s a b)
    (deeper : Ref → Ref → StateT (List Ref) Traced Bool) {count : Nat}
    (hcount : (s.reach a).ncard < count) (levels : Nat) {x y : Ref} (hx : x ∈ s.reach a)
    (hy : y ∈ s.reach b) : e.compareOr s deeper count levels x y = e.compare s levels x y := by
  induction levels generalizing x y with
  | zero =>
    have hreach := Store.ncard_unlisted_le_reach s a []
    have hsize := Store.ncard_unlisted_le_size s a []
    have hrun := run_compareTrackedOr he deeper hx hy [] count (s.bound + 1) (by omega)
      (by unfold Store.bound; omega)
    rw [compareOr, compare, StateT.run', StateT.run']
    exact congrArg (Prod.fst <$> ·) hrun
  | succ levels ih =>
    exact compareStep_congr (he x hx y hy) fun x' hx' y' hy' =>
      ih (Store.mem_reach_of_mem_parts hx hx') (Store.mem_reach_of_mem_parts hy hy')

/-- A fault comes from a type that raises it by itself, or from the comparison of parts, and then
what that leaves is left last. -/
theorem exists_of_trailStep_eq_error {α : Type} {answer : Ref → Ref → Except Fault Bool × List α}
    (hc : e.AsksPartsOf s a b) {cause : Fault} {left : List α}
    (h : e.trailStep s answer a b = (.error cause, left)) :
    e.Raises s a b cause ∨ ∃ x ∈ s.parts a, ∃ y ∈ s.parts b, ∃ last,
      answer x y = (.error cause, last) ∧ last <:+ left := by
  unfold trailStep at h
  split at h
  · next type htype =>
    rcases Comparison.exists_of_trail_eq_error (hc type htype) h with hraises | hanswer
    · exact .inl (.inr ⟨type, htype, hraises⟩)
    · exact .inr hanswer
  · cases h
  · next hr =>
    cases h
    exact .inl (.inl (ClassifierRegistry.exists_fault_of_firstCommon hr))

private theorem meets_of_suffix {recorded visited last : List Ref} (hsuffix : last <:+ visited)
    (h : meets recorded visited = false) :
    ∃ later, recorded ⊆ later ∧ meets later last = false := by
  obtain ⟨front, rfl⟩ := hsuffix
  rw [meets_append, Bool.or_eq_false_iff] at h
  exact ⟨front.reverse ++ recorded, List.subset_append_right _ _, h.2⟩

/-- If nothing comes again, a comparison without a watch does not nest too deep, and its faults come
from types that raise them. -/
private theorem raisesBelow_of_unwatched (he : e.ComparesParts s a b) {fuel : Nat} {x y : Ref}
    (hx : x ∈ s.reach a) (hy : y ∈ s.reach b) {recorded visited : List Ref} {cause : Fault}
    (hfuel : (s.unlisted a recorded).ncard < fuel)
    (h : e.unwatched s fuel x y = (.error cause, visited))
    (hmeets : meets recorded visited = false) : e.RaisesBelow s a b cause := by
  induction fuel generalizing x y recorded visited with
  | zero => omega
  | succ fuel ih =>
    obtain ⟨hcause, rfl⟩ := Prod.mk.inj h
    rw [meets, Bool.or_eq_false_iff] at hmeets
    obtain ⟨hrecorded, hmeets⟩ := hmeets
    rcases exists_of_trailStep_eq_error (he x hx y hy)
      (Prod.ext hcause rfl) with hraises | ⟨x', hx', y', hy', last, hlast, hsuffix⟩
    · exact ⟨x, hx, y, hy, hraises⟩
    · obtain ⟨later, hlater, hmeets'⟩ := meets_of_suffix hsuffix hmeets
      have hless : (s.unlisted a (x :: recorded)).ncard < (s.unlisted a recorded).ncard :=
        Store.ncard_unlisted_cons_lt hx (List.ne_nil_of_mem hx')
          (notMem_of_isRecorded hx' (by simp [hrecorded]))
      have hlisted := Store.ncard_unlisted_le s a hlater
      exact ih (Store.mem_reach_of_mem_parts hx hx') (Store.mem_reach_of_mem_parts hy hy')
        (by omega) hlast hmeets'

/-- If nothing comes again in any comparison where the watch begins, the faults of a comparison come
from types that raise them. -/
theorem raisesBelow_of_trails (he : e.ComparesParts s a b) {levels : Nat} {x y : Ref}
    (hx : x ∈ s.reach a) (hy : y ∈ s.reach b) {cause : Fault} {lists : List (List Ref)}
    (h : e.trails s (s.bound + 1) levels x y = (.error cause, lists))
    (hlists : ∀ visited ∈ lists, ¬ Revisits visited) : e.RaisesBelow s a b cause := by
  induction levels generalizing x y lists with
  | zero =>
    obtain ⟨hcause, rfl⟩ := Prod.mk.inj h
    have hmeets := hlists _ (List.mem_singleton_self _)
    rw [revisits_iff, Bool.not_eq_true] at hmeets
    have hsize := Store.ncard_unlisted_le_size s a []
    exact raisesBelow_of_unwatched he hx hy (by unfold Store.bound; omega) (Prod.ext hcause rfl)
      hmeets
  | succ levels ih =>
    rcases exists_of_trailStep_eq_error (he x hx y hy) h with
      hraises | ⟨x', hx', y', hy', last, hlast, hsuffix⟩
    · exact ⟨x, hx, y, hy, hraises⟩
    · exact ih (Store.mem_reach_of_mem_parts hx hx') (Store.mem_reach_of_mem_parts hy hy') hlast
        fun visited hvisited => hlists visited (hsuffix.subset hvisited)

/-- Where the watch begins, some object is the first value of two comparisons. -/
def ComesAgain (e : Engine) (s : Store) (a b : Ref) : Prop :=
  ∃ visited ∈ (e.trails s (s.bound + 1) (e.settings.maxCompareDepth + 1) a b).2, Revisits visited

instance (e : Engine) (s : Store) (a b : Ref) : Decidable (e.ComesAgain s a b) :=
  inferInstanceAs (Decidable (∃ visited ∈ _, Revisits visited))

/-- If some object comes again, a comparison is given up as circular. -/
theorem outcome_equal_of_comesAgain (h : e.ComesAgain s a b) :
    (e.equal s a b).outcome = .error .circular := by
  rw [equal, outcome_compare, judged]
  exact if_pos h

/-- If no object comes again, a comparison by parts answers or ends with a fault that some type
raises. -/
theorem outcome_equal_of_not_comesAgain (he : e.ComparesParts s a b) (h : ¬ e.ComesAgain s a b) :
    (∃ equal, (e.equal s a b).outcome = .ok equal) ∨
      ∃ cause, (e.equal s a b).outcome = .error cause ∧ e.RaisesBelow s a b cause := by
  have houtcome : (e.equal s a b).outcome =
      (e.trails s (s.bound + 1) (e.settings.maxCompareDepth + 1) a b).1 := by
    rw [equal, outcome_compare, judged]
    exact if_neg h
  rw [houtcome]
  rcases htrails : e.trails s (s.bound + 1) (e.settings.maxCompareDepth + 1) a b with
    ⟨cause | equal, lists⟩
  · have hlists : ∀ visited ∈ lists, ¬ Revisits visited :=
      fun visited hvisited hvisits => h ⟨visited, by rw [htrails]; exact hvisited, hvisits⟩
    exact .inr ⟨cause, rfl, raisesBelow_of_trails he (s.mem_reach_self a) (s.mem_reach_self b)
      htrails hlists⟩
  · exact .inl ⟨equal, rfl⟩

/-- However circular, a comparison by parts ends: with an answer, given up as circular, or with a
fault that some type raises. It nests at most one level deeper than the greatest depth and the
number of values that are reached from the first one together: what would be done further down does
not matter. -/
theorem outcome_equal_of_comparesParts (he : e.ComparesParts s a b) :
    ((∃ equal, (e.equal s a b).outcome = .ok equal) ∨
      (e.equal s a b).outcome = .error .circular ∨
      ∃ cause, (e.equal s a b).outcome = .error cause ∧ e.RaisesBelow s a b cause) ∧
    (s.reach a).Finite ∧
    ∀ deeper, e.equalOr s deeper (1 + (s.reach a).ncard) a b = e.equal s a b := by
  refine ⟨?_, s.finite_reach a, fun deeper => ?_⟩
  · by_cases hagain : e.ComesAgain s a b
    · exact .inr (.inl (outcome_equal_of_comesAgain hagain))
    · rcases outcome_equal_of_not_comesAgain he hagain with hanswer | hfault
      · exact .inl hanswer
      · exact .inr (.inr hfault)
  · exact compareOr_eq he deeper (by omega) _ (s.mem_reach_self a) (s.mem_reach_self b)

-- A list that holds only itself, and two lists without items.
private def ring : Store := ⟨#[.list [.cell 0], .list [], .list []], #[]⟩

/-- The comparison of a list with itself that holds only itself is given up as circular, and two
levels below the greatest depth nothing is left to be compared. -/
theorem outcome_equal_ring :
    ((Structural.watchful Equal.items).equal ring (.cell 0) (.cell 0)).outcome =
      .error .circular ∧
    ∀ deeper, (Structural.watchful Equal.items).equalOr ring deeper 2 (.cell 0) (.cell 0) =
      (Structural.watchful Equal.items).equal ring (.cell 0) (.cell 0) := by
  have h := outcome_equal_of_comparesParts
    (Structural.comparesParts_items ⟨.text, 3, 0, 2, 100⟩ ring (.cell 0) (.cell 0))
  have hreach : ring.reach (.cell 0) = {.cell 0} := by
    ext x
    constructor
    · intro hx
      induction hx with
      | refl => rfl
      | tail _ hb ih =>
        cases ih
        exact List.mem_singleton.1 hb
    · rintro rfl
      exact ring.mem_reach_self _
  constructor
  · rfl
  · intro deeper
    have hdeeper := h.2.2 deeper
    rw [hreach, Set.ncard_singleton] at hdeeper
    exact hdeeper

/-- A type may raise a fault that has nothing to do with circular values: where lists are compared
by their first items only, there is nothing to compare lists without items by. -/
theorem outcome_equal_withoutFirst :
    (Structural.watchful Equal.first).ComparesParts ring (.cell 1) (.cell 2) ∧
    ¬ ((∃ equal, ((Structural.watchful Equal.first).equal ring (.cell 1) (.cell 2)).outcome =
          .ok equal) ∨
        ((Structural.watchful Equal.first).equal ring (.cell 1) (.cell 2)).outcome =
          .error .circular) := by
  constructor
  · exact Structural.comparesParts_engine
      (fun _ b ha hb => Comparison.asksPairs_first b (by simp [ha]) (by simp [hb])) _ _
  · have hfault : ((Structural.watchful Equal.first).equal ring (.cell 1) (.cell 2)).outcome =
        .error .noElement := rfl
    rw [hfault]
    rintro (⟨equal, h⟩ | h)
    · cases h
    · cases h

end Engine

end Expectation

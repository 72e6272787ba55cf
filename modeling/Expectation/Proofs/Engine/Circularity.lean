import Expectation.Engine.Equality
import Expectation.Proofs.Classifier.Comparison
import Expectation.Proofs.Classifier.Resolution
import Expectation.Proofs.Trace

/-!
# Comparisons given up as circular

A comparison without a watch for circular values tells, for every comparison of values at the depth
where the watch would begin, the first values of it and of all comparisons below it in order. With
the watch the same comparison is given up exactly if one of these lists has an object twice. Without
a watch, the comparison of an acyclic value always ends.
-/

namespace Expectation

namespace Engine

/-- A value that is listed comes again, one that only passes by apart. -/
def meets : (recorded visited : List Ref) → Bool
  | _, [] => false
  | recorded, a :: visited => isRecorded recorded a || meets (a :: recorded) visited

/-- Some object comes twice, one that only passes by apart. -/
def Revisits (visited : List Ref) : Prop := ¬ (visited.filter fun a => !a.passesBy).Nodup

instance (visited : List Ref) : Decidable (Revisits visited) :=
  inferInstanceAs (Decidable (¬ _))

private theorem meets_eq_false_iff (recorded visited : List Ref) :
    meets recorded visited = false ↔
      (visited.filter fun a => !a.passesBy).Nodup ∧
        ∀ a ∈ visited, a ∈ recorded → a.passesBy = true := by
  induction visited generalizing recorded with
  | nil => simp [meets]
  | cons a visited ih =>
    rw [meets, Bool.or_eq_false_iff, ih]
    by_cases hp : a.passesBy
    · simp [isRecorded, hp]
      grind
    · simp [isRecorded, hp]
      grind

/-- An object comes twice if it is met while the list is gone through. -/
theorem revisits_iff (visited : List Ref) : Revisits visited ↔ meets [] visited = true := by
  have h := meets_eq_false_iff [] visited
  simp only [List.not_mem_nil, false_implies, implies_true, and_true] at h
  rw [Revisits, ← h, Bool.not_eq_false]

/-- What is met in a list is met in its beginning or after it. -/
theorem meets_append (recorded visited later : List Ref) :
    meets recorded (visited ++ later) =
      (meets recorded visited || meets (visited.reverse ++ recorded) later) := by
  induction visited generalizing recorded with
  | nil => rfl
  | cons a visited ih => simp [meets, ih, Bool.or_assoc]

variable (e : Engine) (s : Store)

/-- Compare two values in one way or another, whatever the answers leave. -/
def trailStep {α : Type} (answer : Ref → Ref → Except Fault Bool × List α) (a b : Ref) :
    Except Fault Bool × List α :=
  match e.classifiers.resolveCommon s a b with
  | .ok (some type) => (type.behaviour.equal s a b).trail answer
  | .ok none => (.ok false, [])
  | .error cause => (.error cause, [])

/-- Compare two values without a watch for circular ones; with the answer come the first values of
all comparisons that were made, in order. -/
def unwatched : (fuel : Nat) → (a b : Ref) → Except Fault Bool × List Ref
  | 0, _, _ => (.error .tooDeep, [])
  | fuel + 1, a, b =>
    let below := e.trailStep s (unwatched fuel) a b
    (below.1, a :: below.2)

/-- Compare two values without a watch; with the answer comes a list of first values for each
comparison that was made so many levels further down, in order. -/
def trails (fuel : Nat) : (levels : Nat) → (a b : Ref) → Except Fault Bool × List (List Ref)
  | 0, a, b =>
    let all := e.unwatched s fuel a b
    (all.1, [all.2])
  | levels + 1, a, b => e.trailStep s (trails fuel levels) a b

/-- What the watch makes of a comparison, from what is recorded. -/
def watched (recorded : List Ref) (all : Except Fault Bool × List Ref) :
    Except Fault (Bool × List Ref) :=
  if meets recorded all.2 then .error .circular
  else all.1.map fun equal => (equal, all.2.reverse ++ recorded)

private theorem outcome_run_of_watched {answer : Ref → Ref → StateT (List Ref) Traced Bool}
    {plain : Ref → Ref → Except Fault Bool × List Ref}
    (h : ∀ a b recorded, ((answer a b).run recorded).outcome = watched recorded (plain a b))
    (c : Comparison) (recorded : List Ref) :
    ((c.run answer).run recorded).outcome = watched recorded (c.trail plain) := by
  induction c generalizing recorded with
  | done equal => rfl
  | fault cause => rfl
  | record entries next ih => exact ih recorded
  | ask a b next ih =>
    rw [Comparison.run, StateT.run_bind, Traced.outcome_bind, h, Comparison.trail]
    rcases hp : plain a b with ⟨cause | equal, left⟩
    · simp only [watched]
      split <;> rfl
    · simp only [watched, meets_append]
      by_cases hm : meets recorded left
      · simp [hm, Except.bind]
      · simp only [hm, Bool.false_or, Except.map, Except.bind, Bool.false_eq_true, if_false]
        rw [ih]
        simp only [watched, List.reverse_append, List.append_assoc]
        rfl

private theorem outcome_compareStep_of_watched
    {answer : Ref → Ref → StateT (List Ref) Traced Bool}
    {plain : Ref → Ref → Except Fault Bool × List Ref}
    (h : ∀ a b recorded, ((answer a b).run recorded).outcome = watched recorded (plain a b))
    (a b : Ref) (recorded : List Ref) :
    ((e.compareStep s answer a b).run recorded).outcome =
      watched recorded (e.trailStep s plain a b) := by
  rw [compareStep, trailStep, StateT.run_bind, Traced.outcome_bind]
  cases hr : e.classifiers.resolveCommon s a b with
  | error cause => rfl
  | ok found =>
    cases found with
    | none => rfl
    | some type => exact outcome_run_of_watched h _ recorded

/-- With a watch a comparison is given up as soon as a value comes again. -/
theorem outcome_compareTracked (fuel : Nat) (a b : Ref) (recorded : List Ref) :
    ((e.compareTracked s fuel a b).run recorded).outcome =
      watched recorded (e.unwatched s fuel a b) := by
  induction fuel generalizing a b recorded with
  | zero => rfl
  | succ fuel ih =>
    rw [compareTracked, StateT.run_bind, StateT.run_get, Traced.done_bind]
    by_cases hr : isRecorded recorded a
    · rw [if_pos hr, watched, if_pos (by simp [unwatched, meets, hr])]
      rfl
    · have hstep := outcome_compareStep_of_watched e s ih a b (a :: recorded)
      rw [if_neg hr, StateT.run_bind, StateT.run_set, Traced.done_bind, hstep]
      simp [watched, unwatched, meets, hr]

/-- What the watch makes of a comparison, from the lists of first values at its beginnings. -/
def judged (all : Except Fault Bool × List (List Ref)) : Except Fault Bool :=
  if ∃ visited ∈ all.2, Revisits visited then .error .circular else all.1

private theorem outcome_run_of_judged {answer : Ref → Ref → Traced Bool}
    {plain : Ref → Ref → Except Fault Bool × List (List Ref)}
    (h : ∀ a b, (answer a b).outcome = judged (plain a b)) (c : Comparison) :
    (c.run answer).outcome = judged (c.trail plain) := by
  induction c with
  | done equal => rfl
  | fault cause => rfl
  | record entries next ih => exact ih
  | ask a b next ih =>
    rw [Comparison.run, Traced.outcome_bind, h, Comparison.trail]
    rcases hp : plain a b with ⟨cause | equal, left⟩
    · simp only [judged]
      split <;> rfl
    · simp only [judged, List.mem_append, or_and_right, exists_or]
      by_cases hv : ∃ visited ∈ left, Revisits visited
      · rw [if_pos hv, if_pos (Or.inl hv)]
        rfl
      · rw [if_neg hv]
        simp only [Except.bind, ih, judged, hv, false_or]

private theorem outcome_compareStep_of_judged {answer : Ref → Ref → Traced Bool}
    {plain : Ref → Ref → Except Fault Bool × List (List Ref)}
    (h : ∀ a b, (answer a b).outcome = judged (plain a b)) (a b : Ref) :
    (e.compareStep s answer a b).outcome = judged (e.trailStep s plain a b) := by
  rw [compareStep, trailStep, Traced.outcome_bind]
  cases hr : e.classifiers.resolveCommon s a b with
  | error cause => rfl
  | ok found =>
    cases found with
    | none => rfl
    | some type => exact outcome_run_of_judged h _

/-- A comparison is given up as circular exactly if, in a comparison at the depth where the watch
begins, some object comes twice. -/
theorem outcome_compare (levels : Nat) (a b : Ref) :
    (e.compare s levels a b).outcome = judged (e.trails s (s.bound + 1) levels a b) := by
  induction levels generalizing a b with
  | zero =>
    have h := outcome_compareTracked e s (s.bound + 1) a b []
    rw [compare, StateT.run', ← bind_pure_comp, Traced.outcome_bind]
    change ((e.compareTracked s (s.bound + 1) a b).run []).outcome.bind _ = _
    rw [h, judged, trails]
    simp only [watched, List.mem_singleton, exists_eq_left, revisits_iff]
    split
    · rfl
    · cases (e.unwatched s (s.bound + 1) a b).1 <;> rfl
  | succ levels ih => exact outcome_compareStep_of_judged e s ih a b

/-- The types of the engine compare values by size, keys and the like, and by their parts: for a
value of a type, its comparison asks about parts of that value only. -/
def AsksParts : Prop :=
  ∀ type ∈ e.classifiers.newestFirst, ∀ a b, type.identifies s a = .ok true →
    (type.behaviour.equal s a b).AsksFrom (s.parts a)

/-- Every value is of a type that finds it equal to itself if its parts are equal to themselves. -/
def Reflexive : Prop :=
  ∀ a, ∃ type, e.classifiers.resolveCommon s a a = .ok (some type) ∧
    (type.behaviour.equal s a a).Affirms

variable {e s}

private theorem asksFrom_of_resolveCommon (he : e.AsksParts s) {a b : Ref} {type : Classifier}
    (h : e.classifiers.resolveCommon s a b = .ok (some type)) :
    (type.behaviour.equal s a b).AsksFrom (s.parts a) := by
  obtain ⟨hmem, hident, -⟩ := ClassifierRegistry.identifies_of_firstCommon h
  exact he type hmem a b hident

private theorem trailStep_congr (he : e.AsksParts s) {α : Type}
    {answer answer' : Ref → Ref → Except Fault Bool × List α} {a : Ref}
    (h : ∀ x ∈ s.parts a, ∀ y, answer x y = answer' x y) (b : Ref) :
    e.trailStep s answer a b = e.trailStep s answer' a b := by
  unfold trailStep
  split
  · next hr => exact Comparison.trail_congr h (asksFrom_of_resolveCommon he hr)
  · rfl
  · rfl

private theorem trailStep_self (he : e.AsksParts s) (hself : e.Reflexive s) {α : Type}
    {answer : Ref → Ref → Except Fault Bool × List α} {a : Ref}
    (h : ∀ x ∈ s.parts a, (answer x x).1 = .ok true) : (e.trailStep s answer a a).1 = .ok true := by
  obtain ⟨type, hr, haffirms⟩ := hself a
  unfold trailStep
  rw [hr]
  exact Comparison.trail_of_affirms h (asksFrom_of_resolveCommon he hr) haffirms

/-- The comparison of a value whose parts end ends in its own time. -/
private theorem unwatched_eq (he : e.AsksParts s) {n fuel fuel' : Nat} (hn : n ≤ fuel)
    (hn' : n ≤ fuel') {a : Ref} (ha : s.Shallow n a) (b : Ref) :
    e.unwatched s fuel a b = e.unwatched s fuel' a b := by
  induction n generalizing fuel fuel' a b with
  | zero => exact absurd ha id
  | succ n ih =>
    obtain ⟨fuel, rfl⟩ := Nat.exists_eq_add_of_le' (Nat.lt_of_lt_of_le (Nat.zero_lt_succ n) hn)
    obtain ⟨fuel', rfl⟩ := Nat.exists_eq_add_of_le' (Nat.lt_of_lt_of_le (Nat.zero_lt_succ n) hn')
    have hstep : e.trailStep s (e.unwatched s fuel) a b =
        e.trailStep s (e.unwatched s fuel') a b :=
      trailStep_congr he (fun x hx y =>
        ih (Nat.le_of_succ_le_succ hn) (Nat.le_of_succ_le_succ hn') (ha x hx) y) b
    simp only [unwatched, hstep]

private theorem unwatched_self (he : e.AsksParts s) (hself : e.Reflexive s) {n fuel : Nat}
    (hn : n ≤ fuel) {a : Ref} (ha : s.Shallow n a) : (e.unwatched s fuel a a).1 = .ok true := by
  induction n generalizing fuel a with
  | zero => exact absurd ha id
  | succ n ih =>
    obtain ⟨fuel, rfl⟩ := Nat.exists_eq_add_of_le' (Nat.lt_of_lt_of_le (Nat.zero_lt_succ n) hn)
    exact trailStep_self he hself fun x hx => ih (Nat.le_of_succ_le_succ hn) (ha x hx)

private theorem trails_eq (he : e.AsksParts s) {fuel fuel' : Nat} (hfuel : s.cells.size < fuel)
    (hfuel' : s.cells.size < fuel') (levels : Nat) {a : Ref} (ha : s.Acyclic a) (b : Ref) :
    e.trails s fuel levels a b = e.trails s fuel' levels a b := by
  induction levels generalizing a b with
  | zero => simp only [trails, unwatched_eq he hfuel hfuel' ha.shallow b]
  | succ levels ih => exact trailStep_congr he (fun x hx y => ih (ha.of_holds hx) y) b

private theorem trails_self (he : e.AsksParts s) (hself : e.Reflexive s) {fuel : Nat}
    (hfuel : s.cells.size < fuel) (levels : Nat) {a : Ref} (ha : s.Acyclic a) :
    (e.trails s fuel levels a a).1 = .ok true := by
  induction levels generalizing a with
  | zero => exact unwatched_self he hself hfuel ha.shallow
  | succ levels ih => exact trailStep_self he hself fun x hx => ih (ha.of_holds hx)

/-- The comparison of an acyclic value is given up as circular exactly if some object comes twice
among the first values of a comparison one level below the greatest depth and of all comparisons
below that; otherwise it answers as without a watch, and an acyclic value equals itself. -/
theorem outcome_equal_of_acyclic (he : e.AsksParts s) {a : Ref} (ha : s.Acyclic a) {fuel : Nat}
    (hfuel : s.cells.size < fuel) :
    (∀ b, (e.equal s a b).outcome =
      if ∃ visited ∈ (e.trails s fuel (e.settings.maxCompareDepth + 1) a b).2, Revisits visited then
        .error .circular
      else (e.trails s fuel (e.settings.maxCompareDepth + 1) a b).1) ∧
    (e.Reflexive s → (e.trails s fuel (e.settings.maxCompareDepth + 1) a a).1 = .ok true) := by
  constructor
  · intro b
    have hbound : s.cells.size < s.bound + 1 := by
      unfold Store.bound
      omega
    rw [equal, outcome_compare, trails_eq he hbound hfuel _ ha b, judged]
  · intro hself
    exact trails_self he hself hfuel _ ha

private def listType : Classifier :=
  .derived "list"
    { Behaviour.universal with identify := Identify.kinds [.list], equal := Equal.items }
    .universal .universal

-- Lists are compared item by item, and every comparison below the first is watched.
private def watchful : Engine :=
  { Engine.create ⟨.text, 3, 0, 2, 100⟩ with classifiers := .ofList [listType, .universal] }

-- A list that holds a list of two ones.
private def nestedOnes : Store := ⟨#[.list [.small 1, .small 1], .list [.cell 0]], #[]⟩

private theorem identifies_listType (a : Ref) :
    listType.identifies nestedOnes a = .ok (decide ((nestedOnes.node a).kind = .list)) := by
  simp [listType, Classifier.identifies, Classifier.behaviour, Identify.kinds]

private theorem asksParts_watchful : watchful.AsksParts nestedOnes := by
  intro type htype a b hident
  rcases List.mem_cons.1 htype with rfl | htype
  · rw [identifies_listType, Except.ok.injEq, decide_eq_true_iff] at hident
    exact Comparison.asksFrom_items b (by simp [hident])
  · rcases List.mem_singleton.1 htype with rfl
    exact Comparison.asksFrom_universal _ _ _ _

private def rankOfCell : Ref → Nat
  | .cell address => address + 1
  | _ => 0

private theorem acyclic_nestedOnes : nestedOnes.Acyclic (.cell 1) := by
  refine Store.acyclic_of_rank rankOfCell fun a b h => ?_
  have ha : a ∈ [Ref.cell 0, Ref.cell 1] := Store.mem_cells_of_holds h
  simp only [List.mem_cons, List.not_mem_nil, or_false] at ha
  rcases ha with rfl | rfl
  · have hb : b ∈ [Ref.small 1, Ref.small 1] := h
    simp only [List.mem_cons, List.not_mem_nil, or_false, or_self] at hb
    subst hb
    decide
  · have hb : b ∈ [Ref.cell 0] := h
    rw [List.mem_singleton.1 hb]
    decide

private theorem reflexive_watchful : watchful.Reflexive nestedOnes := by
  intro a
  have hfirst : watchful.classifiers.resolveCommon nestedOnes a a =
      ClassifierRegistry.firstCommon nestedOnes a a [listType, .universal] := rfl
  rw [hfirst, ClassifierRegistry.firstCommon, identifies_listType]
  cases hn : nestedOnes.node a with
  | list items =>
    have helements : nestedOnes.elements a = .ok items := by simp [Store.elements, hn]
    exact ⟨listType, rfl, Comparison.affirms_items helements⟩
  | _ => exact ⟨.universal, rfl, Comparison.affirms_universal _ _⟩

/-- A list that holds a list of two ones is acyclic and equal to itself, but its comparison with
itself is given up as circular where every comparison below the first is watched. -/
theorem outcome_equal_nestedOnes :
    (watchful.equal nestedOnes (.cell 1) (.cell 1)).outcome = .error .circular ∧
      (watchful.trails nestedOnes 3 1 (.cell 1) (.cell 1)).1 = .ok true := by
  have hsize : nestedOnes.cells.size < 3 := by decide
  have h := outcome_equal_of_acyclic asksParts_watchful acyclic_nestedOnes hsize
  refine ⟨?_, h.2 reflexive_watchful⟩
  rw [h.1, if_pos]
  decide

end Engine

end Expectation

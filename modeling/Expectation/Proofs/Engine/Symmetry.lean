import Expectation.Proofs.Classifier.Symmetry
import Expectation.Proofs.Engine.Nesting
import Expectation.Proofs.Engine.Watch

/-!
# Comparisons one way and the other

If the types of an engine compare two values as they compare them the other way round, so does the
engine, as far as it answers. But the watch looks at first values only: it may give up a comparison
one way and not the other. Engines that compare sequences item by item and dictionaries by their
entries have such types.
-/

namespace Expectation

namespace Engine

/-- The types compare two values as they compare them the other way round, whenever the comparison
that they are given does. -/
def Symmetric (e : Engine) (s : Store) : Prop :=
  ∀ a b type, e.classifiers.resolveCommon s a b = .ok (some type) →
    ∀ test : Ref → Ref → Bool, (∀ x y, test x y = test y x) →
      ∀ equal, (type.behaviour.equal s a b).answer test = .ok equal →
        (type.behaviour.equal s b a).answer test = .ok equal

/-- The answer to a question, or else to the same question the other way round. -/
def eitherWay (answer : Ref → Ref → Except Fault Bool) (a b : Ref) : Bool :=
  match answer a b, answer b a with
  | .ok equal, _ => equal
  | .error _, .ok equal => equal
  | .error _, .error _ => false

variable {e : Engine} {s : Store} {a b : Ref}

private theorem eitherWay_of_ok {answer : Ref → Ref → Except Fault Bool} {equal : Bool}
    (h : answer a b = .ok equal) : eitherWay answer a b = equal := by
  rw [eitherWay, h]

private theorem eitherWay_comm {answer : Ref → Ref → Except Fault Bool}
    (h : ∀ a b equal equal', answer a b = .ok equal → answer b a = .ok equal' → equal' = equal)
    (a b : Ref) : eitherWay answer a b = eitherWay answer b a := by
  unfold eitherWay
  cases hab : answer a b with
  | error _ => cases answer b a <;> rfl
  | ok equal =>
    cases hba : answer b a with
    | error _ => rfl
    | ok equal' => exact (h a b equal equal' hab hba).symm

/-- Without a watch, two values are compared with the same answer one way and the other. -/
theorem outcome_compareFreely_swap (he : e.Symmetric s) {depth : Nat} {equal equal' : Bool}
    (h : (e.compareFreely s depth a b).outcome = .ok equal)
    (h' : (e.compareFreely s depth b a).outcome = .ok equal') : equal' = equal := by
  induction depth generalizing a b equal equal' with
  | zero => cases h
  | succ depth ih =>
    rw [compareFreely, compareStep, Traced.outcome_bind_eq_ok] at h h'
    obtain ⟨found, hfound, hanswer⟩ := h
    obtain ⟨found', hfound', hanswer'⟩ := h'
    obtain rfl := ClassifierRegistry.firstCommon_swap hfound hfound'
    cases found' with
    | none =>
      cases hanswer
      cases hanswer'
      rfl
    | some type =>
      -- The comparisons below answer alike where they answer both ways, so that taking the answer
      -- of either way makes a symmetric test of them.
      let test := eitherWay fun x y => (e.compareFreely s depth x y).outcome
      have htest : ∀ x y, test x y = test y x := eitherWay_comm fun _ _ _ _ => ih
      have hsame {c : Comparison} {answered : Bool}
          (hc : (c.run (e.compareFreely s depth)).outcome = .ok answered) :
          c.answer test = .ok answered :=
        Comparison.outcome_run_mono (fun hxy => congrArg Except.ok (eitherWay_of_ok hxy)) hc
      have hswap := he a b type hfound test htest equal (hsame hanswer)
      rw [hsame hanswer'] at hswap
      exact Except.ok.inj hswap

/-- Two values are not compared with different answers one way and the other. -/
theorem outcome_equal_swap_of_ok (he : e.Symmetric s) {equal equal' : Bool}
    (h : (e.equal s a b).outcome = .ok equal) (h' : (e.equal s b a).outcome = .ok equal') :
    equal' = equal := by
  obtain ⟨least, hleast⟩ := exists_compareFreely_of_compare h
  obtain ⟨least', hleast'⟩ := exists_compareFreely_of_compare h'
  exact outcome_compareFreely_swap he (hleast _ (Nat.le_max_left least least'))
    (hleast' _ (Nat.le_max_right least least'))

/-- A comparison by parts in which no type raises a fault is given up as circular if an object comes
again, and otherwise answers. -/
theorem exists_outcome_equal (he : e.ComparesParts s a b)
    (hnever : ∀ cause, ¬ e.RaisesBelow s a b cause) :
    ∃ equal, (e.equal s a b).outcome =
      if e.ComesAgain s a b then .error .circular else .ok equal := by
  by_cases hagain : e.ComesAgain s a b
  · exact ⟨false, by rw [outcome_equal_of_comesAgain hagain, if_pos hagain]⟩
  · rcases outcome_equal_of_not_comesAgain he hagain with
      ⟨equal, hequal⟩ | ⟨cause, -, hraises⟩
    · exact ⟨equal, by rw [hequal, if_neg hagain]⟩
    · exact absurd hraises (hnever cause)

/-- Where types are symmetric, two values are not compared with different answers one way and the
other. If they are compared by parts and no type raises a fault, one answer stands for both ways,
and each of them gives that answer unless some object comes again as a first value; only then is it
given up as circular. -/
theorem outcome_equal_swap (he : e.Symmetric s) :
    (∀ equal equal', (e.equal s a b).outcome = .ok equal → (e.equal s b a).outcome = .ok equal' →
      equal' = equal) ∧
    (e.ComparesParts s a b → e.ComparesParts s b a →
      (∀ cause, ¬ e.RaisesBelow s a b cause) → (∀ cause, ¬ e.RaisesBelow s b a cause) →
      ∃ equal,
        (e.equal s a b).outcome = (if e.ComesAgain s a b then .error .circular else .ok equal) ∧
        (e.equal s b a).outcome = if e.ComesAgain s b a then .error .circular else .ok equal) := by
  constructor
  · intro equal equal' h h'
    exact outcome_equal_swap_of_ok he h h'
  · intro hab hba hnever hnever'
    obtain ⟨equal, hequal⟩ := exists_outcome_equal hab hnever
    obtain ⟨equal', hequal'⟩ := exists_outcome_equal hba hnever'
    by_cases hagain : e.ComesAgain s a b
    · rw [if_pos hagain] at hequal
      exact ⟨equal', by rw [hequal, if_pos hagain], hequal'⟩
    · refine ⟨equal, hequal, ?_⟩
      by_cases hagain' : e.ComesAgain s b a
      · rw [hequal', if_pos hagain', if_pos hagain']
      · rw [if_neg hagain] at hequal
        rw [if_neg hagain'] at hequal' ⊢
        rw [hequal', outcome_equal_swap_of_ok he hequal hequal']

end Engine

namespace Structural

variable {settings : Settings} {s : Store} {a b : Ref}

private theorem exists_elements (h : (s.node a).kind ∈ [Kind.list, Kind.tuple]) :
    ∃ xs, s.elements a = .ok xs := by
  cases hn : s.node a with
  | list items | tuple items => exact ⟨items, by simp [Store.elements, hn]⟩
  | _ => simp [hn, Node.kind] at h

private theorem exists_entries (h : (s.node a).kind = .dict) : ∃ xs, s.node a = .dict xs := by
  cases hn : s.node a with
  | dict entries => exact ⟨entries, rfl⟩
  | _ => simp [hn, Node.kind] at h

/-- Two values are compared item by item, by their entries or by the universal type, and that only
if they are not containers of one kind. -/
theorem common_cases (s : Store) (a b : Ref) :
    ((common s Equal.items a b).behaviour.equal = Equal.items ∧
      (∃ xs, s.elements a = .ok xs) ∧ ∃ ys, s.elements b = .ok ys) ∨
    ((common s Equal.items a b).behaviour.equal = Equal.entries ∧
      (∃ xs, s.node a = .dict xs) ∧ ∃ ys, s.node b = .dict ys) ∨
    (common s Equal.items a b = .universal ∧ ¬ s.AreAlike a b) := by
  unfold common
  split_ifs with hlist htuple hdict
  · exact .inl ⟨rfl, exists_elements (by simp [hlist.1]), exists_elements (by simp [hlist.2])⟩
  · exact .inl ⟨rfl, exists_elements (by simp [htuple.1]), exists_elements (by simp [htuple.2])⟩
  · exact .inr (.inl ⟨rfl, exists_entries hdict.1, exists_entries hdict.2⟩)
  · refine .inr (.inr ⟨rfl, ?_⟩)
    rintro ⟨hkind, hmem⟩
    rw [hkind] at hlist htuple hdict hmem
    simp_all

/-- With texts for keys, an engine that compares sequences item by item and dictionaries by their
entries is symmetric. -/
theorem symmetric_engine (settings : Settings)
    (hkeys : ∀ r entries, s.node r = .dict entries → s.TextKeyed entries) :
    (engine settings Equal.items).Symmetric s := by
  intro a b type htype test htest equal h
  rw [resolveCommon_engine, Except.ok.injEq, Option.some.injEq] at htype
  subst htype
  rcases common_cases s a b with
    ⟨hitems, -⟩ | ⟨hentries, ⟨xs, hxs⟩, ys, hys⟩ | ⟨huniversal, halike⟩
  · rw [hitems] at h ⊢
    exact Comparison.answer_items_swap htest h
  · rw [hentries] at h ⊢
    rw [Comparison.answer_entries_swap hxs hys (hkeys a xs hxs) (hkeys b ys hys) htest]
    exact h
  · have halike' : ¬ s.AreAlike b a := fun hab => halike ⟨hab.1.symm, hab.1 ▸ hab.2⟩
    have hsame : (decide (b = a) || s.flatEqual b a) = (decide (a = b) || s.flatEqual a b) := by
      rw [Store.flatEqual_comm]
      simp only [eq_comm]
    rw [huniversal, Classifier.behaviour] at h ⊢
    rw [Comparison.universal_of_not_areAlike halike] at h
    rw [Comparison.universal_of_not_areAlike halike', hsame]
    exact h

/-- With texts for keys, no type of an engine that compares sequences item by item and dictionaries
by their entries raises a fault. -/
theorem not_raisesBelow_engine
    (hkeys : ∀ r entries, s.node r = .dict entries → s.TextKeyed entries) (cause : Fault) :
    ¬ (engine settings Equal.items).RaisesBelow s a b cause := by
  rintro ⟨x, -, y, -, ⟨type, hmem, hfault⟩ | ⟨type, htype, h⟩⟩
  · rcases hfault with hfault | hfault
    · exact identifies_engine_ne_error hmem x cause hfault
    · exact identifies_engine_ne_error hmem y cause hfault
  · rw [resolveCommon_engine, Except.ok.injEq, Option.some.injEq] at htype
    subst htype
    rcases common_cases s x y with
      ⟨hitems, ⟨xs, hxs⟩, ys, hys⟩ | ⟨hentries, ⟨xs, hxs⟩, ys, hys⟩ | ⟨huniversal, halike⟩
    · rw [hitems] at h
      exact Comparison.not_raises_items hxs hys cause h
    · rw [hentries] at h
      exact Comparison.not_raises_entries hxs hys (hkeys x xs hxs) (hkeys y ys hys) cause h
    · rw [huniversal, Classifier.behaviour, Comparison.universal_of_not_areAlike halike] at h
      exact h

-- The cells hold an empty list, two more of them, a list that holds the first one twice and one
-- that holds the others, and two dictionaries that hold these.
private def twins : Store :=
  ⟨#[.list [], .list [], .list [], .list [.cell 0, .cell 0], .list [.cell 1, .cell 2],
    .dict [(.char 'k', .cell 3)], .dict [(.char 'k', .cell 4)]], #[]⟩

private theorem textKeyed_twins (r : Ref) (entries : List (Ref × Ref))
    (h : twins.node r = .dict entries) : twins.TextKeyed entries := by
  have hsingle (value : Ref) : twins.TextKeyed [(.char 'k', value)] :=
    ⟨fun entry hentry => ⟨['k'], by rw [List.mem_singleton.1 hentry]; rfl⟩, List.nodup_singleton _⟩
  cases r with
  | cell address =>
    by_cases hfirst : address = 5
    · subst hfirst
      cases h
      exact hsingle _
    · by_cases hsecond : address = 6
      · subst hsecond
        cases h
        exact hsingle _
      · have hlists : ∀ i < 7, i ≠ 5 → i ≠ 6 → (twins.node (.cell i)).kind ≠ .dict := by decide
        by_cases hcell : address < 7
        · exact absurd (by rw [h]; rfl) (hlists address hcell hfirst hsecond)
        · have hnone : twins.node (.cell address) = .none := by
            simp [Store.node, twins, Nat.not_lt.1 hcell]
          rw [hnone] at h
          cases h
  | _ => cases h

/-- Two dictionaries are equal, of which one holds a list of two equal lists and the other a list of
one list twice. The other way round the comparison is given up as circular, since the one list comes
again as a first value. -/
theorem outcome_equal_twins :
    ((watchful Equal.items).equal twins (.cell 6) (.cell 5)).outcome = .ok true ∧
      ((watchful Equal.items).equal twins (.cell 5) (.cell 6)).outcome = .error .circular ∧
      ¬ (watchful Equal.items).ComesAgain twins (.cell 6) (.cell 5) ∧
      (watchful Equal.items).ComesAgain twins (.cell 5) (.cell 6) := by
  have hforth : ((watchful Equal.items).equal twins (.cell 6) (.cell 5)).outcome = .ok true := rfl
  have hback : ((watchful Equal.items).equal twins (.cell 5) (.cell 6)).outcome =
    .error .circular := rfl
  have hsymmetric : (watchful Equal.items).Symmetric twins :=
    symmetric_engine ⟨.text, 3, 0, 2, 100⟩ textKeyed_twins
  obtain ⟨equal, hequal, hequal'⟩ :=
    (Engine.outcome_equal_swap (a := .cell 6) (b := .cell 5) hsymmetric).2
      (comparesParts_items _ twins _ _) (comparesParts_items _ twins _ _)
      (not_raisesBelow_engine textKeyed_twins) (not_raisesBelow_engine textKeyed_twins)
  refine ⟨hforth, hback, fun hagain => ?_, ?_⟩
  · rw [if_pos hagain, hforth] at hequal
    cases hequal
  · by_contra hagain
    rw [if_neg hagain, hback] at hequal'
    cases hequal'

end Structural

end Expectation

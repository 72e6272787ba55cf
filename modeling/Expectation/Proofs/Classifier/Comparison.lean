import Expectation.Classifier.Standard
import Expectation.Proofs.Value.Containment

/-!
# Courses of comparisons

What a comparison asks about decides how it ends: two ways of answering that agree on what is asked
lead to the same answer. The standard comparisons ask about parts of the first value only, and find
a value equal to itself if its parts are.
-/

namespace Expectation

namespace Comparison

variable {α : Type}

/-- The answer of a comparison whose questions are answered by `answer`, and what the answers leave,
in order; a fault ends the comparison. -/
def trail (answer : Ref → Ref → Except Fault Bool × List α) :
    Comparison → Except Fault Bool × List α
  | done equal => (.ok equal, [])
  | fault cause => (.error cause, [])
  | record _ next => next.trail answer
  | ask a b next =>
    match answer a b with
    | (.ok equal, left) =>
      let rest := (next equal).trail answer
      (rest.1, left ++ rest.2)
    | (.error cause, left) => (.error cause, left)

/-- A comparison asks about first values from a list only. -/
def AsksFrom (parts : List Ref) : Comparison → Prop
  | done _ => True
  | fault _ => True
  | record _ next => next.AsksFrom parts
  | ask a _ next => a ∈ parts ∧ ∀ equal, (next equal).AsksFrom parts

/-- A comparison asks only about pairs of a value from one list and a value from another. -/
def AsksPairs (xs ys : List Ref) : Comparison → Prop
  | done _ => True
  | fault _ => True
  | record _ next => next.AsksPairs xs ys
  | ask a b next => a ∈ xs ∧ b ∈ ys ∧ ∀ equal, (next equal).AsksPairs xs ys

/-- A comparison may raise a fault by itself, whatever the answers to its questions. -/
def Raises (cause : Fault) : Comparison → Prop
  | done _ => False
  | fault raised => raised = cause
  | record _ next => next.Raises cause
  | ask _ _ next => ∃ equal, (next equal).Raises cause

/-- A comparison answers that the values are equal if every value it asks about equals itself. -/
def Affirms : Comparison → Prop
  | done equal => equal = true
  | fault _ => False
  | record _ next => next.Affirms
  | ask a b next => a = b ∧ (next true).Affirms

/-- Only the answers to the questions that are asked matter. -/
theorem trail_congr {parts : List Ref} {answer answer' : Ref → Ref → Except Fault Bool × List α}
    (h : ∀ a ∈ parts, ∀ b, answer a b = answer' a b) {c : Comparison} (hc : c.AsksFrom parts) :
    c.trail answer = c.trail answer' := by
  induction c with
  | done equal => rfl
  | fault cause => rfl
  | record entries next ih => exact ih hc
  | ask a b next ih =>
    simp only [trail]
    rw [h a hc.1 b]
    split
    · next equal _ _ => rw [ih equal (hc.2 equal)]
    · rfl

/-- Only the answers about the pairs that are asked about matter. -/
theorem run_congr {m : Type → Type} [Monad m] [MonadLiftT Traced m] {xs ys : List Ref}
    {answer answer' : Ref → Ref → m Bool} (h : ∀ a ∈ xs, ∀ b ∈ ys, answer a b = answer' a b)
    {c : Comparison} (hc : c.AsksPairs xs ys) : c.run answer = c.run answer' := by
  induction c with
  | done equal => rfl
  | fault cause => rfl
  | record entries next ih => rw [run, run, ih hc]
  | ask a b next ih =>
    rw [run, run, h a hc.1 b hc.2.1]
    congr
    funext equal
    exact ih equal (hc.2.2 equal)

/-- A fault of a comparison is one of its own or that of an answer, and then what the answer leaves
is left last. -/
theorem exists_of_trail_eq_error {xs ys : List Ref}
    {answer : Ref → Ref → Except Fault Bool × List α} {c : Comparison} (hc : c.AsksPairs xs ys)
    {cause : Fault} {left : List α} (h : c.trail answer = (.error cause, left)) :
    c.Raises cause ∨ ∃ x ∈ xs, ∃ y ∈ ys, ∃ last, answer x y = (.error cause, last) ∧
      last <:+ left := by
  induction c generalizing left with
  | done equal => cases h
  | fault raised =>
    cases h
    exact .inl rfl
  | record entries next ih => exact ih hc h
  | ask a b next ih =>
    obtain ⟨ha, hb, hnext⟩ := hc
    rw [trail] at h
    split at h
    · next equal first hanswer =>
      obtain ⟨hcause, rfl⟩ := Prod.mk.inj h
      rcases ih equal (hnext equal) (Prod.ext hcause rfl) with
        hraises | ⟨x, hx, y, hy, last, hlast, hsuffix⟩
      · exact .inl ⟨equal, hraises⟩
      · exact .inr ⟨x, hx, y, hy, last, hlast, hsuffix.trans (List.suffix_append _ _)⟩
    · next hanswer =>
      cases h
      exact .inr ⟨a, ha, b, hb, left, hanswer, List.suffix_rfl⟩

/-- A comparison of a value with itself finds it equal. -/
theorem trail_of_affirms {parts : List Ref} {answer : Ref → Ref → Except Fault Bool × List α}
    (h : ∀ a ∈ parts, (answer a a).1 = .ok true) {c : Comparison} (hc : c.AsksFrom parts)
    (ha : c.Affirms) : (c.trail answer).1 = .ok true := by
  induction c with
  | done equal => exact congrArg Except.ok ha
  | fault cause => exact absurd ha id
  | record entries next ih => exact ih hc ha
  | ask a b next ih =>
    obtain ⟨rfl, hnext⟩ := ha
    have hanswer := h a hc.1
    simp only [trail]
    split
    · next equal _ hx =>
      rw [hx] at hanswer
      cases hanswer
      exact ih true (hc.2 true) hnext
    · next cause _ hx =>
      rw [hx] at hanswer
      cases hanswer

/-- Pairs are compared by their first values. -/
theorem asksFrom_pairs {parts : List Ref} {pairs : List (Ref × Ref)}
    (h : ∀ pair ∈ pairs, pair.1 ∈ parts) : (Comparison.pairs pairs).AsksFrom parts := by
  induction pairs with
  | nil => exact trivial
  | cons pair pairs ih =>
    refine ⟨h pair List.mem_cons_self, fun equal => ?_⟩
    cases equal with
    | true => exact ih fun pair hpair => h pair (List.mem_cons_of_mem _ hpair)
    | false => exact trivial

/-- Pairs are asked about one by one. -/
theorem asksPairs_pairs {xs ys : List Ref} {pairs : List (Ref × Ref)}
    (h : ∀ pair ∈ pairs, pair.1 ∈ xs ∧ pair.2 ∈ ys) : (Comparison.pairs pairs).AsksPairs xs ys := by
  induction pairs with
  | nil => exact trivial
  | cons pair pairs ih =>
    obtain ⟨hx, hy⟩ := h pair List.mem_cons_self
    refine ⟨hx, hy, fun equal => ?_⟩
    cases equal with
    | true => exact ih fun pair hpair => h pair (List.mem_cons_of_mem _ hpair)
    | false => exact trivial

/-- Pairs of a value and itself are equal if the values equal themselves. -/
theorem affirms_pairs {pairs : List (Ref × Ref)} (h : ∀ pair ∈ pairs, pair.1 = pair.2) :
    (Comparison.pairs pairs).Affirms := by
  induction pairs with
  | nil => rfl
  | cons pair pairs ih =>
    exact ⟨h pair List.mem_cons_self, ih fun pair hpair => h pair (List.mem_cons_of_mem _ hpair)⟩

variable (s : Store) (a b : Ref)

/-- The universal comparison asks nothing. -/
theorem asksFrom_universal (parts : List Ref) :
    (Behaviour.universal.equal s a b).AsksFrom parts := by
  unfold Behaviour.universal
  dsimp only
  split <;> exact trivial

/-- The universal comparison asks nothing about any pair. -/
theorem asksPairs_universal (xs ys : List Ref) :
    (Behaviour.universal.equal s a b).AsksPairs xs ys := by
  unfold Behaviour.universal
  dsimp only
  split <;> exact trivial

/-- In the universal comparison every value equals itself. -/
theorem affirms_universal : (Behaviour.universal.equal s a a).Affirms := by
  simp [Behaviour.universal, Store.matching?, Affirms]

variable {s a}

/-- The elements of a container are parts of it. -/
theorem elements_subset_parts (h : (s.node a).kind ∈ [Kind.list, Kind.tuple, Kind.dict])
    {xs : List Ref} (hxs : s.elements a = .ok xs) : xs ⊆ s.parts a := by
  cases hn : s.node a with
  | list items | tuple items | dict entries =>
    simp only [Store.elements, hn, Except.ok.injEq] at hxs
    subst hxs
    simp [Store.parts, hn]
  | _ => simp [hn, Node.kind] at h

/-- Sequences are compared by their items, and dictionaries by their keys. -/
theorem asksFrom_items (h : (s.node a).kind ∈ [Kind.list, Kind.tuple, Kind.dict]) :
    (Equal.items s a b).AsksFrom (s.parts a) := by
  unfold Equal.items withElements
  split
  · next xs ys hxs _ =>
    dsimp only
    split
    · refine asksFrom_pairs fun pair hpair => elements_subset_parts h hxs ?_
      exact (List.of_mem_zip (a := pair.1) (b := pair.2) hpair).1
    · exact trivial
  · exact trivial
  · exact trivial

/-- Sequences are compared by their items at equal positions. -/
theorem asksPairs_items (ha : (s.node a).kind ∈ [Kind.list, Kind.tuple, Kind.dict])
    (hb : (s.node b).kind ∈ [Kind.list, Kind.tuple, Kind.dict]) :
    (Equal.items s a b).AsksPairs (s.parts a) (s.parts b) := by
  unfold Equal.items withElements
  split
  · next xs ys hxs hys =>
    dsimp only
    split
    · refine asksPairs_pairs fun pair hpair => ?_
      obtain ⟨hx, hy⟩ := List.of_mem_zip (a := pair.1) (b := pair.2) hpair
      exact ⟨elements_subset_parts ha hxs hx, elements_subset_parts hb hys hy⟩
    · exact trivial
  · exact trivial
  · exact trivial

private theorem mem_parts_of_element (h : (s.node a).kind ∈ [Kind.list, Kind.tuple])
    {position : Nat} {x : Ref} (hx : s.element a position = .ok x) : x ∈ s.parts a := by
  cases hn : s.node a with
  | list items | tuple items =>
    simp only [Store.element, hn, Store.elements] at hx
    split at hx
    · next item hitem =>
      cases hx
      simp only [Store.parts, hn]
      exact List.mem_of_getElem? hitem
    · cases hx
  | _ => simp [hn, Node.kind] at h

/-- Sequences are compared by their first items. -/
theorem asksPairs_first (ha : (s.node a).kind ∈ [Kind.list, Kind.tuple])
    (hb : (s.node b).kind ∈ [Kind.list, Kind.tuple]) :
    (Equal.first s a b).AsksPairs (s.parts a) (s.parts b) := by
  unfold Equal.first
  split
  · next x y hx hy =>
    exact ⟨mem_parts_of_element ha hx, mem_parts_of_element hb hy, fun _ => trivial⟩
  · exact trivial
  · exact trivial

/-- A sequence equals itself if its items do. -/
theorem affirms_items {xs : List Ref} (h : s.elements a = .ok xs) :
    (Equal.items s a a).Affirms := by
  unfold Equal.items withElements
  rw [h]
  dsimp only
  rw [if_pos rfl]
  refine affirms_pairs fun pair hpair => ?_
  obtain ⟨i, hi, rfl⟩ := List.getElem_of_mem hpair
  rw [List.getElem_zip]

private theorem mem_values_of_findEntry {matching : Ref → Option Bool} {entries : List (Ref × Ref)}
    {value : Ref} (h : Store.findEntry matching entries = some (some value)) :
    value ∈ entries.map Prod.snd := by
  induction entries with
  | nil => cases h
  | cons entry entries ih =>
    rw [Store.findEntry] at h
    split at h
    · cases h
      exact List.mem_cons_self
    · exact List.mem_cons_of_mem _ (ih h)
    · cases h

private theorem mem_values_of_entryPairs {others entries : List (Ref × Ref)}
    {pairs : List (Ref × Ref)} (h : entryPairs s others entries = .ok (some pairs))
    {pair : Ref × Ref} (hpair : pair ∈ pairs) :
    pair.1 ∈ entries.map Prod.snd ∧ pair.2 ∈ others.map Prod.snd := by
  induction entries generalizing pairs with
  | nil =>
    cases h
    cases hpair
  | cons entry entries ih =>
    rw [entryPairs] at h
    split at h
    · cases h
    · cases h
    · next hother =>
      split at h
      · next rest? hrest =>
        cases rest? with
        | none => cases h
        | some rest =>
          cases h
          rcases List.mem_cons.1 hpair with rfl | hpair
          · exact ⟨List.mem_cons_self, mem_values_of_findEntry hother⟩
          · obtain ⟨hvalue, hother⟩ := ih hrest hpair
            exact ⟨List.mem_cons_of_mem _ hvalue, hother⟩
      · cases h

/-- Dictionaries are compared by pairs of their values. -/
theorem asksPairs_entries : (Equal.entries s a b).AsksPairs (s.parts a) (s.parts b) := by
  unfold Equal.entries
  split
  · next xs ys hxs hys =>
    split
    · split
      · next pairs hpairs =>
        refine asksPairs_pairs fun pair hpair => ?_
        obtain ⟨hvalue, hother⟩ := mem_values_of_entryPairs hpairs hpair
        simp only [Store.parts, hxs, hys, List.mem_append]
        exact ⟨.inr hvalue, .inr hother⟩
      · exact trivial
      · exact trivial
    · exact trivial
  · exact trivial

end Comparison

end Expectation

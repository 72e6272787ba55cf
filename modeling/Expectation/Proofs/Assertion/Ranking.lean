import Mathlib.Data.List.Basic
import Expectation.Classifier.Standard
import Expectation.Proofs.Assertion.Suggestion

/-!
# Ranking of names

The types that are visited offer their names, oldest type first. An offer is worth the bonus of its
type less the edits that lead to the name; the bonus of a type that identifies the subject is the
number of types before it that do, and any other has none. What is suggested is the first offer of
the greatest worth.
-/

namespace Expectation

/-- The type answers that a value is of it. -/
def Classifier.accepts (type : Classifier) (s : Store) (value : Ref) : Bool :=
  match type.identifies s value with
  | .ok answer => answer
  | .error _ => false

theorem Classifier.accepts_of_identifies {type : Classifier} {s : Store} {value : Ref}
    {answer : Bool} (h : type.identifies s value = .ok answer) :
    type.accepts s value = answer := by
  rw [accepts, h]

/-- The first item of the greatest worth: items before it are worth less, items after it are not
worth more. -/
def FirstBest {α : Type} (worth : α → Int) (items : List α) (best : α) : Prop :=
  ∃ before after, items = before ++ best :: after ∧
    (∀ item ∈ before, worth item < worth best) ∧ ∀ item ∈ after, worth item ≤ worth best

namespace FirstBest

variable {α β : Type} {worth : α → Int} {items : List α} {best item : α}

/-- No item is worth more than the best. -/
theorem worth_le (h : FirstBest worth items best) (hitem : item ∈ items) :
    worth item ≤ worth best := by
  obtain ⟨before, after, rfl, hbefore, hafter⟩ := h
  rcases List.mem_append.1 hitem with hmem | hmem
  · exact Int.le_of_lt (hbefore item hmem)
  · rcases List.mem_cons.1 hmem with rfl | hmem
    · exact Int.le_refl _
    · exact hafter item hmem

/-- The best is one of the items. -/
theorem mem (h : FirstBest worth items best) : best ∈ items := by
  obtain ⟨before, after, rfl, -, -⟩ := h
  simp

/-- An item that is worth less may come first. -/
theorem cons (h : FirstBest worth items best) (hitem : worth item < worth best) :
    FirstBest worth (item :: items) best := by
  obtain ⟨before, after, rfl, hbefore, hafter⟩ := h
  exact ⟨item :: before, after, rfl, List.forall_mem_cons.2 ⟨hitem, hbefore⟩, hafter⟩

/-- An item that is not worth more than the first may come second. -/
theorem cons_cons {first : α} (h : FirstBest worth (first :: items) best)
    (hitem : worth item ≤ worth first) : FirstBest worth (first :: item :: items) best := by
  obtain ⟨before, after, heq, hbefore, hafter⟩ := h
  cases before with
  | nil =>
    cases heq
    exact ⟨[], item :: items, rfl, by simp, List.forall_mem_cons.2 ⟨hitem, hafter⟩⟩
  | cons other before =>
    cases heq
    obtain ⟨hfirst, hbefore⟩ := List.forall_mem_cons.1 hbefore
    refine ⟨first :: item :: before, after, rfl, ?_, hafter⟩
    exact List.forall_mem_cons.2 ⟨hfirst, List.forall_mem_cons.2 ⟨by omega, hbefore⟩⟩

/-- The best among images is the image of the best. -/
theorem exists_of_map {worth : β → Int} {f : α → β} {found : β}
    (h : FirstBest worth (items.map f) found) :
    ∃ best, f best = found ∧ FirstBest (fun item => worth (f item)) items best := by
  obtain ⟨before, after, heq, hbefore, hafter⟩ := h
  obtain ⟨front, rest, rfl, rfl, hrest⟩ := List.map_eq_append_iff.1 heq
  obtain ⟨best, back, rfl, rfl, rfl⟩ := List.map_eq_cons_iff.1 hrest
  exact ⟨best, rfl, front, back, rfl, fun item hitem => hbefore _ (List.mem_map_of_mem hitem),
    fun item hitem => hafter _ (List.mem_map_of_mem hitem)⟩

end FirstBest

/-- A name of a type that is visited. -/
structure Offer where
  earlier : List Classifier
  type : Classifier
  name : Text

namespace Offer

variable {s : Store} {subject : Ref} {asked : Text} {assertions : AssertionRegistry}

/-- The names of some types, behind earlier ones: type after type, and those of one type in the
order in which they were registered. -/
def inTurn (assertions : AssertionRegistry) :
    (earlier : List Classifier) → List Classifier → List Offer
  | _, [] => []
  | earlier, type :: types =>
    (assertions.names type.name).map (fun name => ⟨earlier, type, name⟩) ++
      inTurn assertions (earlier ++ [type]) types

/-- How many types before it identify the subject, if the type itself does. -/
def bonus (o : Offer) (s : Store) (subject : Ref) : Nat :=
  if o.type.accepts s subject then o.earlier.countP (·.accepts s subject) else 0

/-- The bonus less the edits that lead from the name asked for. -/
def score (s : Store) (subject : Ref) (asked : Text) (o : Offer) : Int :=
  (o.bonus s subject : Int) - Text.editDistance asked o.name

/-- A name is offered in the place of its type among the visited ones. -/
theorem exists_of_mem_inTurn {o : Offer} {earlier types : List Classifier}
    (h : o ∈ inTurn assertions earlier types) :
    ∃ before after, types = before ++ o.type :: after ∧ o.earlier = earlier ++ before := by
  induction types generalizing earlier with
  | nil => cases h
  | cons type types ih =>
    rcases List.mem_append.1 h with hmem | hmem
    · obtain ⟨name, -, rfl⟩ := List.mem_map.1 hmem
      exact ⟨[], types, rfl, (List.append_nil earlier).symm⟩
    · obtain ⟨before, after, rfl, hearlier⟩ := ih hmem
      refine ⟨type :: before, after, rfl, ?_⟩
      rw [hearlier, List.append_assoc]
      rfl

/-- The candidates are the offers with their scores, unless a type faults. -/
theorem ofTypes_of_answers (asked : Text) (assertions : AssertionRegistry)
    (earlier : List Classifier) {types : List Classifier}
    (h : ∀ type ∈ types, ∃ answer, type.identifies s subject = .ok answer) :
    Candidate.ofTypes s subject asked assertions (earlier.countP (·.accepts s subject)) types =
      .ok ((inTurn assertions earlier types).map fun o => ⟨o.name, o.score s subject asked⟩) := by
  induction types generalizing earlier with
  | nil => rfl
  | cons type types ih =>
    obtain ⟨⟨answer, hanswer⟩, hrest⟩ := List.forall_mem_cons.1 h
    have haccepts := Classifier.accepts_of_identifies hanswer
    have hnext : (if answer then earlier.countP (·.accepts s subject) + 1
        else earlier.countP (·.accepts s subject)) =
          (earlier ++ [type]).countP (·.accepts s subject) := by
      cases answer <;> simp [haccepts]
    simp only [Candidate.ofTypes, hanswer, Bind.bind, Except.bind, hnext, ih _ hrest]
    simp [inTurn, Candidate.ofNames, score, bonus, haccepts, Function.comp_def, Pure.pure,
      Except.pure]

/-- The first type that faults ends the search for candidates. -/
theorem ofTypes_of_fault {earlier later : List Classifier} {type : Classifier} {cause : Fault}
    (h : ∀ other ∈ earlier, ∃ answer, other.identifies s subject = .ok answer)
    (htype : type.identifies s subject = .error cause) (identifying : Nat) :
    Candidate.ofTypes s subject asked assertions identifying (earlier ++ type :: later) =
      .error cause := by
  induction earlier generalizing identifying with
  | nil => simp [Candidate.ofTypes, htype, Bind.bind, Except.bind]
  | cons other earlier ih =>
    obtain ⟨⟨answer, hanswer⟩, hrest⟩ := List.forall_mem_cons.1 h
    simp [Candidate.ofTypes, hanswer, ih hrest, Bind.bind, Except.bind]

/-- An offer of a type that identifies the subject, with a type before it that does, has a
bonus. -/
theorem bonus_pos {o : Offer} {other : Classifier} (ho : o.type.accepts s subject = true)
    (hmem : other ∈ o.earlier) (hother : other.accepts s subject = true) :
    0 < o.bonus s subject := by
  rw [bonus, if_pos ho]
  exact List.countP_pos_iff.2 ⟨other, hmem, hother⟩

/-- An offer of the type that is visited first, or of one that does not identify the subject, has no
bonus. -/
theorem bonus_eq_zero {o : Offer}
    (h : o.earlier = [] ∨ o.type.identifies s subject ≠ .ok true) : o.bonus s subject = 0 := by
  rcases h with holdest | hother
  · simp [bonus, holdest]
  · have hrejects : o.type.accepts s subject = false := by
      unfold Classifier.accepts
      split
      · next answer hanswer => cases answer <;> simp_all
      · rfl
    simp [bonus, hrejects]

/-- The type that is visited first is visited before every other. -/
theorem first_mem_earlier {o : Offer} {first : Classifier} {types : List Classifier}
    (h : o ∈ inTurn assertions [] (first :: types)) (hother : o.type ≠ first) :
    first ∈ o.earlier := by
  obtain ⟨before, after, hvisited, hearlier⟩ := exists_of_mem_inTurn h
  rw [hearlier, List.nil_append]
  cases before with
  | nil => exact absurd (List.cons.inj hvisited).1.symm hother
  | cons other before =>
    rw [(List.cons.inj hvisited).1]
    exact List.mem_cons_self

/-- Of two types that identify the subject the one that is visited later has the greater bonus. -/
theorem bonus_lt_bonus {o o' : Offer} {types : List Classifier}
    (ho : o ∈ inTurn assertions [] types) (ho' : o' ∈ inTurn assertions [] types)
    (haccepts : o.type.accepts s subject = true) (haccepts' : o'.type.accepts s subject = true)
    (hlater : o'.earlier.length < o.earlier.length) :
    o'.bonus s subject < o.bonus s subject := by
  obtain ⟨before, after, htypes, hearlier⟩ := exists_of_mem_inTurn ho
  obtain ⟨before', after', htypes', hearlier'⟩ := exists_of_mem_inTurn ho'
  rw [List.nil_append] at hearlier hearlier'
  subst hearlier hearlier'
  -- What was visited up to the older type was visited before the newer one.
  have hshort : o'.earlier ++ [o'.type] <+: types :=
    ⟨after', by rw [htypes', List.append_assoc]; rfl⟩
  have hlong : o.earlier <+: types := ⟨o.type :: after, htypes.symm⟩
  have hvisited : o'.earlier ++ [o'.type] <+: o.earlier := by
    apply List.prefix_of_prefix_length_le hshort hlong
    rw [List.length_append]
    exact hlater
  have hcount := hvisited.sublist.countP_le (p := (·.accepts s subject))
  rw [bonus, bonus, if_pos haccepts, if_pos haccepts']
  simp only [List.countP_append, List.countP_singleton, haccepts', if_true] at hcount
  omega

/-- Of two names that are as many edits away the one with the greater bonus is the better. -/
theorem score_lt_score {o o' : Offer}
    (hdistance : Text.editDistance asked o.name = Text.editDistance asked o'.name)
    (hbonus : o'.bonus s subject < o.bonus s subject) :
    o'.score s subject asked < o.score s subject asked := by
  rw [score, score, hdistance]
  omega

end Offer

namespace Candidate

/-- The one that is kept is the first of the best. -/
theorem firstBest_foldl (first : Candidate) (candidates : List Candidate) :
    ∃ best, candidates.foldl better (some first) = some best ∧
      FirstBest score (first :: candidates) best := by
  induction candidates generalizing first with
  | nil => exact ⟨first, rfl, [], [], rfl, by simp, by simp⟩
  | cons candidate candidates ih =>
    rw [List.foldl_cons, better]
    split
    · next hbetter =>
      obtain ⟨best, hfold, hbest⟩ := ih candidate
      have hle := hbest.worth_le List.mem_cons_self
      exact ⟨best, hfold, hbest.cons (by omega)⟩
    · next hworse =>
      obtain ⟨best, hfold, hbest⟩ := ih first
      exact ⟨best, hfold, hbest.cons_cons (by omega)⟩

/-- The first best of some candidates is the first of the greatest score. -/
theorem firstBest_of_eq_some {candidates : List Candidate} {best : Candidate}
    (h : firstBest candidates = some best) : FirstBest score candidates best := by
  cases candidates with
  | nil => cases h
  | cons first candidates =>
    obtain ⟨found, hfold, hfound⟩ := firstBest_foldl first candidates
    have hsame : some found = some best := hfold.symm.trans h
    cases hsame
    exact hfound

end Candidate

/-- The names that the types of a registry offer, oldest type first. -/
def ClassifierRegistry.offers (types : ClassifierRegistry) (assertions : AssertionRegistry) :
    List Offer :=
  Offer.inTurn assertions [] types.newestFirst.reverse

/-- Where no type faults, the name of the first best offer is suggested. -/
theorem suggest_of_answers {s : Store} {subject : Ref} (asked : Text) {types : ClassifierRegistry}
    (assertions : AssertionRegistry)
    (h : ∀ type ∈ types.newestFirst, ∃ answer, type.identifies s subject = .ok answer) :
    suggest s subject asked types assertions =
      .ok ((Candidate.firstBest ((types.offers assertions).map fun o =>
        ⟨o.name, o.score s subject asked⟩)).map Candidate.name) := by
  have hvisited : ∀ type ∈ types.newestFirst.reverse,
      ∃ answer, type.identifies s subject = .ok answer :=
    fun type hmem => h type (List.mem_reverse.1 hmem)
  have hcandidates := Offer.ofTypes_of_answers asked assertions [] hvisited
  rw [List.countP_nil] at hcandidates
  rw [suggest, hcandidates]
  rfl

/-- The types are visited oldest first. The first of them that faults for the subject ends the
search with its fault. If none does, no name is suggested exactly if no type has one, and else that
of the first offer with the greatest score. So, where the universal type is the oldest, of two names
that are as many edits away the one on a type that identifies the subject and is not universal beats
the one on the universal type or on a type that does not identify the subject, and of two types that
do the newer one wins. -/
theorem suggest_eq_firstBest (s : Store) (subject : Ref) (asked : Text)
    (types : ClassifierRegistry) (assertions : AssertionRegistry) :
    (∀ earlier type later cause, types.newestFirst.reverse = earlier ++ type :: later →
      (∀ other ∈ earlier, ∃ answer, other.identifies s subject = .ok answer) →
      type.identifies s subject = .error cause →
        suggest s subject asked types assertions = .error cause) ∧
    ((∀ type ∈ types.newestFirst, ∃ answer, type.identifies s subject = .ok answer) →
      ∃ suggestion, suggest s subject asked types assertions = .ok suggestion ∧
        (suggestion = none ↔ ∀ type ∈ types.newestFirst, assertions.names type.name = []) ∧
        ∀ name, suggestion = some name → ∃ best, best.name = name ∧
          FirstBest (Offer.score s subject asked) (types.offers assertions) best) ∧
    ∀ derived, types.newestFirst = derived ++ [.universal] →
      ∀ o ∈ types.offers assertions, ∀ o' ∈ types.offers assertions,
        Text.editDistance asked o.name = Text.editDistance asked o'.name →
        o.type.identifies s subject = .ok true →
          (o.type ≠ .universal →
            o'.earlier = [] ∨ o'.type.identifies s subject ≠ .ok true →
              o'.score s subject asked < o.score s subject asked) ∧
          (o'.type.identifies s subject = .ok true → o'.earlier.length < o.earlier.length →
            o'.score s subject asked < o.score s subject asked) := by
  refine ⟨?_, ?_, ?_⟩
  · intro earlier type later cause hvisited hearlier htype
    rw [suggest, hvisited, Offer.ofTypes_of_fault hearlier htype]
    rfl
  · intro hanswers
    have hsuggest := suggest_of_answers asked assertions hanswers
    refine ⟨_, hsuggest, suggest_eq_none_iff hsuggest, fun name hname => ?_⟩
    obtain ⟨found, hfound, rfl⟩ := Option.map_eq_some_iff.1 hname
    obtain ⟨best, rfl, hbest⟩ := (Candidate.firstBest_of_eq_some hfound).exists_of_map
    exact ⟨best, rfl, hbest⟩
  · intro derived hroot o ho o' ho' hdistance htype
    have haccepts := Classifier.accepts_of_identifies htype
    constructor
    · intro hderived hbeaten
      rw [ClassifierRegistry.offers, hroot, List.reverse_append] at ho
      have huniversal := Offer.first_mem_earlier ho hderived
      apply Offer.score_lt_score hdistance
      rw [Offer.bonus_eq_zero hbeaten]
      exact Offer.bonus_pos haccepts huniversal rfl
    · intro htype' hlater
      apply Offer.score_lt_score hdistance
      exact Offer.bonus_lt_bonus ho ho' haccepts (Classifier.accepts_of_identifies htype') hlater

private def typeBy (name : Text) (identify : Identify) : Classifier :=
  Definition.derive ⟨name, none, some ⟨.given 0, identify⟩, none, none, none⟩ .universal

-- A type of every value, on which `b` is registered, while `a` is on the universal type.
private def twoTypes : ClassifierRegistry := .ofList [typeBy ['p'] (.constant true), .universal]

private def twoNames : AssertionRegistry :=
  ((AssertionRegistry.initial.addType ['p']).addRule Classifier.universalName ['a']
    ⟨0, .empty, ['a']⟩).addRule ['p'] ['b'] ⟨0, .empty, ['b']⟩

private theorem offers_twoTypes : twoTypes.offers twoNames =
    [⟨[], .universal, ['a']⟩, ⟨[.universal], typeBy ['p'] (.constant true), ['b']⟩] := rfl

/-- Of two names that are one edit away the one on the more special type is suggested. -/
theorem suggest_twoTypes : suggest .empty .none ['c'] twoTypes twoNames = .ok (some ['b']) := by
  obtain ⟨-, hanswers, hranks⟩ := suggest_eq_firstBest .empty .none ['c'] twoTypes twoNames
  have hall : ∀ type ∈ twoTypes.newestFirst,
      ∃ answer, type.identifies .empty .none = .ok answer :=
    List.forall_mem_cons.2 ⟨⟨true, rfl⟩, List.forall_mem_singleton.2 ⟨true, rfl⟩⟩
  obtain ⟨suggestion, hsuggest, hnone, hbest⟩ := hanswers hall
  rw [hsuggest]
  cases suggestion with
  | none =>
    have hempty := hnone.1 rfl .universal (List.mem_cons_of_mem _ List.mem_cons_self)
    cases hempty
  | some name =>
    obtain ⟨best, rfl, hfirst⟩ := hbest name rfl
    have hspecial : (⟨[.universal], typeBy ['p'] (.constant true), ['b']⟩ : Offer) ∈
        twoTypes.offers twoNames := List.mem_cons_of_mem _ List.mem_cons_self
    have hmem := hfirst.mem
    rw [offers_twoTypes] at hmem
    rcases List.mem_cons.1 hmem with rfl | hmem
    · have hbeaten := (hranks [typeBy ['p'] (.constant true)] rfl _ hspecial _ hfirst.mem rfl
        rfl).1 (by simp [typeBy, Definition.derive]) (.inl rfl)
      have hle := hfirst.worth_le hspecial
      omega
    · rw [List.mem_singleton.1 hmem]

/-- No type that is visited has a name, and yet the search for a name to suggest does not come back
without one, as a type faults. -/
theorem suggest_faultyType :
    (∀ type ∈ (ClassifierRegistry.ofList
        [typeBy ['o'] (.faulty (.raised "RuntimeError" "broken")), .universal]).newestFirst,
      AssertionRegistry.initial.names type.name = []) ∧
    suggest .empty .none ['x'] (ClassifierRegistry.ofList
        [typeBy ['o'] (.faulty (.raised "RuntimeError" "broken")), .universal]) .initial ≠
      .ok none := by
  constructor
  · exact List.forall_mem_cons.2 ⟨rfl, List.forall_mem_singleton.2 rfl⟩
  · intro h
    cases h

end Expectation

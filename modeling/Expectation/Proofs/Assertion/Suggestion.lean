import Expectation.Assertion.Suggestion

/-!
# Suggested names

A name is suggested if any name is registered for one of the types that are visited, and then it is
one of these.
-/

namespace Expectation

namespace Candidate

variable {s : Store} {subject : Ref} {asked : Text} {assertions : AssertionRegistry}

/-- The candidates are the names of the types, whatever their scores. -/
theorem names_of_ofTypes {identifying : Nat} {types : List Classifier}
    {candidates : List Candidate}
    (h : ofTypes s subject asked assertions identifying types = .ok candidates) :
    candidates.map name = types.flatMap fun type => assertions.names type.name := by
  induction types generalizing identifying candidates with
  | nil =>
    cases h
    rfl
  | cons type types ih =>
    cases htype : type.identifies s subject with
    | error cause => simp [ofTypes, htype, Bind.bind, Except.bind] at h
    | ok identified =>
      simp only [ofTypes, htype, Bind.bind, Except.bind] at h
      split at h
      · cases h
      · next others hothers =>
        cases h
        rw [List.map_append, ih hothers, List.flatMap_cons, ofNames, List.map_map]
        exact congrArg (· ++ _) (List.map_id _)

/-- The best of some candidates is the one to beat or one of them. -/
theorem mem_of_foldl_better {best : Option Candidate} {candidates : List Candidate}
    {found : Candidate} (h : candidates.foldl better best = some found) :
    best = some found ∨ found ∈ candidates := by
  induction candidates generalizing best with
  | nil => exact Or.inl h
  | cons candidate candidates ih =>
    rcases ih h with hbest | hmem
    · unfold better at hbest
      split at hbest
      · cases hbest
        exact Or.inr List.mem_cons_self
      · split at hbest
        · cases hbest
          exact Or.inr List.mem_cons_self
        · exact Or.inl hbest
    · exact Or.inr (List.mem_cons_of_mem _ hmem)

/-- Where there is one to beat, or any candidate, there is a best one. -/
theorem isSome_foldl_better {best : Option Candidate} {candidates : List Candidate} :
    (candidates.foldl better best).isSome ↔ best.isSome ∨ candidates ≠ [] := by
  induction candidates generalizing best with
  | nil => simp
  | cons candidate candidates ih =>
    have hbetter : (better best candidate).isSome := by
      unfold better
      split
      · rfl
      · split <;> rfl
    rw [List.foldl_cons, ih]
    simp [hbetter]

end Candidate

variable {s : Store} {subject : Ref} {asked : Text} {types : ClassifierRegistry}
  {assertions : AssertionRegistry} {suggestion : Option Text}

/-- What is suggested is the best of the candidates. -/
theorem suggest_eq_ok (h : suggest s subject asked types assertions = .ok suggestion) :
    ∃ candidates, suggestion = (Candidate.firstBest candidates).map Candidate.name ∧
      candidates.map Candidate.name =
        types.newestFirst.reverse.flatMap fun type => assertions.names type.name := by
  unfold suggest at h
  cases hcandidates : Candidate.ofTypes s subject asked assertions 0 types.newestFirst.reverse with
  | error cause => simp [hcandidates, Bind.bind, Except.bind] at h
  | ok candidates =>
    simp only [hcandidates, Bind.bind, Except.bind, pure, Except.pure, Except.ok.injEq] at h
    exact ⟨candidates, h.symm, Candidate.names_of_ofTypes hcandidates⟩

/-- A suggested name is registered for a type. -/
theorem exists_of_suggest {name : Text}
    (h : suggest s subject asked types assertions = .ok (some name)) :
    ∃ type ∈ types.newestFirst, name ∈ assertions.names type.name := by
  obtain ⟨candidates, hsuggestion, hnames⟩ := suggest_eq_ok h
  obtain ⟨found, hbest, rfl⟩ := Option.map_eq_some_iff.1 hsuggestion.symm
  have hmem : found ∈ candidates := by
    rcases Candidate.mem_of_foldl_better hbest with hnone | hmem
    · cases hnone
    · exact hmem
  have hname := List.mem_map_of_mem (f := Candidate.name) hmem
  rw [hnames] at hname
  obtain ⟨type, htype, hname⟩ := List.mem_flatMap.1 hname
  exact ⟨type, List.mem_reverse.1 htype, hname⟩

/-- No name is suggested exactly if no type has a name. -/
theorem suggest_eq_none_iff (h : suggest s subject asked types assertions = .ok suggestion) :
    suggestion = none ↔ ∀ type ∈ types.newestFirst, assertions.names type.name = [] := by
  obtain ⟨candidates, hsuggestion, hnames⟩ := suggest_eq_ok h
  calc suggestion = none
    _ ↔ Candidate.firstBest candidates = none := by rw [hsuggestion, Option.map_eq_none_iff]
    _ ↔ candidates = [] := by
      rw [← Option.not_isSome_iff_eq_none, Candidate.firstBest, Candidate.isSome_foldl_better]
      simp
    _ ↔ candidates.map Candidate.name = [] := List.map_eq_nil_iff.symm
    _ ↔ ∀ type ∈ types.newestFirst, assertions.names type.name = [] := by
      rw [hnames]
      simp

end Expectation

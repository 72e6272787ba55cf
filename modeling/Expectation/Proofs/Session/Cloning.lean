import Expectation.Proofs.Engine.Cloning

/-!
# Clones in a session

From when it is cloned an engine and its clone are two engines of the session. Each receives the
calls that are made to it and sees nothing of those made to the other, in whatever order they come.
-/

namespace Expectation

/-- The entries for one engine, of entries for several. -/
def forEngine {α : Type} (id : EngineId) (entries : List (EngineId × α)) : List α :=
  (entries.filter (·.1 = id)).map Prod.snd

@[simp] theorem forEngine_cons {α : Type} (id other : EngineId) (entry : α)
    (entries : List (EngineId × α)) :
    forEngine id ((other, entry) :: entries) =
      if other = id then entry :: forEngine id entries else forEngine id entries := by
  by_cases h : other = id <;> simp [forEngine, h]

namespace Session

variable {σ : Session} {id other : EngineId}

/-- The session with other values. -/
def withStore (σ : Session) (s : Store) : Session := { σ with store := s }

@[simp] theorem engines_withStore (σ : Session) (s : Store) :
    (σ.withStore s).engines = σ.engines := rfl

/-- To replace an engine by itself changes nothing. -/
theorem withEngine_engineAt (σ : Session) (id : EngineId) :
    σ.withEngine id (σ.engineAt id) = σ := by
  have hsame : σ.engines.setIfInBounds id (σ.engineAt id) = σ.engines := by
    apply Array.ext
    · simp
    · intro i _ h
      rw [Array.getElem_setIfInBounds (by simpa using h)]
      split
      · next heq =>
        subst heq
        simp [engineAt, h]
      · rfl
  rw [withEngine, hsame]

/-- The session with a clone of an engine as a further one, under a name. -/
def cloned (σ : Session) (id : EngineId) (name : Text) : Session :=
  { σ with
    engines := σ.engines.push (σ.engineAt id).clone
    engineNames := σ.engineNames.set name σ.engines.size }

/-- An engine stays as it is where another is cloned or itself. -/
theorem engineAt_cloned_of_lt {name : Text} (h : other < σ.engines.size) :
    (σ.cloned id name).engineAt other = σ.engineAt other := by
  simp [engineAt, cloned, Array.getElem?_push, Nat.ne_of_lt h]

/-- The clone is the last engine. -/
theorem engineAt_cloned_size {name : Text} :
    (σ.cloned id name).engineAt σ.engines.size = (σ.engineAt id).clone := by
  simp [engineAt, cloned]

end Session

namespace Act

/-- A call to an engine, with values as they are at its time. -/
def make (id : EngineId) : Change → Act Unit
  | .registration (.type given fields) => addType id given fields
  | .registration (.assertion s arguments) => do
    modify (·.withStore s)
    addAssertion id arguments
  | .format s value => do
    modify (·.withStore s)
    setFormat id value

/-- Calls to engines, one after the other, and how each ends. -/
def makeAll : List (EngineId × Change) → Act (List (EngineId × Except Fault Unit))
  | [] => pure []
  | (id, call) :: calls => do
    let ending ← outcome (make id call)
    let endings ← makeAll calls
    pure ((id, ending) :: endings)

variable {σ : Session} {id : EngineId}

/-- A call ends as it does on its engine, which is replaced by what the call makes of it. -/
theorem exec_make (id : EngineId) (call : Change) (σ : Session) :
    ∃ s, (make id call).exec σ = (((σ.engineAt id).change call).map fun _ => (),
      (σ.withStore s).withEngine id ((σ.engineAt id).afterChange call)) := by
  have hchange : ∀ τ : Session,
      (changeEngine id (·.change call)).exec τ =
        (((τ.engineAt id).change call).map fun _ => (),
          τ.withEngine id ((τ.engineAt id).afterChange call)) := by
    intro τ
    rw [exec_changeEngine, Engine.afterChange]
    cases (τ.engineAt id).change call with
    | ok e => rfl
    | error cause =>
      rw [τ.withEngine_engineAt]
      rfl
  cases call with
  | registration call =>
    cases call with
    | type given fields => exact ⟨σ.store, hchange σ⟩
    | assertion s arguments =>
      refine ⟨s, ?_⟩
      rw [make, exec_bind_of_ok (exec_modify _ σ), addAssertion, exec_bind_of_ok (exec_store _)]
      exact hchange (σ.withStore s)
  | format s value =>
    refine ⟨s, ?_⟩
    rw [make, exec_bind_of_ok (exec_modify _ σ), setFormat, exec_bind_of_ok (exec_store _)]
    exact hchange (σ.withStore s)

/-- Calls leave each engine as the calls made to it do, and these end as they do on that engine by
itself. -/
theorem exec_makeAll (calls : List (EngineId × Change)) (σ : Session) :
    ∃ endings σ', (makeAll calls).exec σ = (.ok endings, σ') ∧ σ'.engineNames = σ.engineNames ∧
      ∀ id < σ.engines.size,
        σ'.engineAt id = (σ.engineAt id).afterChanges (forEngine id calls) ∧
        forEngine id endings = (σ.engineAt id).endings (forEngine id calls) := by
  induction calls generalizing σ with
  | nil => exact ⟨[], σ, rfl, rfl, fun id _ => ⟨rfl, rfl⟩⟩
  | cons call calls ih =>
    obtain ⟨first, call⟩ := call
    obtain ⟨s, hcall⟩ := exec_make first call σ
    have hfirst := exec_outcome (make first call) σ
    rw [hcall] at hfirst
    obtain ⟨endings, σ', hcalls, hnames, heach⟩ :=
      ih ((σ.withStore s).withEngine first ((σ.engineAt first).afterChange call))
    have hrun : (makeAll ((first, call) :: calls)).exec σ =
        (.ok ((first, ((σ.engineAt first).change call).map fun _ => ()) :: endings),
          σ') := by
      rw [makeAll, exec_bind_of_ok hfirst, exec_bind_of_ok hcalls]
      rfl
    refine ⟨_, σ', hrun, hnames, fun id hid => ?_⟩
    obtain ⟨hengine, hendings⟩ := heach id (by simpa using hid)
    by_cases heq : first = id
    · subst heq
      rw [Session.engineAt_withEngine_self (by simpa using hid)] at hengine hendings
      simp only [forEngine_cons, if_true]
      exact ⟨hengine, congrArg _ hendings⟩
    · rw [Session.engineAt_withEngine_of_ne (Ne.symm heq)] at hengine hendings
      simp only [forEngine_cons, heq, if_false]
      exact ⟨hengine, hendings⟩

theorem exec_cloneEngine (id : EngineId) (name : Text) (σ : Session) :
    (cloneEngine id name).exec σ = (.ok (), σ.cloned id name) := rfl

/-- Whatever calls an engine has received since it was made, it can be cloned. From then on calls
are made to it and its clone in any order. Each of the two answers as one engine does that has
received the former calls and then the calls made to this one of the two only, and each of these
ends as it does on that engine. -/
theorem exec_cloneEngine_makeAll {e : Engine} {common : List Change} (he : e.Made)
    (hid : id < σ.engines.size) (hσ : σ.engineAt id = e.afterChanges common) (name : Text)
    (calls : List (EngineId × Change)) :
    ∃ endings σ',
      (do cloneEngine id name; makeAll calls).exec σ = (.ok endings, σ') ∧
      σ'.engineNames.get? name = some σ.engines.size ∧
      ∀ either, either = id ∨ either = σ.engines.size →
        (e.afterChanges (common ++ forEngine either calls)).SameAnswers (σ'.engineAt either) ∧
        forEngine either endings =
          (e.afterChanges common).endings (forEngine either calls) := by
  obtain ⟨endings, σ', hcalls, hnames, heach⟩ := exec_makeAll calls (σ.cloned id name)
  refine ⟨endings, σ', ?_, ?_, fun either heither => ?_⟩
  · rw [exec_bind_of_ok (exec_cloneEngine id name σ), hcalls]
  · rw [hnames, Session.cloned, Table.get?_set, if_pos rfl]
  · have hknown : either < (σ.cloned id name).engines.size := by
      rw [Session.cloned, Array.size_push]
      rcases heither with rfl | rfl
      · exact Nat.lt_succ_of_lt hid
      · exact Nat.lt_succ_self _
    have halike : (e.afterChanges common).Alike ((σ.cloned id name).engineAt either) := by
      rcases heither with rfl | rfl
      · rw [Session.engineAt_cloned_of_lt hid, hσ]
        exact .refl _
      · rw [Session.engineAt_cloned_size, hσ]
        exact ((Engine.Cloneable.of_made he).afterChanges common).alike_clone
    obtain ⟨hengine, hendings⟩ := heach either hknown
    rw [hengine, hendings, Engine.afterChanges_append, halike.endings_eq]
    exact ⟨(halike.afterChanges _).sameAnswers, rfl⟩

-- An engine without any type, and one call to it before it is cloned.
private def typeless : Engine := .ofTypes (.ofList []) .default none

private def typeCall (name : Text) : Change :=
  .registration (.type (.inl ⟨name, none, none, none, none, none⟩) .empty)

private def holdingTypeless : Session :=
  { Session.empty (.basic false) 1 with engines := #[typeless.afterChanges [typeCall ['o']]] }

-- The clone takes another format, and both take a type of the same name, the engine twice.
private def diverging : List (EngineId × Change) :=
  [(1, .format ⟨#[.text "html".toList], #[]⟩ (.cell 0)), (0, typeCall ['p']), (1, typeCall ['p']),
    (0, typeCall ['p'])]

/-- An engine without the universal type and its clone go different ways. -/
theorem exec_cloneEngine_diverging :
    ∃ endings σ',
      (do cloneEngine 0 ['c']; makeAll diverging).exec holdingTypeless = (.ok endings, σ') ∧
      forEngine 0 endings = [.ok (), .error (.configuration (.typeDefined ['p']))] ∧
      forEngine 1 endings = [.ok (), .ok ()] ∧
      (σ'.engineAt 0).format = Format.text.name ∧ (σ'.engineAt 1).format = Format.html.name := by
  obtain ⟨endings, σ', hrun, -, hboth⟩ := exec_cloneEngine_makeAll (σ := holdingTypeless)
    (.empty .default none) (Nat.zero_lt_one) rfl ['c'] diverging
  obtain ⟨hfirst, hendings⟩ := hboth 0 (.inl rfl)
  obtain ⟨hlast, hendings'⟩ := hboth 1 (.inr rfl)
  exact ⟨endings, σ', hrun, hendings.trans rfl, hendings'.trans rfl, hfirst.format.trans rfl,
    hlast.format.trans rfl⟩

end Act

end Expectation

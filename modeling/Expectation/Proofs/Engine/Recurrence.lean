import Expectation.Proofs.Engine.Printing

/-!
# Values that recur in an inspection

An inspection of circular values ends. Each value with parts that is begun is inside others that
were begun before and are different from it, and only so many can be reached, so that nothing is
left to be printed after as many levels. A value is marked as circular exactly if it is still being
written when it comes again, which the history of what was begun and ended tells.
-/

namespace Expectation

namespace Depth

/-- A number of levels stays one when one is taken off. -/
theorem pred?_ne_none {depth less : Depth} (h : depth.pred? = some less) : less.pred? ≠ none := by
  cases depth <;> cases h <;> simp [pred?]

/-- Only from what is no number of levels none can be taken off. -/
theorem exists_of_pred?_eq_none {depth : Depth} (h : depth.pred? = none) :
    ∃ value, depth = other value := by
  cases depth with
  | other value => exact ⟨value, rfl⟩
  | _ => cases h

end Depth

namespace Engine

section Deeper

variable (e : Engine) (s : Store)
  (deeper : Document → Ref → Depth → Traced (Document × Option Document))

/-- Write a value inside others; for a value that nests so many levels further down, something else
is done. -/
def printWithinOr : (count : Nat) → (around : List Ref) → (output : Document) → (value : Ref) →
    Depth → Traced (Document × Option Document)
  | 0, _, output, value, depth => deeper output value depth
  | count + 1, around, output, value, depth =>
    if depth.isZero && (s.node value).isNested then
      pure (output.text cutOff, some (output.text cutOff))
    else if value ∈ around then
      pure (output.text circularMark, some (output.text circularMark))
    else do
      let type ← Traced.ofExcept (e.classifiers.resolve s value)
      (type.behaviour.inspect s output value depth).run fun target part =>
        match depth.pred? with
        | some less => printWithinOr count (value :: around) target part less
        | none => .fault .unsupported

/-- The inspection of a value, if something else is done for every value that nests `below` levels
further down or more. -/
def inspectOr (below : Nat) (value : Ref) (depth : Option Depth := none) :
    Traced (Option Document) := do
  let depth := depth.getD (.levels e.settings.inspectDepth)
  let (_, result) ← e.printWithinOr s deeper below [] e.newDocument value depth
  pure result

end Deeper

/-- What happens in an inspection. -/
inductive Event where
  | begun (value : Ref)
  | ended

/-- The values that have begun and not ended, innermost first, by a history with the latest event in
front. -/
def openValues : List Event → List Ref
  | [] => []
  | .begun value :: history => value :: openValues history
  | .ended :: history => (openValues history).tail

/-- A computation that adds to a history. -/
abbrev Historic (α : Type) := StateT (List Event) Traced α

/-- Do something while a value is being written. -/
def during {α : Type} (value : Ref) (act : Historic α) : Historic α := do
  modify (.begun value :: ·)
  let answer ← act
  modify (.ended :: ·)
  pure answer

end Engine

/-- The documents of an inspection in which each value is written by `write`, with a history. -/
def Inspection.runHistoric (write : Document → Ref → Engine.Historic (Document × Option Document)) :
    Inspection → Engine.Historic (Document × Option Document)
  | done written result => pure (written, result)
  | fault cause => liftM (Traced.fault cause : Traced (Document × Option Document))
  | record entries next => do
    liftM (Traced.record entries)
    next.runHistoric write
  | print target value next => do
    let (written, result) ← write target value
    (next written result).runHistoric write

namespace Engine

section Historic

variable (e : Engine) (s : Store)

/-- Write a value on a document. It is marked as circular if the history tells that it is being
written. -/
def printHistoric : (fuel : Nat) → (output : Document) → (value : Ref) → Depth →
    Historic (Document × Option Document)
  | 0, _, _, _ => liftM (Traced.fault .tooDeep : Traced (Document × Option Document))
  | fuel + 1, output, value, depth =>
    if depth.isZero && (s.node value).isNested then
      pure (output.text cutOff, some (output.text cutOff))
    else do
      let history ← get
      if value ∈ openValues history then
        pure (output.text circularMark, some (output.text circularMark))
      else
        let type ← liftM (Traced.ofExcept (e.classifiers.resolve s value))
        during value <|
          (type.behaviour.inspect s output value depth).runHistoric fun target part =>
            match depth.pred? with
            | some less => printHistoric fuel target part less
            | none => liftM (Traced.fault .unsupported : Traced (Document × Option Document))

/-- The inspection of a value, with a history of what was begun and ended. -/
def inspectHistoric (value : Ref) (depth : Option Depth := none) : Traced (Option Document) := do
  let depth := depth.getD (.levels e.settings.inspectDepth)
  let (_, result) ← (e.printHistoric s (s.bound + 1) e.newDocument value depth).run' []
  pure result

end Historic

variable {e : Engine} {s : Store} {a : Ref}

/-- With a level for each value with parts that is not around, and one more, nothing is left to be
printed further down. -/
theorem printWithinOr_eq (he : e.PrintsParts s a)
    (deeper : Document → Ref → Depth → Traced (Document × Option Document)) {x : Ref}
    (hx : x ∈ s.reach a) (around : List Ref) (count fuel : Nat)
    (hcount : (s.unlisted a around).ncard < count) (hfuel : (s.unlisted a around).ncard < fuel)
    (output : Document) (depth : Depth) :
    e.printWithinOr s deeper count around output x depth =
      e.printWithin s fuel around output x depth := by
  induction count generalizing fuel around x output depth with
  | zero => omega
  | succ count ih =>
    obtain ⟨fuel, rfl⟩ : ∃ n, fuel = n + 1 := ⟨fuel - 1, by omega⟩
    rw [printWithinOr, printWithin]
    split_ifs with hcut haround
    · rfl
    · rfl
    · apply Traced.bind_congr_of_ok
      intro type htype
      apply (he x hx type htype output depth).alike.run_eq
      rintro y _ ⟨rfl, hy⟩ target
      have hless : (s.unlisted a (x :: around)).ncard < (s.unlisted a around).ncard :=
        Store.ncard_unlisted_cons_lt hx (List.ne_nil_of_mem hy) haround
      cases depth.pred? with
      | none => rfl
      | some less =>
        exact ih (Store.mem_reach_of_mem_parts hx hy) (x :: around) fuel (by omega) (by omega)
          target less

/-- A fault of an inspection is one that a type raises, unless the depth is no number of levels. -/
theorem raisesWithin_of_printWithin (he : e.PrintsParts s a) {x : Ref} (hx : x ∈ s.reach a)
    {around : List Ref} {fuel : Nat} (hfuel : (s.unlisted a around).ncard < fuel)
    {output : Document} {depth : Depth} {cause : Fault}
    (h : (e.printWithin s fuel around output x depth).outcome = .error cause) :
    e.RaisesWithin s a cause ∨ depth.pred? = none ∧ cause = .unsupported := by
  induction fuel generalizing around x output depth with
  | zero => omega
  | succ fuel ih =>
    rw [printWithin] at h
    split_ifs at h with hcut haround
    · cases h
    · cases h
    · rw [Traced.outcome_bind] at h
      cases htype : e.classifiers.resolve s x with
      | error raised =>
        rw [htype] at h
        cases h
        exact .inl ⟨x, hx, .inl (ClassifierRegistry.exists_fault_of_resolve htype)⟩
      | ok type =>
        rw [htype] at h
        rcases Inspection.exists_of_run_eq_error (he x hx type htype output depth) h with
          hraises | ⟨y, hy, target, hprint⟩
        · exact .inl ⟨x, hx, .inr ⟨type, htype, output, depth, hraises⟩⟩
        · cases hless : depth.pred? with
          | none =>
            rw [hless] at hprint
            cases hprint
            exact .inr ⟨rfl, rfl⟩
          | some less =>
            rw [hless] at hprint
            have hfewer : (s.unlisted a (x :: around)).ncard < (s.unlisted a around).ncard :=
              Store.ncard_unlisted_cons_lt hx (List.ne_nil_of_mem hy) haround
            rcases ih (Store.mem_reach_of_mem_parts hx hy) (by omega) hprint with hraises | hnone
            · exact .inl hraises
            · exact absurd hnone.1 (Depth.pred?_ne_none hless)

section Mirrors

variable {α β : Type}

/-- With a history, a computation does as without one, and leaves the same values open. -/
structure Mirrors (act : Historic α) (history : List Event) (plain : Traced α) : Prop where
  same : Prod.fst <$> act.run history = plain
  settled : ∀ answer later, (act.run history).outcome = .ok (answer, later) →
    openValues later = openValues history

variable {act : Historic α} {history : List Event} {plain : Traced α}

private theorem mirrors_pure (answer : α) (history : List Event) :
    Mirrors (pure answer) history (pure answer) where
  same := by rw [StateT.run_pure, map_pure]
  settled _ _ h := by cases h; rfl

private theorem mirrors_lift (plain : Traced α) (history : List Event) :
    Mirrors (liftM plain) history plain where
  same := by simp
  settled answer later h := by
    obtain ⟨records, cause | found⟩ := plain
    · cases h
    · cases h
      rfl

private theorem Mirrors.bind {next : α → Historic β} {plainNext : α → Traced β}
    (h : Mirrors act history plain)
    (hnext : ∀ answer later, openValues later = openValues history →
      Mirrors (next answer) later (plainNext answer)) :
    Mirrors (act >>= next) history (plain >>= plainNext) where
  same := by
    rw [← h.same, StateT.run_bind, map_bind, bind_map_left]
    apply Traced.bind_congr_of_ok
    rintro ⟨answer, later⟩ hanswer
    exact (hnext answer later (h.settled answer later hanswer)).same
  settled answer last hlast := by
    rw [StateT.run_bind] at hlast
    obtain ⟨⟨middle, later⟩, hmiddle, hrest⟩ := Traced.outcome_bind_eq_ok.1 hlast
    have hlater := h.settled middle later hmiddle
    exact ((hnext middle later hlater).settled answer last hrest).trans hlater

private theorem mirrors_get {next : List Event → Historic α}
    (h : Mirrors (next history) history plain) : Mirrors (get >>= next) history plain := by
  have hrun : (get >>= next : Historic α).run history = (next history).run history := by simp
  exact ⟨by rw [hrun, h.same], fun answer later => by rw [hrun]; exact h.settled answer later⟩

private theorem mirrors_during {value : Ref} (h : Mirrors act (.begun value :: history) plain) :
    Mirrors (during value act) history plain := by
  have hrun : (during value act).run history =
      act.run (.begun value :: history) >>= fun answered =>
        pure (answered.1, .ended :: answered.2) := by
    simp [during]
  refine ⟨?_, fun answer later hlater => ?_⟩
  · rw [hrun, ← h.same, map_bind, map_eq_pure_bind]
    simp
  · rw [hrun] at hlater
    obtain ⟨⟨found, middle⟩, hmiddle, hrest⟩ := Traced.outcome_bind_eq_ok.1 hlater
    cases hrest
    rw [openValues, h.settled found middle hmiddle]
    rfl

private theorem mirrors_run
    {write : Document → Ref → Historic (Document × Option Document)}
    {plainWrite : Document → Ref → Traced (Document × Option Document)} {around : List Ref}
    (h : ∀ target value history, openValues history = around →
      Mirrors (write target value) history (plainWrite target value))
    (c : Inspection) {history : List Event} (hhistory : openValues history = around) :
    Mirrors (c.runHistoric write) history (c.run plainWrite) := by
  induction c generalizing history with
  | done written result => exact mirrors_pure _ _
  | fault cause => exact mirrors_lift _ _
  | record entries next ih =>
    exact (mirrors_lift _ _).bind fun _ later hlater => ih (hlater.trans hhistory)
  | print target value next ih =>
    exact (h target value history hhistory).bind fun answer later hlater =>
      ih answer.1 answer.2 (hlater.trans hhistory)

end Mirrors

/-- A value that is written inside others is written as with a history in which just these are
open. -/
theorem mirrors_printHistoric (e : Engine) (s : Store) (fuel : Nat) (output : Document)
    (value : Ref) (depth : Depth) (history : List Event) :
    Mirrors (e.printHistoric s fuel output value depth) history
      (e.printWithin s fuel (openValues history) output value depth) := by
  induction fuel generalizing output value depth history with
  | zero => exact mirrors_lift _ _
  | succ fuel ih =>
    rw [printHistoric, printWithin]
    by_cases hcut : (depth.isZero && (s.node value).isNested) = true
    · rw [if_pos hcut, if_pos hcut]
      exact mirrors_pure _ _
    · rw [if_neg hcut, if_neg hcut]
      refine mirrors_get ?_
      by_cases haround : value ∈ openValues history
      · rw [if_pos haround, if_pos haround]
        exact mirrors_pure _ _
      · rw [if_neg haround, if_neg haround]
        refine (mirrors_lift _ _).bind fun type later hlater => mirrors_during ?_
        -- Inside, the value is open in addition to those that are open around it.
        have hopen : openValues (.begun value :: later) = value :: openValues history := by
          rw [openValues, hlater]
        refine mirrors_run (fun target part inner hinner => ?_) _ hopen
        cases depth.pred? with
        | none => exact mirrors_lift _ _
        | some less =>
          rw [← hinner]
          exact ih target part less inner

/-- The inspection that goes by the history is the inspection that goes by the values around. -/
theorem inspectHistoric_eq (e : Engine) (s : Store) (value : Ref) (depth : Option Depth) :
    e.inspectHistoric s value depth = e.inspect s value depth := by
  have hsame := (mirrors_printHistoric e s (s.bound + 1) e.newDocument value
    (depth.getD (.levels e.settings.inspectDepth)) []).same
  rw [inspectHistoric, inspect, StateT.run']
  exact congrArg (fun printed => printed >>= fun answer => pure answer.2) hsame

/-- An inspection answers, or ends with a fault that some type raises, or because the depth is no
number of levels. -/
theorem outcome_inspect (he : e.PrintsParts s a) (depth : Option Depth) :
    (∃ document, (e.inspect s a depth).outcome = .ok document) ∨
      ∃ cause, (e.inspect s a depth).outcome = .error cause ∧
        (e.RaisesWithin s a cause ∨
          ∃ value, depth = some (.other value) ∧ cause = .unsupported) := by
  cases houtcome : (e.inspect s a depth).outcome with
  | ok document => exact .inl ⟨document, rfl⟩
  | error cause =>
    refine .inr ⟨cause, rfl, ?_⟩
    rw [inspect, Traced.outcome_bind] at houtcome
    have hsize := Store.ncard_unlisted_le_size s a []
    cases hprint : (e.printWithin s (s.bound + 1) [] e.newDocument a
        (depth.getD (.levels e.settings.inspectDepth))).outcome with
    | ok answer =>
      rw [hprint] at houtcome
      cases houtcome
    | error raised =>
      rw [hprint] at houtcome
      cases houtcome
      have hfuel : (s.unlisted a []).ncard < s.bound + 1 := by
        unfold Store.bound
        omega
      refine (raisesWithin_of_printWithin he (s.mem_reach_self a) hfuel hprint).imp_right ?_
      rintro ⟨hnone, rfl⟩
      obtain ⟨value, hother⟩ := Depth.exists_of_pred?_eq_none hnone
      cases depth with
      | none => cases hother
      | some depth => exact ⟨value, congrArg some hother, rfl⟩

/-- However circular, an inspection to any depth ends: with an answer, or with a fault that some
type raises. It nests at most one level deeper than the number of values that are reached from the
first one: what would be done further down does not matter. Where the depth does not cut it off, a
value is marked as circular exactly if, by the history of what was begun and ended, it is being
written. -/
theorem inspect_of_printsParts (he : e.PrintsParts s a) (depth : Option Depth) :
    ((∃ document, (e.inspect s a depth).outcome = .ok document) ∨
      ∃ cause, (e.inspect s a depth).outcome = .error cause ∧
        (e.RaisesWithin s a cause ∨ ∃ value, depth = some (.other value) ∧ cause = .unsupported)) ∧
    (s.reach a).Finite ∧
    (∀ deeper, e.inspectOr s deeper (1 + (s.reach a).ncard) a depth = e.inspect s a depth) ∧
    e.inspectHistoric s a depth = e.inspect s a depth := by
  refine ⟨outcome_inspect he depth, s.finite_reach a, fun deeper => ?_,
    inspectHistoric_eq e s a depth⟩
  have hreach := Store.ncard_unlisted_le_reach s a []
  have hsize := Store.ncard_unlisted_le_size s a []
  have hfuel : (s.unlisted a []).ncard < s.bound + 1 := by
    unfold Store.bound
    omega
  rw [inspectOr, inspect,
    printWithinOr_eq he deeper (s.mem_reach_self a) [] _ (s.bound + 1) (by omega) hfuel]

-- A list that holds another one twice, which holds the first.
private def embrace : Store := ⟨#[.list [.cell 1, .cell 1], .list [.cell 0]], #[]⟩

/-- Where two lists hold one another, the outer one is marked each time it comes again, and after
three levels nothing is left to be printed. -/
theorem inspect_embrace :
    ((Printing.engine Inspect.items).inspect embrace (.cell 0) (some .unlimited)).outcome.map
        (Option.map Document.plain) = .ok (some "[[[Circular]], [[Circular]]]") ∧
    ∀ deeper, (Printing.engine Inspect.items).inspectOr embrace deeper 3 (.cell 0)
      (some .unlimited) =
        (Printing.engine Inspect.items).inspect embrace (.cell 0) (some .unlimited) := by
  have h := inspect_of_printsParts (Printing.printsParts_items embrace (.cell 0)) (some .unlimited)
  have hreach : embrace.reach (.cell 0) = {.cell 0, .cell 1} := by
    have hstep : embrace.Holds (.cell 0) (.cell 1) := List.mem_cons_self
    ext x
    constructor
    · intro hx
      induction hx with
      | refl => exact .inl rfl
      | tail _ hb ih =>
        rcases ih with rfl | rfl
        · exact .inr (by simpa [Store.Holds, Store.parts, Store.node, embrace] using hb)
        · exact .inl (List.mem_singleton.1 hb)
    · rintro (rfl | rfl)
      · exact embrace.mem_reach_self _
      · exact .single hstep
  constructor
  · rfl
  · intro deeper
    have hdeeper := h.2.2.1 deeper
    rw [hreach, Set.ncard_pair (by decide)] at hdeeper
    exact hdeeper

end Engine

end Expectation

import Expectation.Proofs.Engine.Recurrence

/-!
# Inspections that are cut off

A value that is built from lists, dictionaries and simple values is written as without a watch for
circular values: the values around one that is being written hold it, so none of them comes again in
it, and which of its parts are one object does not matter. Where no type goes by the levels that are
left, it is written to a depth as without a limit, with dots for the arrays and objects at that
depth.
-/

namespace Expectation

namespace Depth

/-- A number of levels, or no limit. -/
def ofLimit : Option Nat → Depth
  | some n => levels n
  | none => unlimited

/-- No level is left only where the limit is none at all. -/
theorem isZero_ofLimit {limit : Option Nat} : (ofLimit limit).isZero = true ↔ limit = some 0 := by
  cases limit with
  | none => decide
  | some n => simp [ofLimit, isZero]

/-- One level less than a limit that leaves one. -/
theorem pred?_ofLimit_succ (n : Nat) :
    (ofLimit (some (n + 1))).pred? = some (ofLimit (some n)) := by
  simp [ofLimit, pred?]

end Depth

namespace Engine

/-- A value is built from lists, dictionaries and values that hold no others and are written in the
form that tells their kind. Nothing that is built so holds itself. -/
inductive Built (e : Engine) (s : Store) : Ref → Prop
  | atom {a : Ref} {type : Classifier} (hatom : (s.node a).isContainer = false)
      (htype : e.classifiers.resolve s a = .ok type)
      (hinspect : type.behaviour.inspect = Behaviour.universal.inspect) : Built e s a
  | container {a : Ref} (hshape : s.Matches a a) (hparts : ∀ x ∈ s.parts a, Built e s x) :
      Built e s a

/-- Lists and dictionaries have types that print their parts only by handing them to the engine:
with the same number of levels left, values of the same shape that are the same part by part are
written in the same way apart from the parts that are handed over. -/
def WritesAlike (e : Engine) (s : Store) : Prop :=
  ∀ a b, s.Same a b → s.Matches a b → ∃ type type',
    e.classifiers.resolve s a = .ok type ∧ e.classifiers.resolve s b = .ok type' ∧
      ∀ output depth, (type.behaviour.inspect s output a depth).Alike
        (Inspection.InPlace s a b) (type'.behaviour.inspect s output b depth)

/-- The types of lists and dictionaries take no notice of how many levels are left. -/
def IgnoresDepth (e : Engine) (s : Store) : Prop :=
  ∀ a type, s.Matches a a → e.classifiers.resolve s a = .ok type →
    ∀ output depth depth',
      type.behaviour.inspect s output a depth = type.behaviour.inspect s output a depth'

section Cutting

variable (e : Engine) (s : Store)

/-- Write a value on a document without a watch for circular values. -/
def printUnwatched : (fuel : Nat) → (output : Document) → (value : Ref) → Depth →
    Traced (Document × Option Document)
  | 0, _, _, _ => .fault .tooDeep
  | fuel + 1, output, value, depth =>
    if depth.isZero && (s.node value).isNested then
      pure (output.text cutOff, some (output.text cutOff))
    else do
      let type ← Traced.ofExcept (e.classifiers.resolve s value)
      (type.behaviour.inspect s output value depth).run fun target part =>
        match depth.pred? with
        | some less => printUnwatched fuel target part less
        | none => .fault .unsupported

/-- The inspection of a value to a depth without a watch for circular values. -/
def inspectUnwatched (value : Ref) (depth : Depth) : Traced (Option Document) := do
  let (_, result) ← e.printUnwatched s (s.bound + 1) e.newDocument value depth
  pure result

variable (limit : Option Nat)

/-- Write a value at a level without a watch for circular values and without a limit of depth, but
with dots for the arrays and objects at one level. -/
def printCutting : (fuel : Nat) → (level : Nat) → (output : Document) → (value : Ref) →
    Traced (Document × Option Document)
  | 0, _, _, _ => .fault .tooDeep
  | fuel + 1, level, output, value =>
    if limit = some level ∧ (s.node value).isNested = true then
      pure (output.text cutOff, some (output.text cutOff))
    else do
      let type ← Traced.ofExcept (e.classifiers.resolve s value)
      (type.behaviour.inspect s output value .unlimited).run fun target part =>
        printCutting fuel (level + 1) target part

/-- The inspection of a value without a limit of depth, but with dots for the arrays and objects at
one level. -/
def inspectCutting (value : Ref) : Traced (Option Document) := do
  let (_, result) ← e.printCutting s limit (s.bound + 1) 0 e.newDocument value
  pure result

end Cutting

variable {e : Engine} {s : Store} {a b : Ref}

/-- A list of values that are built is built. -/
theorem Built.list {xs : List Ref} (hn : s.node a = .list xs) (h : ∀ x ∈ xs, e.Built s x) :
    e.Built s a :=
  .container (.list hn hn rfl) (by simpa [Store.parts, hn] using h)

/-- A dictionary of values that are built, under keys that are built and hold no others, is built.
-/
theorem Built.dict {xs : List (Ref × Ref)} (hn : s.node a = .dict xs)
    (hkeys : ∀ entry ∈ xs, (s.node entry.1).isContainer = false ∧ e.Built s entry.1)
    (hvalues : ∀ entry ∈ xs, e.Built s entry.2) : e.Built s a := by
  refine .container (.dict hn hn (List.forall₂_same.2 fun entry hentry => ?_)) fun x hx => ?_
  · exact ⟨rfl, (hkeys entry hentry).1⟩
  · simp only [Store.parts, hn, List.mem_append, List.mem_map] at hx
    rcases hx with ⟨entry, hentry, rfl⟩ | ⟨entry, hentry, rfl⟩
    · exact (hkeys entry hentry).2
    · exact hvalues entry hentry

/-- Whatever is reached from what is built is built. -/
theorem Built.of_mem_reach (h : e.Built s a) {x : Ref} (hx : x ∈ s.reach a) : e.Built s x := by
  induction hx with
  | refl => exact h
  | tail _ hx ih =>
    cases ih with
    | atom hatom =>
      rw [Store.Holds, Store.parts_eq_nil hatom] at hx
      cases hx
    | container _ hparts => exact hparts _ hx

/-- What is built is acyclic. -/
theorem Built.acyclic (h : e.Built s a) : s.Acyclic a := by
  intro x hreach hloop
  have hx := h.of_mem_reach hreach
  clear h hreach
  induction hx with
  | atom hatom =>
    obtain ⟨y, hy, -⟩ := Relation.TransGen.head'_iff.1 hloop
    rw [Store.Holds, Store.parts_eq_nil hatom] at hy
    cases hy
  | container _ _ ih =>
    obtain ⟨y, hy, hback⟩ := Relation.TransGen.head'_iff.1 hloop
    exact ih y hy (.tail' hback hy)

/-- What is built is the same as itself, part by part. -/
theorem Built.same (h : e.Built s a) : s.Same a a := by
  induction h with
  | atom hatom => exact .atom rfl hatom
  | @container a hshape _ ih =>
    refine .container hshape fun pair hpair => ?_
    have hplace : Inspection.InPlace s a a pair.1 pair.2 := hpair
    rw [← hplace.eq]
    exact ih _ hplace.mem_parts

/-- Values that are built and the same part by part are written in the same way apart from their
parts. -/
theorem alike_of_same (he : e.WritesAlike s) (ha : e.Built s a) (hb : e.Built s b)
    (hsame : s.Same a b) : ∃ type type',
      e.classifiers.resolve s a = .ok type ∧ e.classifiers.resolve s b = .ok type' ∧
        ∀ output depth, (type.behaviour.inspect s output a depth).Alike
          (Inspection.InPlace s a b) (type'.behaviour.inspect s output b depth) := by
  cases hsame with
  | container hmatch hparts => exact he a b (.container hmatch hparts) hmatch
  | atom hnode hatom =>
    cases ha with
    | container hshape => simp [hshape.isContainer] at hatom
    | @atom _ type _ htype hinspect =>
      cases hb with
      | container hshape =>
        rw [hnode] at hatom
        simp [hshape.isContainer] at hatom
      | @atom _ type' _ htype' hinspect' =>
        refine ⟨type, type', htype, htype', fun output depth => ?_⟩
        rw [hinspect, hinspect']
        simp only [Behaviour.universal, Store.shown_congr hnode hatom]
        exact Inspection.alike_withForm _ fun _ => .done _ _

/-- What is built is printed by its parts. -/
theorem Built.printsParts (he : e.WritesAlike s) (h : e.Built s a) : e.PrintsParts s a := by
  intro x hx type htype output depth
  have hx := h.of_mem_reach hx
  obtain ⟨type', _, htype', _, halike⟩ := alike_of_same he hx hx hx.same
  obtain rfl : type' = type := Except.ok.inj (htype'.symm.trans htype)
  exact (halike output depth).printsOnly fun _ _ hplace => hplace.mem_parts

section Steps

variable {write write' : Document → Ref → Traced (Document × Option Document)}

/-- Two inspections of values that are built and the same part by part go on alike where the parts
in the same places are written alike. -/
theorem bind_resolve_congr (he : e.WritesAlike s) (ha : e.Built s a) (hb : e.Built s b)
    (hsame : s.Same a b) (output : Document) (depth : Depth)
    (hwrite : ∀ x y, Inspection.InPlace s a b x y → ∀ target, write target x = write' target y) :
    (do
      let type ← Traced.ofExcept (e.classifiers.resolve s a)
      (type.behaviour.inspect s output a depth).run write) =
    (do
      let type ← Traced.ofExcept (e.classifiers.resolve s b)
      (type.behaviour.inspect s output b depth).run write') := by
  obtain ⟨type, type', htype, htype', halike⟩ := alike_of_same he ha hb hsame
  rw [htype, htype']
  exact (halike output depth).run_eq hwrite

/-- Two inspections of a value that is built go on alike where its parts are written alike. -/
theorem bind_resolve_congr_self (he : e.WritesAlike s) (ha : e.Built s a) (output : Document)
    (depth : Depth) (hwrite : ∀ x, s.Holds a x → ∀ target, write target x = write' target x) :
    (do
      let type ← Traced.ofExcept (e.classifiers.resolve s a)
      (type.behaviour.inspect s output a depth).run write) =
    (do
      let type ← Traced.ofExcept (e.classifiers.resolve s a)
      (type.behaviour.inspect s output a depth).run write') := by
  refine bind_resolve_congr he ha ha ha.same output depth fun x y hplace target => ?_
  rw [← hplace.eq]
  exact hwrite x hplace.mem_parts target

end Steps

/-- The type of a value that is built takes no notice of how many levels are left. -/
theorem Built.inspect_eq (hd : e.IgnoresDepth s) (h : e.Built s a) {type : Classifier}
    (htype : e.classifiers.resolve s a = .ok type) (output : Document) (depth depth' : Depth) :
    type.behaviour.inspect s output a depth = type.behaviour.inspect s output a depth' := by
  cases h with
  | container hshape => exact hd a type hshape htype output depth depth'
  | @atom _ type' _ htype' hinspect =>
    obtain rfl : type' = type := Except.ok.inj (htype'.symm.trans htype)
    rw [hinspect]
    rfl

/-- Inside values that hold it, what is built is written as without a watch for circular values. -/
theorem printWithin_eq_printUnwatched (he : e.WritesAlike s) {x : Ref} (hx : e.Built s x)
    {around : List Ref} (haround : ∀ z ∈ around, Relation.TransGen s.Holds z x) (fuel : Nat)
    (output : Document) (depth : Depth) :
    e.printWithin s fuel around output x depth = e.printUnwatched s fuel output x depth := by
  induction fuel generalizing x around output depth with
  | zero => rfl
  | succ fuel ih =>
    have hfresh : x ∉ around := fun hmem => hx.acyclic x .refl (haround x hmem)
    rw [printWithin, printUnwatched, if_neg hfresh]
    split_ifs with hcut
    · rfl
    · refine bind_resolve_congr_self he hx output depth fun y hy target => ?_
      have haround : ∀ z ∈ x :: around, Relation.TransGen s.Holds z y :=
        List.forall_mem_cons.2 ⟨.single hy, fun z hz => .tail (haround z hz) hy⟩
      cases depth.pred? with
      | none => rfl
      | some less => exact ih (hx.of_mem_reach (.single hy)) haround target less

/-- What is the same part by part is written in the same way to the same depth. -/
theorem printUnwatched_congr (he : e.WritesAlike s) {x y : Ref} (hx : e.Built s x)
    (hy : e.Built s y) (hsame : s.Same x y) (fuel : Nat) (output : Document) (depth : Depth) :
    e.printUnwatched s fuel output x depth = e.printUnwatched s fuel output y depth := by
  induction fuel generalizing x y output depth with
  | zero => rfl
  | succ fuel ih =>
    rw [printUnwatched, printUnwatched, hsame.isNested_eq]
    split_ifs with hcut
    · rfl
    · refine bind_resolve_congr he hx hy hsame output depth fun x' y' hplace target => ?_
      obtain ⟨hx', hy'⟩ := List.of_mem_zip hplace
      cases depth.pred? with
      | none => rfl
      | some less =>
        exact ih (hx.of_mem_reach (.single hx')) (hy.of_mem_reach (.single hy'))
          (hsame.of_mem_zip hplace) target less

/-- What is built is written to a depth as without a limit, with dots for the arrays and objects at
that depth, where no type goes by the levels that are left. -/
theorem printUnwatched_eq_printCutting (he : e.WritesAlike s) (hd : e.IgnoresDepth s) {x : Ref}
    (hx : e.Built s x) (left : Option Nat) (level fuel : Nat) (output : Document) :
    e.printUnwatched s fuel output x (.ofLimit left) =
      e.printCutting s (left.map (level + ·)) fuel level output x := by
  induction fuel generalizing x left level output with
  | zero => rfl
  | succ fuel ih =>
    have hcut : ((Depth.ofLimit left).isZero && (s.node x).isNested) = true ↔
        left.map (level + ·) = some level ∧ (s.node x).isNested = true := by
      rw [Bool.and_eq_true, Depth.isZero_ofLimit]
      cases left <;> simp
    rw [printUnwatched, printCutting]
    simp only [hcut]
    split_ifs with h
    · rfl
    · trans do
        let type ← Traced.ofExcept (e.classifiers.resolve s x)
        (type.behaviour.inspect s output x (.ofLimit left)).run fun target part =>
          e.printCutting s (left.map (level + ·)) fuel (level + 1) target part
      · refine bind_resolve_congr_self he hx output _ fun y hy target => ?_
        have hbuilt : e.Built s y := hx.of_mem_reach (.single hy)
        cases left with
        | none => exact ih hbuilt none (level + 1) target
        | some n =>
          cases n with
          | zero => exact absurd ⟨by simp, hy.isNested⟩ h
          | succ n =>
            rw [Depth.pred?_ofLimit_succ]
            have hrest := ih hbuilt (some n) (level + 1) target
            rwa [Option.map_some, Nat.add_right_comm] at hrest
      · apply Traced.bind_congr_of_ok
        intro type htype
        rw [hx.inspect_eq hd htype output (.ofLimit left) .unlimited]

/-- Where the arrays and objects of a value nest no deeper, none is cut off. -/
theorem printCutting_of_nestsWithin (he : e.WritesAlike s) {x : Ref} (hx : e.Built s x) {n : Nat}
    (hn : s.NestsWithin n x) (level fuel : Nat) (output : Document) :
    e.printCutting s (some (level + n)) fuel level output x =
      e.printCutting s none fuel level output x := by
  induction fuel generalizing x n level output with
  | zero => rfl
  | succ fuel ih =>
    have hwhole : ¬ (some (level + n) = some level ∧ (s.node x).isNested = true) := by
      rintro ⟨hlevel, hnested⟩
      obtain rfl : n = 0 := by simpa using hlevel
      rw [Store.NestsWithin, hnested] at hn
      cases hn
    rw [printCutting, printCutting, if_neg hwhole, if_neg (by simp)]
    refine bind_resolve_congr_self he hx output _ fun y hy target => ?_
    cases n with
    | zero =>
      rw [Store.NestsWithin, hy.isNested] at hn
      cases hn
    | succ n =>
      have hrest := ih (hx.of_mem_reach (.single hy)) (hn y hy) (level + 1) target
      rwa [Nat.add_right_comm] at hrest

end Engine

namespace Printing

variable {lists : Inspect} {s : Store} {a : Ref}

/-- The engine prints children only by handing them over if it writes lists so. -/
theorem writesAlike_engine
    (h : ∀ {a b xs ys}, s.node a = .list xs → s.node b = .list ys → xs.length = ys.length →
      ∀ output depth, (lists s output a depth).Alike (Inspection.InPlace s a b)
        (lists s output b depth)) : (engine lists).WritesAlike s := by
  intro a b _ hmatch
  refine ⟨_, _, resolve_engine s lists a, resolve_engine s lists b, fun output depth => ?_⟩
  cases hmatch with
  | list ha hb hlength =>
    simpa [typeOf, ha, hb, Node.kind] using h ha hb hlength output depth
  | dict ha hb hkeys =>
    simpa [typeOf, ha, hb, Node.kind] using Inspection.alike_entries output depth depth ha hb hkeys

/-- The engine takes no notice of the levels that are left if it writes lists so. -/
theorem ignoresDepth_engine
    (h : ∀ output a depth depth', lists s output a depth = lists s output a depth') :
    (engine lists).IgnoresDepth s := by
  intro a type hshape htype output depth depth'
  rw [resolve_engine, Except.ok.injEq] at htype
  subst htype
  cases hshape with
  | list ha => simpa [typeOf, ha, Node.kind] using h output a depth depth'
  | dict ha => simp [typeOf, ha, Node.kind, Inspect.entries]

/-- A value that holds no others is of the universal type. -/
theorem built_atom (hatom : (s.node a).isContainer = false) : (engine lists).Built s a := by
  refine .atom hatom (resolve_engine s lists a) ?_
  have hkind : (s.node a).kind ≠ .list ∧ (s.node a).kind ≠ .dict := by
    simp only [Node.isContainer, Bool.or_eq_false_iff, decide_eq_false_iff_not] at hatom
    exact ⟨hatom.1.1, hatom.2⟩
  rw [typeOf, if_neg hkind.1, if_neg hkind.2]
  rfl

end Printing

namespace Engine

variable {e : Engine} {s : Store} {a : Ref}

/-- Where lists and dictionaries have types that print their parts only by handing them to the
engine, and hand it nothing else, a value that is built from lists, dictionaries and simple values
is written to any depth, or the fault of a type comes instead. It is written as without a watch for
circular values, and as any value is that is the same part by part. Where the types also take no
notice of the levels that are left, it is written as without a limit of depth, with dots for the
arrays and objects at that depth; so if its arrays and objects nest no deeper, as without a limit.
-/
theorem inspect_of_built (he : e.WritesAlike s) (ha : e.Built s a) (limit : Option Nat) :
    ((∃ document, (e.inspect s a (some (.ofLimit limit))).outcome = .ok document) ∨
      ∃ cause, (e.inspect s a (some (.ofLimit limit))).outcome = .error cause ∧
        e.RaisesWithin s a cause) ∧
    e.inspect s a (some (.ofLimit limit)) = e.inspectUnwatched s a (.ofLimit limit) ∧
    (∀ b, e.Built s b → s.Same a b →
      e.inspect s b (some (.ofLimit limit)) = e.inspect s a (some (.ofLimit limit))) ∧
    (e.IgnoresDepth s →
      e.inspect s a (some (.ofLimit limit)) = e.inspectCutting s limit a ∧
      ∀ n, limit = some n → s.NestsWithin n a →
        e.inspect s a (some (.ofLimit limit)) = e.inspect s a (some .unlimited)) := by
  have hunwatched : ∀ {b}, e.Built s b → ∀ depth,
      e.inspect s b (some depth) = e.inspectUnwatched s b depth := by
    intro b hb depth
    have hnone : ∀ z ∈ ([] : List Ref), Relation.TransGen s.Holds z b := by simp
    rw [inspect, inspectUnwatched, Option.getD_some,
      printWithin_eq_printUnwatched he hb hnone (s.bound + 1) e.newDocument depth]
  have hcutting : e.IgnoresDepth s → ∀ limit,
      e.inspect s a (some (.ofLimit limit)) = e.inspectCutting s limit a := by
    intro hd limit
    have hprint := printUnwatched_eq_printCutting he hd ha limit 0 (s.bound + 1) e.newDocument
    have hlimit : limit.map (0 + ·) = limit := by simp
    rw [hunwatched ha, inspectUnwatched, inspectCutting, hprint, hlimit]
  refine ⟨?_, hunwatched ha _, fun b hb hsame => ?_, fun hd => ⟨hcutting hd limit, ?_⟩⟩
  · rcases outcome_inspect (ha.printsParts he) (some (.ofLimit limit)) with
      hanswer | ⟨cause, hcause, hraises | ⟨value, hother, -⟩⟩
    · exact .inl hanswer
    · exact .inr ⟨cause, hcause, hraises⟩
    · cases limit <;> cases hother
  · rw [hunwatched ha, hunwatched hb, inspectUnwatched, inspectUnwatched,
      printUnwatched_congr he ha hb hsame]
  · rintro n rfl hnests
    have hprint := printCutting_of_nestsWithin he ha hnests 0 (s.bound + 1) e.newDocument
    rw [Nat.zero_add] at hprint
    have hunlimited : e.inspect s a (some .unlimited) = e.inspectCutting s none a :=
      hcutting hd none
    rw [hcutting hd, hunlimited, inspectCutting, inspectCutting, hprint]

/-- What an inspection writes, if it ends with a document. -/
private def textOf (inspection : Traced (Option Document)) : Except Fault (Option Text) :=
  inspection.outcome.map (Option.map Document.plain)

-- A dictionary that holds one list twice, and one that holds two such lists.
private def twice : Store :=
  ⟨#[.dict [(.char 'a', .cell 1), (.char 'b', .cell 1)], .list [.small 1],
    .dict [(.char 'a', .cell 1), (.char 'b', .cell 3)], .list [.small 1]], #[]⟩

/-- A dictionary that holds one list twice is written to a depth of one with dots for the list, as
is one that holds two such lists, and to a depth of two in full. -/
theorem inspect_twice :
    textOf ((Printing.engine Inspect.items).inspect twice (.cell 0) (some (.levels 1))) =
      .ok (some "\x7ba: ..., b: ...\x7d") ∧
    (Printing.engine Inspect.items).inspect twice (.cell 2) (some (.levels 1)) =
      (Printing.engine Inspect.items).inspect twice (.cell 0) (some (.levels 1)) ∧
    (Printing.engine Inspect.items).inspect twice (.cell 0) (some (.levels 2)) =
      (Printing.engine Inspect.items).inspect twice (.cell 0) (some .unlimited) := by
  have halike : (Printing.engine Inspect.items).WritesAlike twice :=
    Printing.writesAlike_engine fun ha hb hlength output depth =>
      Inspection.alike_items output depth depth ha hb hlength
  have hdepth : (Printing.engine Inspect.items).IgnoresDepth twice :=
    Printing.ignoresDepth_engine fun _ _ _ _ => rfl
  have hkey : ∀ c, (twice.node (.char c)).isContainer = false ∧
      (Printing.engine Inspect.items).Built twice (.char c) :=
    fun c => ⟨rfl, Printing.built_atom rfl⟩
  have hlist : ∀ x ∈ [Ref.cell 1, .cell 3], (Printing.engine Inspect.items).Built twice x := by
    simp only [List.forall_mem_cons, List.not_mem_nil, false_implies, implies_true, and_true]
    exact ⟨.list rfl (List.forall_mem_singleton.2 (Printing.built_atom rfl)),
      .list rfl (List.forall_mem_singleton.2 (Printing.built_atom rfl))⟩
  have hshared : (Printing.engine Inspect.items).Built twice (.cell 0) :=
    .dict rfl (by simp [hkey]) (by simp [hlist])
  have hunshared : (Printing.engine Inspect.items).Built twice (.cell 2) :=
    .dict rfl (by simp [hkey]) (by simp [hlist])
  have hsame : twice.Same (.cell 0) (.cell 2) := by
    have hcopy : twice.Same (.cell 1) (.cell 3) :=
      .container (.list rfl rfl rfl) (List.forall_mem_singleton.2 (.atom rfl rfl))
    refine .container (.dict rfl rfl (by decide)) ?_
    show ∀ pair ∈ [(Ref.char 'a', Ref.char 'a'), (.char 'b', .char 'b'), (.cell 1, .cell 1),
      (.cell 1, .cell 3)], twice.Same pair.1 pair.2
    simp only [List.forall_mem_cons, List.not_mem_nil, false_implies, implies_true, and_true]
    exact ⟨(hkey 'a').2.same, (hkey 'b').2.same, (hlist (.cell 1) (by simp)).same, hcopy⟩
  refine ⟨rfl, ?_, ?_⟩
  · exact (inspect_of_built halike hshared (some 1)).2.2.1 (.cell 2) hunshared hsame
  · exact ((inspect_of_built halike hshared (some 2)).2.2.2 hdepth).2 2 rfl (by decide)

-- A list of a number, and a list of an object.
private def single : Store := ⟨#[.list [.small 1], .list [.cell 2], .object ['o']], #[]⟩

/-- A type may tell how many levels are left, so that a list is written otherwise to a depth than
without a limit although nothing in it is cut off. An object is cut off in a list although no list
or dictionary nests in it. A type may hand over the value itself, which is then marked as
circular. -/
theorem inspect_single :
    ((Printing.engine Inspect.depths).WritesAlike single ∧
      (Printing.engine Inspect.depths).Built single (.cell 0) ∧
      single.NestsWithin 1 (.cell 0) ∧
      textOf ((Printing.engine Inspect.depths).inspect single (.cell 0) (some (.levels 1))) =
        .ok (some "<1 1>") ∧
      textOf ((Printing.engine Inspect.depths).inspectCutting single (some 1) (.cell 0)) =
        .ok (some "<inf 1>") ∧
      textOf ((Printing.engine Inspect.depths).inspect single (.cell 0) (some .unlimited)) =
        .ok (some "<inf 1>")) ∧
    (Printing.engine Inspect.items).WritesAlike single ∧
      (Printing.engine Inspect.items).Built single (.cell 1) ∧
      (∀ x ∈ single.parts (.cell 1), (single.node x).isContainer = false) ∧
      textOf ((Printing.engine Inspect.items).inspect single (.cell 1) (some (.levels 1))) =
        .ok (some "[...]") ∧
      textOf ((Printing.engine Inspect.items).inspect single (.cell 1) (some .unlimited)) =
        .ok (some "[<o>]") ∧
    (Printing.engine Inspect.itself).Built single (.cell 0) ∧
      textOf ((Printing.engine Inspect.itself).inspect single (.cell 0) (some .unlimited)) =
        .ok (some "self=[Circular]") := by
  have hlist : ∀ lists, (Printing.engine lists).Built single (.cell 0) :=
    fun _ => .list rfl (List.forall_mem_singleton.2 (Printing.built_atom rfl))
  have hobject : (Printing.engine Inspect.items).Built single (.cell 1) :=
    .list rfl (List.forall_mem_singleton.2 (Printing.built_atom rfl))
  have hdepths : (Printing.engine Inspect.depths).WritesAlike single :=
    Printing.writesAlike_engine fun ha hb hlength output depth =>
      Inspection.alike_depths output depth ha hb hlength
  have hitems : (Printing.engine Inspect.items).WritesAlike single :=
    Printing.writesAlike_engine fun ha hb hlength output depth =>
      Inspection.alike_items output depth depth ha hb hlength
  exact ⟨⟨hdepths, hlist _, by decide, rfl, rfl, rfl⟩, hitems, hobject, by decide, rfl, rfl,
    hlist _, rfl⟩

end Engine

end Expectation

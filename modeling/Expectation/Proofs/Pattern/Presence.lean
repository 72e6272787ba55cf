import Expectation.Pattern.Validity
import Expectation.Proofs.Pattern.Selection

/-!
# Presence of flags

A name that a pattern declares comes with the flags of the pattern, each with whether it was taken.
Where a flag is written more than once, what is recorded is whether it was taken at the last place:
a name may hold the word of a flag that is recorded as omitted. A flag that is written once is
recorded as taken exactly if its word was taken.
-/

namespace Expectation

namespace Pattern

/-- The segment at an index is the last one that is the flag of a name. -/
structure StandsLast (parts : List Segment) (name : Text) (i : Nat) : Prop where
  here : parts[i]? = some (.flag name)
  last : ∀ j, parts[j]? = some (.flag name) → j ≤ i

/-- A selection takes the flag of a name at an index. -/
def TakenAt (parts : List Segment) (selection : Selection) (name : Text) (i : Nat) : Prop :=
  parts[i]? = some (.flag name) ∧ selection[i]? = some 0

instance (parts : List Segment) (selection : Selection) (name : Text) (i : Nat) :
    Decidable (TakenAt parts selection name i) :=
  inferInstanceAs (Decidable (_ ∧ _))

variable {parts : List Segment} {selection : Selection} {name : Text} {i : Nat}

/-- A flag that is written somewhere is written last somewhere. -/
theorem exists_standsLast (h : .flag name ∈ parts) : ∃ i, StandsLast parts name i := by
  induction parts with
  | nil => cases h
  | cons part parts ih =>
    by_cases hlater : .flag name ∈ parts
    · obtain ⟨i, hi⟩ := ih hlater
      refine ⟨i + 1, hi.here, fun j hj => ?_⟩
      cases j with
      | zero => exact Nat.zero_le _
      | succ j => exact Nat.succ_le_succ (hi.last j hj)
    · have hpart : part = .flag name := by
        rcases List.mem_cons.1 h with rfl | h
        · rfl
        · exact absurd h hlater
      refine ⟨0, by rw [hpart]; rfl, fun j hj => ?_⟩
      cases j with
      | zero => exact Nat.le_refl 0
      | succ j =>
        have hmem : .flag name ∈ parts := List.mem_of_getElem? hj
        exact absurd hmem hlater

/-- A record keeps what is recorded later and adds its own flag behind it. -/
theorem get?_withFlag (flag : Text) (taken : Bool) (later : Flags) (name : Text) :
    (withFlag flag taken later).get? name =
      (later.get? name).or (if name = flag then some taken else none) := by
  rw [withFlag, Table.get?_setAll later.nodup_keys, Table.get?_set, Table.get?_empty]
  rfl

/-- Nothing is recorded of a flag that is not written. -/
theorem get?_recorded_of_notMem (h : selection.Of parts) (hname : .flag name ∉ parts) :
    (recorded parts selection).get? name = none := by
  induction h with
  | nil => rfl
  | @cons way part selection parts _ _ ih =>
    obtain ⟨hpart, hrest⟩ := not_or.1 (List.mem_cons.not.1 hname)
    cases part with
    | literal text => exact ih hrest
    | choice alternatives => exact ih hrest
    | flag flag =>
      have hne : name ≠ flag := by
        rintro rfl
        exact hpart rfl
      rw [recorded, get?_withFlag, ih hrest, if_neg hne, Option.or_none]

/-- What is recorded of a flag is whether it is taken where it stands last. -/
theorem get?_recorded (h : selection.Of parts) (hlast : StandsLast parts name i) :
    (recorded parts selection).get? name = some (decide (TakenAt parts selection name i)) := by
  induction h generalizing i with
  | nil => cases hlast.here
  | @cons way part selection parts _ hrest ih =>
    cases i with
    | zero =>
      have hlater : .flag name ∉ parts := by
        intro hmem
        obtain ⟨j, hj⟩ := List.mem_iff_getElem?.1 hmem
        have hle := hlast.last (j + 1) hj
        omega
      obtain rfl : part = .flag name := by simpa using hlast.here
      rw [recorded, get?_withFlag, get?_recorded_of_notMem hrest hlater, if_pos rfl, Option.none_or]
      simp [TakenAt]
    | succ i =>
      have hrestLast : StandsLast parts name i :=
        ⟨hlast.here, fun j hj => Nat.le_of_succ_le_succ (hlast.last (j + 1) hj)⟩
      have hrecorded := ih hrestLast
      cases part with
      | literal text => exact hrecorded
      | choice alternatives => exact hrecorded
      | flag flag =>
        rw [recorded, get?_withFlag, hrecorded, Option.some_or]
        rfl

/-- The names of a pattern are those of its selections, in lexicographic order. A name is put
together from the words that its selection takes. Of a flag that the pattern does not hold nothing
is recorded; of any other, whether it is taken where it stands last. So a flag that is recorded as
taken is taken somewhere, and a flag that stands at one place only is recorded as taken exactly if
it is taken somewhere. -/
theorem flags_expand? {pattern : Text} {expansions : List Expansion}
    (he : expand? pattern = some expansions) :
    ∃ (listed : List Selection) (entry : Selection → Expansion),
      listed.Pairwise (List.Lex (· < ·)) ∧
      (∀ selection : Selection, selection ∈ listed ↔ selection.Of (segments pattern)) ∧
      expansions = listed.map entry ∧
      ∀ selection ∈ listed,
        (entry selection).text =
          (collapse (Text.joinWith [edge] (pieces (segments pattern) selection))).strip ∧
        ∀ name,
          (.flag name ∉ segments pattern → (entry selection).flags.get? name = none) ∧
          (.flag name ∈ segments pattern → ∃ i, StandsLast (segments pattern) name i ∧
            ((entry selection).flags.get? name = some true ↔
              TakenAt (segments pattern) selection name i) ∧
            ((entry selection).flags.get? name = some false ↔
              ¬ TakenAt (segments pattern) selection name i) ∧
            ((∀ j, (segments pattern)[j]? = some (.flag name) → j = i) →
              ((entry selection).flags.get? name = some true ↔
                ∃ j, TakenAt (segments pattern) selection name j))) := by
  refine ⟨selections (segments pattern),
    fun selection => finish ⟨Text.joinWith [edge] (pieces (segments pattern) selection),
      recorded (segments pattern) selection⟩,
    pairwise_selections _, fun _ => mem_selections, ?_, fun selection hmem => ⟨rfl, fun name => ?_⟩⟩
  · rw [← (expand?_eq_some_iff.1 he).1, marked_eq, List.map_map]
    rfl
  · have hof := mem_selections.1 hmem
    refine ⟨fun habsent => get?_recorded_of_notMem hof habsent, fun hname => ?_⟩
    obtain ⟨i, hlast⟩ := exists_standsLast hname
    have hrecorded := get?_recorded hof hlast
    have htaken : (recorded (segments pattern) selection).get? name = some true ↔
        TakenAt (segments pattern) selection name i := by
      rw [hrecorded, Option.some.injEq, decide_eq_true_eq]
    have homitted : (recorded (segments pattern) selection).get? name = some false ↔
        ¬ TakenAt (segments pattern) selection name i := by
      rw [hrecorded, Option.some.injEq, decide_eq_false_iff_not]
    refine ⟨i, hlast, htaken, homitted, fun honce => htaken.trans ⟨fun h => ⟨i, h⟩, ?_⟩⟩
    rintro ⟨j, hj⟩
    exact honce j hj.1 ▸ hj

/-- Of a flag that is written twice, a name holds the word that is taken at the first place, and the
flag is recorded as omitted. -/
theorem flags_expand?_writtenTwice :
    ∃ expansions, expand? ("[x] a [x]" : String) = some expansions ∧
      Valid ("[x] a [x]" : String) ∧
      ∃ expansion ∈ expansions, expansion.text = "x a".toList ∧
        TakenAt (segments ("[x] a [x]" : String)) [0, 0, 1] ['x'] 0 ∧
        expansion.flags.get? ['x'] = some false := by
  have hsegments : segments ("[x] a [x]" : String) =
      [.flag ['x'], .literal " a ".toList, .flag ['x']] := by
    decide +kernel
  obtain ⟨expansions, he⟩ := Option.isSome_iff_exists.1
    (show (expand? ("[x] a [x]" : String)).isSome from by decide +kernel)
  obtain ⟨listed, entry, -, hlisted, heq, hentry⟩ := flags_expand? he
  rw [hsegments] at hlisted hentry ⊢
  have hmem : [0, 0, 1] ∈ listed :=
    (hlisted _).2 (.cons (by decide) (.cons (by decide) (.cons (by decide) .nil)))
  obtain ⟨htext, hflags⟩ := hentry _ hmem
  obtain ⟨i, hlast, -, homitted, -⟩ := (hflags ['x']).2 (by decide)
  have hi : i = 2 := by
    have htwo := hlast.last 2 rfl
    have hlength := (List.getElem?_eq_some_iff.1 hlast.here).1
    simp at hlength
    omega
  refine ⟨expansions, he, by decide +kernel, entry [0, 0, 1], heq ▸ List.mem_map_of_mem hmem,
    ?_, by decide, homitted.2 ?_⟩
  · rw [htext]
    decide +kernel
  · rw [hi]
    decide

end Pattern
end Expectation

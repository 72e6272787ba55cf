import Mathlib.Algebra.BigOperators.Group.List.Basic
import Expectation.Proofs.Pattern.Grammar
import Expectation.Proofs.Pattern.Spacing
import Expectation.Proofs.Table

/-!
# Selections

An expansion is told apart by the way in which it takes each segment. Listed with the leftmost
segment varying slowest, these selections are all there are, in lexicographic order and each once;
expanding a pattern goes through them in this order.
-/

namespace Expectation

/-- The number of ways in which a segment can be taken. -/
def Segment.ways : Segment → Nat
  | .literal _ => 1
  | .flag _ => 2
  | .choice alternatives => alternatives.length

namespace Pattern

/-- For each segment the way in which it is taken: a flag is taken in way 0 and omitted in way 1,
and a choice is taken in the way of one of its alternatives. -/
abbrev Selection := List Nat

/-- The selection takes every segment in one of its ways. -/
def Selection.Of (selection : Selection) (parts : List Segment) : Prop :=
  List.Forall₂ (fun way part => way < part.ways) selection parts

/-- All selections, the leftmost segment varying slowest. -/
def selections : List Segment → List Selection
  | [] => [[]]
  | part :: parts => (List.range part.ways).flatMap fun way => (selections parts).map (way :: ·)

/-- The pieces into which the edges of flags cut the text of a selection. -/
def pieces : List Segment → Selection → List Text
  | .literal text :: parts, _ :: selection => (pieces parts selection).modifyHead (text ++ ·)
  | .choice alternatives :: parts, way :: selection =>
    (pieces parts selection).modifyHead (alternatives.getD way [] ++ ·)
  | .flag name :: parts, way :: selection =>
    if way = 0 then [] :: name :: pieces parts selection else [] :: pieces parts selection
  | _, _ => [[]]

/-- The name that a selection stands for. -/
def nameOf (parts : List Segment) (selection : Selection) : Text := spaced (pieces parts selection)

/-- The flags that a selection records, where the later one of the same name holds. -/
def recorded : List Segment → Selection → Flags
  | .flag name :: parts, way :: selection => withFlag name (way = 0) (recorded parts selection)
  | _ :: parts, _ :: selection => recorded parts selection
  | _, _ => .empty

/-- The flags of a selection in order, with whether each is taken. -/
def presence : List Segment → Selection → List (Text × Bool)
  | .flag name :: parts, way :: selection => (name, way = 0) :: presence parts selection
  | _ :: parts, _ :: selection => presence parts selection
  | _, _ => []

/-- Every selection is listed. -/
theorem mem_selections {parts : List Segment} {selection : Selection} :
    selection ∈ selections parts ↔ selection.Of parts := by
  induction parts generalizing selection with
  | nil => simp [selections, Selection.Of]
  | cons part parts ih =>
    rw [selections, List.mem_flatMap]
    constructor
    · rintro ⟨way, hway, hmem⟩
      obtain ⟨rest, hrest, rfl⟩ := List.mem_map.1 hmem
      exact List.Forall₂.cons (List.mem_range.1 hway) (ih.1 hrest)
    · intro h
      cases h with
      | cons hway hrest =>
        exact ⟨_, List.mem_range.2 hway, List.mem_map_of_mem (ih.2 hrest)⟩

/-- The selections are listed in lexicographic order, each once. -/
theorem pairwise_selections (parts : List Segment) :
    (selections parts).Pairwise (List.Lex (· < ·)) := by
  induction parts with
  | nil => simp [selections]
  | cons part parts ih =>
    rw [selections, List.pairwise_flatMap]
    constructor
    · intro way _
      rw [List.pairwise_map]
      exact ih.imp fun h => .cons h
    · apply List.pairwise_lt_range.imp
      intro way way' hlt selection hs selection' hs'
      obtain ⟨rest, _, rfl⟩ := List.mem_map.1 hs
      obtain ⟨rest', _, rfl⟩ := List.mem_map.1 hs'
      exact .rel hlt

private theorem length_selections_cons (part : Segment) (parts : List Segment) :
    (selections (part :: parts)).length = part.ways * (selections parts).length := by
  simp [selections, List.length_flatMap]

/-- There are two selections for each flag, times the number of alternatives of each choice. -/
theorem length_selections (parts : List Segment) :
    (selections parts).length = 2 ^ (parts.filterMap Segment.flag?).length *
      ((parts.filterMap Segment.alternatives?).map List.length).prod := by
  induction parts with
  | nil => simp [selections]
  | cons part parts ih =>
    rw [length_selections_cons, ih]
    cases part with
    | literal text =>
      simp [Segment.ways, Segment.flag?, Segment.alternatives?, List.filterMap_cons]
    | flag name =>
      simp [Segment.ways, Segment.flag?, Segment.alternatives?, List.filterMap_cons, Nat.pow_succ']
      rw [Nat.mul_assoc]
    | choice alternatives =>
      simp [Segment.ways, Segment.flag?, Segment.alternatives?, List.filterMap_cons]
      rw [Nat.mul_left_comm]

/-- There is always a piece. -/
theorem pieces_ne_nil (parts : List Segment) (selection : Selection) :
    pieces parts selection ≠ [] := by
  induction parts generalizing selection with
  | nil => simp [pieces]
  | cons part parts ih =>
    cases selection with
    | nil => cases part <;> simp [pieces]
    | cons way selection =>
      cases part with
      | literal text => simpa [pieces] using ih selection
      | flag name =>
        rw [pieces]
        split <;> simp
      | choice alternatives => simpa [pieces] using ih selection

private theorem joinWith_modifyHead {texts : List Text} (h : texts ≠ []) (separator front : Text) :
    Text.joinWith separator (texts.modifyHead (front ++ ·)) =
      front ++ Text.joinWith separator texts := by
  match texts with
  | [] => exact absurd rfl h
  | [text] => rfl
  | text :: next :: texts => simp [Text.joinWith]

private theorem flatMap_range_getD (alternatives : List Text) (f : Text → List Expansion) :
    (List.range alternatives.length).flatMap (fun way => f (alternatives.getD way [])) =
      alternatives.flatMap f := by
  have hget : (List.range alternatives.length).map (alternatives.getD · []) = alternatives := by
    apply List.ext_getElem
    · simp
    · intro i _ hi
      simp [hi]
  conv_rhs => rw [← hget, List.flatMap_map]

/-- Expanding segments goes through their selections, the pieces joined by edges. -/
theorem marked_eq (parts : List Segment) :
    marked parts = (selections parts).map fun selection =>
      ⟨Text.joinWith [edge] (pieces parts selection), recorded parts selection⟩ := by
  induction parts with
  | nil => rfl
  | cons part parts ih =>
    have hne := pieces_ne_nil parts
    cases part with
    | literal text =>
      rw [marked, ih]
      simp [selections, Segment.ways, pieces, recorded, joinWith_modifyHead (hne _)]
    | flag name =>
      rw [marked, ih]
      simp [selections, Segment.ways, List.range_succ, pieces, recorded,
        Text.joinWith_cons_of_ne_nil (hne _), Text.joinWith_cons_of_ne_nil, Function.comp_def]
    | choice alternatives =>
      rw [marked, ih, ← flatMap_range_getD, selections, List.map_flatMap]
      simp [Segment.ways, pieces, recorded, joinWith_modifyHead (hne _), Function.comp_def]

private theorem exists_of_mem_modifyHead {texts : List Text} {front piece : Text} {c : Char}
    (hp : piece ∈ texts.modifyHead (front ++ ·)) (hc : c ∈ piece) :
    c ∈ front ∨ ∃ text ∈ texts, c ∈ text := by
  cases texts with
  | nil => simp at hp
  | cons text texts =>
    rcases List.mem_cons.1 hp with rfl | hp
    · rcases List.mem_append.1 hc with hc | hc
      · exact .inl hc
      · exact .inr ⟨text, by simp, hc⟩
    · exact .inr ⟨piece, by simp [hp], hc⟩

private theorem exists_of_mem_getD {texts : List Text} {way : Nat} {c : Char}
    (h : c ∈ texts.getD way []) : ∃ text ∈ texts, c ∈ text := by
  rw [List.getD_eq_getElem?_getD] at h
  cases hget : texts[way]? with
  | none => simp [hget] at h
  | some text =>
    rw [hget] at h
    exact ⟨text, List.mem_of_getElem? hget, h⟩

/-- A character of a piece is a character of some segment's text. -/
theorem mem_texts_of_mem_pieces {parts : List Segment} {selection : Selection} {piece : Text}
    {c : Char} (hp : piece ∈ pieces parts selection) (hc : c ∈ piece) :
    ∃ part ∈ parts, ∃ text ∈ part.texts, c ∈ text := by
  induction parts generalizing selection piece with
  | nil =>
    simp only [pieces, List.mem_singleton] at hp
    simp [hp] at hc
  | cons part parts ih =>
    -- A piece of the segments that follow has its characters from them.
    have hlater : ∀ selection, ∀ text ∈ pieces parts selection, c ∈ text →
        ∃ p ∈ part :: parts, ∃ text ∈ p.texts, c ∈ text := by
      intro selection text ht hct
      obtain ⟨p, hmem, h⟩ := ih ht hct
      exact ⟨p, by simp [hmem], h⟩
    cases selection with
    | nil =>
      have hnil : piece = [] := by cases part <;> simpa [pieces] using hp
      simp [hnil] at hc
    | cons way selection =>
      cases part with
      | literal text =>
        rcases exists_of_mem_modifyHead hp hc with hc | ⟨q, hq, hc⟩
        · exact ⟨.literal text, by simp, text, by simp [Segment.texts], hc⟩
        · exact hlater selection q hq hc
      | flag name =>
        rw [pieces] at hp
        split at hp
        · rcases List.mem_cons.1 hp with rfl | hp
          · simp at hc
          · rcases List.mem_cons.1 hp with rfl | hp
            · exact ⟨.flag piece, by simp, piece, by simp [Segment.texts], hc⟩
            · exact hlater selection piece hp hc
        · rcases List.mem_cons.1 hp with rfl | hp
          · simp at hc
          · exact hlater selection piece hp hc
      | choice alternatives =>
        rcases exists_of_mem_modifyHead hp hc with hc | ⟨q, hq, hc⟩
        · obtain ⟨text, ht, hc⟩ := exists_of_mem_getD hc
          exact ⟨.choice alternatives, by simp, text, ht, hc⟩
        · exact hlater selection q hq hc

/-- A selection tells of every flag whether it is taken. -/
theorem map_fst_presence {parts : List Segment} {selection : Selection}
    (h : selection.Of parts) :
    (presence parts selection).map Prod.fst = parts.filterMap Segment.flag? := by
  induction h with
  | nil => rfl
  | @cons way part selection parts _ _ ih =>
    cases part with
    | literal text => exact ih
    | flag name => exact congrArg (name :: ·) ih
    | choice alternatives => exact ih

/-- Where no flag recurs, what is recorded is each flag in order. -/
theorem entries_recorded {parts : List Segment} {selection : Selection} (h : selection.Of parts)
    (hn : (parts.filterMap Segment.flag?).Nodup) :
    (recorded parts selection).entries = presence parts selection := by
  induction h with
  | nil => rfl
  | @cons way part selection parts _ hrest ih =>
    cases part with
    | literal text => exact ih hn
    | choice alternatives => exact ih hn
    | flag name =>
      have hnames : (name :: parts.filterMap Segment.flag?).Nodup := hn
      have hlater := ih (List.nodup_cons.1 hnames).2
      have hkeys : ((Table.empty.set name (decide (way = 0))).keys ++
          (recorded parts selection).entries.map Prod.fst).Nodup := by
        rw [hlater, map_fst_presence hrest]
        exact hnames
      rw [recorded, withFlag, Table.entries_setAll hkeys, hlater]
      rfl

end Pattern
end Expectation

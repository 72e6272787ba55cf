import Mathlib.Data.List.Perm.Subperm
import Mathlib.Data.Set.Card
import Mathlib.Logic.Relation
import Expectation.Value.Store

/-!
# Values that hold one another

The parts of a value are the items of a list or tuple and the keys and values of a dictionary. A
value is acyclic if nothing in it holds itself, however often one object occurs. The way down from
an acyclic value is shorter than the cells of the store are many. From any value, circular or not,
only so many others can be reached, and no more of them hold something than there are cells.
-/

namespace Expectation.Store

/-- The parts of a value. -/
def parts (s : Store) (r : Ref) : List Ref :=
  match s.node r with
  | .list items => items
  | .tuple items => items
  | .dict entries => entries.map Prod.fst ++ entries.map Prod.snd
  | _ => []

/-- The first value holds the second as a part. -/
def Holds (s : Store) (a b : Ref) : Prop := b ∈ s.parts a

/-- Nothing that can be reached from the value by way of parts holds itself. -/
def Acyclic (s : Store) (a : Ref) : Prop :=
  ∀ x, Relation.ReflTransGen s.Holds a x → ¬ Relation.TransGen s.Holds x x

/-- The way down from a value is shorter than a number. -/
def Shallow (s : Store) : Nat → Ref → Prop
  | 0, _ => False
  | n + 1, a => ∀ x ∈ s.parts a, s.Shallow n x

/-- What can be reached from a value by way of parts, the value itself included. -/
def reach (s : Store) (a : Ref) : Set Ref := {x | Relation.ReflTransGen s.Holds a x}

/-- The values with parts that can be reached from a value and are not listed. -/
def unlisted (s : Store) (a : Ref) (listed : List Ref) : Set Ref :=
  {x ∈ s.reach a | s.parts x ≠ [] ∧ x ∉ listed}

variable {s : Store} {a b : Ref}

/-- A part of an acyclic value is acyclic. -/
theorem Acyclic.of_holds (h : s.Acyclic a) (hb : s.Holds a b) : s.Acyclic b :=
  fun x hx => h x (.head hb hx)

/-- A value is acyclic if parts always rank below their wholes. -/
theorem acyclic_of_rank (rank : Ref → Nat) (h : ∀ a b, s.Holds a b → rank b < rank a) :
    s.Acyclic a := by
  intro x _ hx
  have hlt : ∀ y, Relation.TransGen s.Holds x y → rank y < rank x := by
    intro y hy
    induction hy with
    | single hy => exact h _ _ hy
    | tail _ hy ih => exact Nat.lt_trans (h _ _ hy) ih
  exact Nat.lt_irrefl _ (hlt x hx)

/-- Only what is in a cell has parts. -/
theorem mem_cells_of_holds (h : s.Holds a b) : a ∈ (List.range s.cells.size).map Ref.cell := by
  cases a with
  | cell address =>
    have hlt : address < s.cells.size := by
      by_contra hge
      have hn : s.node (.cell address) = .none := by simp [node, hge]
      simp [Holds, parts, hn] at h
    simpa using hlt
  | _ => simp [Holds, parts, node] at h

-- The values above are all different and all in cells, so they are not more than the cells.
private theorem shallow_below (n : Nat) (path : List Ref) (hn : s.cells.size < path.length + n)
    (hnodup : path.Nodup) (hpath : ∀ x ∈ path, Relation.TransGen s.Holds x a)
    (ha : s.Acyclic a) : s.Shallow n a := by
  induction n generalizing a path with
  | zero =>
    have hcells : path ⊆ (List.range s.cells.size).map Ref.cell := by
      intro x hx
      obtain ⟨y, hy, _⟩ := Relation.TransGen.head'_iff.1 (hpath x hx)
      exact mem_cells_of_holds hy
    have hle := (hnodup.subperm hcells).length_le
    simp only [List.length_map, List.length_range] at hle
    omega
  | succ n ih =>
    intro x hx
    refine ih (a :: path) (by simp only [List.length_cons]; omega) ?_ ?_ (ha.of_holds hx)
    · refine List.nodup_cons.2 ⟨fun hmem => ?_, hnodup⟩
      exact ha a .refl (hpath a hmem)
    · intro y hy
      rcases List.mem_cons.1 hy with rfl | hy
      · exact .single hx
      · exact .tail (hpath y hy) hx

/-- The way down from an acyclic value is no longer than the cells are many. -/
theorem Acyclic.shallow (h : s.Acyclic a) : s.Shallow (s.cells.size + 1) a :=
  shallow_below _ [] (by simp) .nil (by simp) h

/-- A value is reached from itself. -/
theorem mem_reach_self (s : Store) (a : Ref) : a ∈ s.reach a :=
  Relation.ReflTransGen.refl

/-- A part of what is reached is reached. -/
theorem mem_reach_of_mem_parts (ha : b ∈ s.reach a) {x : Ref} (hx : x ∈ s.parts b) :
    x ∈ s.reach a :=
  Relation.ReflTransGen.tail ha hx

/-- Only so many values can be reached from one. -/
theorem finite_reach (s : Store) (a : Ref) : (s.reach a).Finite := by
  let cells := (List.range s.cells.size).map Ref.cell
  apply (List.finite_toSet (a :: cells.flatMap s.parts)).subset
  intro x hx
  rcases Relation.ReflTransGen.cases_tail hx with rfl | ⟨y, -, hy⟩
  · exact List.mem_cons_self
  · apply List.mem_cons_of_mem
    exact List.mem_flatMap.2 ⟨y, mem_cells_of_holds hy, hy⟩

section Unlisted

variable {listed later : List Ref}

private theorem unlisted_subset_reach : s.unlisted a listed ⊆ s.reach a := fun _ hx => hx.1

private theorem finite_unlisted : (s.unlisted a listed).Finite :=
  (s.finite_reach a).subset unlisted_subset_reach

/-- The more values are listed, the fewer are not. -/
theorem ncard_unlisted_le (s : Store) (a : Ref) (h : listed ⊆ later) :
    (s.unlisted a later).ncard ≤ (s.unlisted a listed).ncard := by
  apply Set.ncard_le_ncard _ finite_unlisted
  intro x hx
  exact ⟨hx.1, hx.2.1, fun hmem => hx.2.2 (h hmem)⟩

/-- A value with parts that was not listed is one less when it is. -/
theorem ncard_unlisted_cons_lt (hb : b ∈ s.reach a) (hparts : s.parts b ≠ [])
    (hlisted : b ∉ listed) :
    (s.unlisted a (b :: listed)).ncard < (s.unlisted a listed).ncard := by
  have hsub : s.unlisted a (b :: listed) ⊆ s.unlisted a listed :=
    fun x hx => ⟨hx.1, hx.2.1, fun hmem => hx.2.2 (List.mem_cons_of_mem b hmem)⟩
  apply Set.ncard_lt_ncard _ finite_unlisted
  rw [Set.ssubset_iff_of_subset hsub]
  exact ⟨b, ⟨hb, hparts, hlisted⟩, fun hx => hx.2.2 List.mem_cons_self⟩

/-- There are no more values with parts than can be reached. -/
theorem ncard_unlisted_le_reach (s : Store) (a : Ref) (listed : List Ref) :
    (s.unlisted a listed).ncard ≤ (s.reach a).ncard :=
  Set.ncard_le_ncard unlisted_subset_reach (s.finite_reach a)

/-- There are no more values with parts than cells. -/
theorem ncard_unlisted_le_size (s : Store) (a : Ref) (listed : List Ref) :
    (s.unlisted a listed).ncard ≤ s.cells.size := by
  let cells := (List.range s.cells.size).map Ref.cell
  have hsub : s.unlisted a listed ⊆ (cells.toFinset : Set Ref) := by
    intro x hx
    obtain ⟨y, hy⟩ := List.exists_mem_of_ne_nil _ hx.2.1
    exact List.mem_toFinset.2 (mem_cells_of_holds hy)
  calc (s.unlisted a listed).ncard
      ≤ (cells.toFinset : Set Ref).ncard := Set.ncard_le_ncard hsub cells.toFinset.finite_toSet
    _ = cells.toFinset.card := Set.ncard_coe_finset _
    _ ≤ cells.length := List.toFinset_card_le cells
    _ = s.cells.size := by simp [cells]

end Unlisted

end Expectation.Store

import Mathlib.Data.List.Infix
import Expectation.Proofs.Text.Lines

/-!
# Replacing pieces of texts

A text is read once from left to right, and the pieces that are recognised give way to others. What
a piece becomes is not read again. A table whose pieces do not begin one another recognises each of
them wherever it stands.
-/

namespace Expectation.Text

/-- Recognises a piece at the front of a text: its length, and what it becomes. -/
abbrev Reader := Text → Option (Nat × Text)

/-- A text in which the pieces that a reader recognises, from left to right, are replaced. -/
def replaced (reader : Reader) (t : Text) : Text :=
  go 0 t
where
  /-- Replace in the rest of a text, of which some characters belong to a piece that is replaced
  already. -/
  go : (skipped : Nat) → Text → Text
    | _, [] => []
    | skipped + 1, _ :: rest => go skipped rest
    | 0, c :: rest =>
      match reader (c :: rest) with
      | some (length, other) => other ++ go (length - 1) rest
      | none => c :: go 0 rest

/-- The reader of a table of pieces and what they become; the first one that fits is taken. -/
def ofTable (table : List (Text × Text)) : Reader := fun t =>
  (table.find? (·.1.isPrefixOf t)).map fun entry => (entry.1.length, entry.2)

variable {reader : Reader} {t rest : Text}

@[simp] theorem replaced_nil (reader : Reader) : replaced reader [] = [] := rfl

private theorem go_append (reader : Reader) (piece rest : Text) :
    replaced.go reader piece.length (piece ++ rest) = replaced reader rest := by
  induction piece with
  | nil => rfl
  | cons c piece ih => exact ih

/-- A piece that is recognised gives way to what it becomes. -/
theorem replaced_append {piece other : Text} (hne : piece ≠ [])
    (h : reader (piece ++ rest) = some (piece.length, other)) :
    replaced reader (piece ++ rest) = other ++ replaced reader rest := by
  obtain ⟨c, piece, rfl⟩ := List.exists_cons_of_ne_nil hne
  rw [List.cons_append] at h ⊢
  rw [replaced, replaced.go, h]
  exact congrArg (other ++ ·) (go_append reader piece rest)

/-- A character with which no piece begins stays. -/
theorem replaced_cons {c : Char} (h : reader (c :: rest) = none) :
    replaced reader (c :: rest) = c :: replaced reader rest := by
  rw [replaced, replaced.go, h]
  rfl

/-- A text stays if no piece begins with one of its characters. -/
theorem replaced_append_of_none (h : ∀ c ∈ t, ∀ rest, reader (c :: rest) = none) :
    replaced reader (t ++ rest) = t ++ replaced reader rest := by
  induction t with
  | nil => rfl
  | cons c t ih =>
    rw [List.cons_append, replaced_cons (h c (by simp) _), ih fun d hd => h d (by simp [hd])]
    rfl

variable {α : Type} {written kept : α → Text}

/-- Where replacing in what an item is written as leaves what is kept of it, replacing in the items
leaves what is kept of them. -/
theorem replaced_flatMap {items : List α}
    (h : ∀ item ∈ items, ∀ rest,
      replaced reader (written item ++ rest) = kept item ++ replaced reader rest) (rest : Text) :
    replaced reader (items.flatMap written ++ rest) =
      items.flatMap kept ++ replaced reader rest := by
  induction items with
  | nil => rfl
  | cons item items ih =>
    rw [List.flatMap_cons, List.append_assoc, h item (by simp),
      ih fun other hother => h other (by simp [hother]), List.flatMap_cons, List.append_assoc]

/-- The same for items line by line. -/
theorem replaced_joinWith {separator : Char} (hs : ∀ rest, reader (separator :: rest) = none)
    {lines : List (List α)}
    (h : ∀ line ∈ lines, ∀ item ∈ line, ∀ rest,
      replaced reader (written item ++ rest) = kept item ++ replaced reader rest) :
    replaced reader (joinWith [separator] (lines.map (·.flatMap written))) =
      joinWith [separator] (lines.map (·.flatMap kept)) := by
  induction lines with
  | nil => rfl
  | cons line lines ih =>
    have hline := replaced_flatMap (h line (by simp))
    by_cases hne : lines = []
    · simpa [hne, joinWith] using hline []
    · have hrest := ih fun other hother => h other (by simp [hother])
      rw [List.map_cons, joinWith_cons_of_ne_nil (by simpa using hne), hline,
        replaced_cons (hs _), hrest, List.map_cons, joinWith_cons_of_ne_nil (by simpa using hne)]

variable {table : List (Text × Text)}

/-- A piece of a table is recognised if no other begins with it or is a beginning of it. -/
theorem ofTable_append (h : table.Pairwise fun a b => ¬ a.1 <+: b.1 ∧ ¬ b.1 <+: a.1)
    {entry : Text × Text} (hmem : entry ∈ table) (rest : Text) :
    ofTable table (entry.1 ++ rest) = some (entry.1.length, entry.2) := by
  obtain ⟨before, after, rfl⟩ := List.append_of_mem hmem
  have hbefore : before.find? (·.1.isPrefixOf (entry.1 ++ rest)) = none := by
    rw [List.find?_eq_none]
    intro other hother hprefix
    have hapart := (List.pairwise_append.1 h).2.2 other hother entry List.mem_cons_self
    rcases List.prefix_or_prefix_of_prefix (List.isPrefixOf_iff_prefix.1 hprefix)
      (List.prefix_append entry.1 rest) with hin | hin
    · exact hapart.1 hin
    · exact hapart.2 hin
  have hhere : entry.1.isPrefixOf (entry.1 ++ rest) = true :=
    List.isPrefixOf_iff_prefix.2 (List.prefix_append _ _)
  rw [ofTable, List.find?_append, hbefore, Option.none_or, List.find?_cons, hhere]
  rfl

section

variable {first : Char} (hfirst : ∀ entry ∈ table, entry.1.head? = some first)

include hfirst

/-- Nothing is recognised at a character other than the one with which all pieces begin. -/
theorem ofTable_cons_of_ne {c : Char} (h : c ≠ first) (rest : Text) :
    ofTable table (c :: rest) = none := by
  rw [ofTable, Option.map_eq_none_iff, List.find?_eq_none]
  intro entry hentry hprefix
  obtain ⟨tail, htail⟩ := List.head?_eq_some_iff.1 (hfirst entry hentry)
  rw [List.isPrefixOf_iff_prefix, htail, List.cons_prefix_cons] at hprefix
  exact h hprefix.1.symm

/-- A text without the character with which all pieces begin stays. -/
theorem replaced_append_of_notMem (h : first ∉ t) (rest : Text) :
    replaced (ofTable table) (t ++ rest) = t ++ replaced (ofTable table) rest :=
  replaced_append_of_none fun _ hc => ofTable_cons_of_ne hfirst fun hsame => h (hsame ▸ hc)

/-- A piece of a table gives way to what it becomes. -/
theorem replaced_entry_append (h : table.Pairwise fun a b => ¬ a.1 <+: b.1 ∧ ¬ b.1 <+: a.1)
    {entry : Text × Text} (hmem : entry ∈ table) (rest : Text) :
    replaced (ofTable table) (entry.1 ++ rest) = entry.2 ++ replaced (ofTable table) rest := by
  refine replaced_append ?_ (ofTable_append h hmem rest)
  intro hnil
  simpa [hnil] using hfirst entry hmem

end

end Expectation.Text

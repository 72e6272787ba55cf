import Expectation.Session.Evaluation

/-!
# Flags as a dictionary

The flags with which a name was expanded are handed to an invocation as a dictionary. It can always
be built, and it holds each flag, under its name and in its place, with whether it was taken.
-/

namespace Expectation

namespace Store

/-- An object stays what it is when a further one is placed. -/
theorem node_put_of_ne_none {s : Store} {r : Ref} (n : Node) (h : s.node r ≠ .none) :
    (s.put n).2.node r = s.node r := by
  unfold put
  split
  · rfl
  · cases r with
    | cell address =>
      by_cases ha : address < s.cells.size
      · simp [node, Array.getElem?_push_lt ha, ha]
      · simp [node, Array.getElem?_eq_none (Nat.le_of_not_lt ha)] at h
    | _ => rfl

/-- The object of a text is the text. -/
theorem node_of_text? {s : Store} {r : Ref} {t : Text} (h : s.text? r = some t) :
    s.node r = .text t := by
  unfold text? at h
  split at h
  · next hn => cases h; exact hn
  · cases h

/-- A text stays what it is when a further object is placed. -/
theorem text?_put_of_text? {s : Store} {r : Ref} {t : Text} (n : Node) (h : s.text? r = some t) :
    (s.put n).2.text? r = some t := by
  have hn := node_of_text? h
  rw [text?, node_put_of_ne_none n (by simp [hn]), hn]

/-- A placed text is that text. -/
theorem text?_put_text (s : Store) (t : Text) :
    (s.put (.text t)).2.text? (s.put (.text t)).1 = some t := by
  rw [text?, node_put]

/-- Texts match if they hold the same. -/
theorem matching?_of_text? {s : Store} {a b : Ref} {x y : Text} (ha : s.text? a = some x)
    (hb : s.text? b = some y) : s.matching? a b = some (decide (x = y)) := by
  have hx := node_of_text? ha
  have hy := node_of_text? hb
  unfold matching?
  split
  · next hab =>
    subst hab
    rw [hx] at hy
    cases hy
    simp
  · simp [equal?, nesting, equalWithin, hx, hy]

/-- A text may be a key. -/
theorem isKey_of_text? {s : Store} {r : Ref} {t : Text} (h : s.text? r = some t) :
    s.isKey r = true := by
  simp [isKey, nesting, isKeyWithin, node_of_text? h]

/-- A text that is the key of no entry is not found. -/
theorem lookup?_eq_none_of_text? {s : Store} {key : Ref} {t : Text} (hk : s.text? key = some t)
    (entries : List (Ref × Ref))
    (h : ∀ entry ∈ entries, ∃ other, s.text? entry.1 = some other ∧ other ≠ t) :
    s.lookup? key entries = some none := by
  unfold lookup?
  induction entries with
  | nil => rfl
  | cons entry rest ih =>
    obtain ⟨other, ho, hne⟩ := h entry (by simp)
    have hm : s.matching? key entry.1 = some false := by
      rw [matching?_of_text? hk ho]
      simp [Ne.symm hne]
    rw [findEntry, hm]
    exact ih fun e he => h e (by simp [he])

end Store

/-- A dictionary's entries read as flags: names with truth values. -/
def Store.ReadsAs (s : Store) (entries : List (Ref × Ref)) (flags : List (Text × Bool)) : Prop :=
  entries.map (fun entry => (s.text? entry.1, entry.2)) =
    flags.map fun flag => (some flag.1, .bool flag.2)

namespace Store.ReadsAs

/-- A further object does not change how entries read. -/
theorem put {s : Store} {entries : List (Ref × Ref)} {flags : List (Text × Bool)}
    (h : s.ReadsAs entries flags) (n : Node) : (s.put n).2.ReadsAs entries flags := by
  induction entries generalizing flags with
  | nil =>
    cases flags with
    | nil => rfl
    | cons flag flags => simp [ReadsAs] at h
  | cons entry entries ih =>
    cases flags with
    | nil => simp [ReadsAs] at h
    | cons flag flags =>
      simp only [ReadsAs, List.map_cons, List.cons.injEq, Prod.mk.injEq] at h
      have ht := @ih flags h.2
      simp only [ReadsAs, List.map_cons, List.cons.injEq, Prod.mk.injEq]
      exact ⟨⟨text?_put_of_text? n h.1.1, h.1.2⟩, ht⟩

/-- Every entry has the name of some flag for its key. -/
theorem exists_name {s : Store} {entries : List (Ref × Ref)} {flags : List (Text × Bool)}
    (h : s.ReadsAs entries flags) {entry : Ref × Ref} (he : entry ∈ entries) :
    ∃ name ∈ flags.map Prod.fst, s.text? entry.1 = some name := by
  have hmem := List.mem_map_of_mem (f := fun entry => (s.text? entry.1, entry.2)) he
  rw [h] at hmem
  obtain ⟨flag, hf, heq⟩ := List.mem_map.1 hmem
  simp only [Prod.mk.injEq] at heq
  exact ⟨flag.1, List.mem_map_of_mem hf, heq.1.symm⟩

/-- The value under a name is that of the flag. -/
theorem lookupText? {s : Store} {entries : List (Ref × Ref)} {flags : List (Text × Bool)}
    (h : s.ReadsAs entries flags) (name : Text) :
    s.lookupText? name entries = (flags.find? (·.1 = name)).map fun flag => .bool flag.2 := by
  induction entries generalizing flags with
  | nil =>
    cases flags with
    | nil => rfl
    | cons flag flags => simp [ReadsAs] at h
  | cons entry entries ih =>
    cases flags with
    | nil => simp [ReadsAs] at h
    | cons flag flags =>
      simp only [ReadsAs, List.map_cons, List.cons.injEq, Prod.mk.injEq] at h
      have hrest := ih h.2
      rw [Store.lookupText?, List.find?_cons, List.find?_cons, h.1.1]
      by_cases hname : flag.1 = name
      · simp [hname, h.1.2]
      · simpa [hname, Store.lookupText?] using hrest

end Store.ReadsAs

/-- Further flags are added to a dictionary in their places. -/
theorem buildEntries_flags (search : ClassifierSearch) (s : Store) (entries : List (Ref × Ref))
    (before flags : List (Text × Bool)) (h : s.ReadsAs entries before)
    (hn : ((before ++ flags).map Prod.fst).Nodup) :
    ∃ built s', Template.buildEntries search s entries
        (flags.map fun flag => (.fresh (.text flag.1), .known (.bool flag.2))) = .ok (built, s') ∧
      s'.ReadsAs built (before ++ flags) := by
  induction flags generalizing s entries before with
  | nil => exact ⟨entries, s, rfl, by simpa using h⟩
  | cons flag flags ih =>
    have hkey := s.text?_put_text flag.1
    have hread := h.put (.text flag.1)
    have hnew : ∀ entry ∈ entries, ∃ other,
        (s.put (.text flag.1)).2.text? entry.1 = some other ∧ other ≠ flag.1 := by
      intro entry he
      obtain ⟨other, ho, ht⟩ := hread.exists_name he
      refine ⟨other, ht, ?_⟩
      rintro rfl
      rw [List.map_append, List.nodup_append] at hn
      exact hn.2.2 flag.1 ho flag.1 (by simp) rfl
    have hlookup := Store.lookup?_eq_none_of_text? hkey entries hnew
    have happend : (s.put (.text flag.1)).2.ReadsAs
        (entries ++ [((s.put (.text flag.1)).1, .bool flag.2)]) (before ++ [flag]) := by
      simp only [Store.ReadsAs, List.map_append, List.map_cons, List.map_nil, hkey]
      exact congrArg (· ++ [(some flag.1, Ref.bool flag.2)]) hread
    obtain ⟨built, s', hb, hr⟩ := ih _ _ _ happend (by simpa using hn)
    refine ⟨built, s', ?_, by simpa using hr⟩
    rw [← hb]
    simp [Template.buildEntries, Template.build, Store.isKey_of_text? hkey, Store.dictEntries,
      hlookup, bind, Except.bind]

/-- The dictionary of flags can be built and reads as the flags. -/
theorem build_flags (search : ClassifierSearch) (s : Store) (flags : Flags) :
    ∃ dictionary s' entries, flags.template.build search s = .ok (dictionary, s') ∧
      s'.node dictionary = .dict entries ∧ s'.ReadsAs entries flags.entries := by
  obtain ⟨built, s', hb, hr⟩ := buildEntries_flags search s [] [] flags.entries rfl
    (by simpa using flags.nodup_keys)
  refine ⟨_, _, built, ?_, Store.node_put _ _, hr.put (.dict built)⟩
  simp [Flags.template, Template.build, hb, bind, Except.bind, pure, Except.pure]

end Expectation

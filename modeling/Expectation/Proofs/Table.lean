import Expectation.Table

/-!
# Entries of tables

Keys that are new are listed behind the old ones, in the order in which they are set. So a table is
that of its entries, and an entry is all there is to know about a key.
-/

namespace Expectation.Table

variable {κ ν : Type} [DecidableEq κ]

/-- A new key goes to the end. -/
theorem entries_set_of_notMem {t : Table κ ν} {k : κ} (h : k ∉ t.keys) (v : ν) :
    (t.set k v).entries = t.entries ++ [(k, v)] := by
  have hc : ¬ t.contains k = true := fun hc => h ((t.contains_iff_mem_keys k).1 hc)
  rw [set, dif_neg hc]

/-- New keys go to the end in their order. -/
theorem entries_setAll {t : Table κ ν} {entries : List (κ × ν)}
    (h : (t.keys ++ entries.map Prod.fst).Nodup) :
    (t.setAll entries).entries = t.entries ++ entries := by
  induction entries generalizing t with
  | nil => simp [setAll]
  | cons entry entries ih =>
    have hnew : entry.1 ∉ t.keys := by
      intro hmem
      rw [List.nodup_append] at h
      exact h.2.2 _ hmem entry.1 (by simp) rfl
    have hkeys : (t.set entry.1 entry.2).keys = t.keys ++ [entry.1] := by
      rw [keys_set, if_neg hnew]
    have hrest : ((t.set entry.1 entry.2).keys ++ entries.map Prod.fst).Nodup := by
      rw [hkeys, List.append_assoc]
      exact h
    have := ih hrest
    rw [entries_set_of_notMem hnew, List.append_assoc] at this
    exact this

/-- The table of entries with different keys lists just these. -/
theorem entries_ofList {entries : List (κ × ν)} (h : (entries.map Prod.fst).Nodup) :
    (ofList entries).entries = entries := by
  have hkeys : ((empty : Table κ ν).keys ++ entries.map Prod.fst).Nodup := by
    rw [keys_empty, List.nil_append]
    exact h
  rw [ofList, entries_setAll hkeys]
  rfl

/-- A table is that of its entries. -/
theorem ofList_entries (t : Table κ ν) : ofList t.entries = t := by
  have h := entries_ofList t.nodup_keys
  obtain ⟨entries, hn⟩ := t
  generalize ofList entries = t' at h
  cases t'
  cases h
  rfl

/-- A key has a value exactly if there is an entry of both. -/
theorem get?_eq_some_iff {t : Table κ ν} {k : κ} {v : ν} :
    t.get? k = some v ↔ (k, v) ∈ t.entries := by
  constructor
  · intro h
    obtain ⟨entry, hfind, rfl⟩ := Option.map_eq_some_iff.1 h
    have hkey : entry.1 = k := by simpa using List.find?_some hfind
    rw [← hkey]
    exact List.mem_of_find?_eq_some hfind
  · exact get?_eq_some_of_mem

/-- Where entries of different keys are set, their values hold for these keys. -/
theorem get?_setAll {entries : List (κ × ν)} (h : (entries.map Prod.fst).Nodup) (t : Table κ ν)
    (k : κ) :
    (t.setAll entries).get? k = ((entries.find? (·.1 = k)).map Prod.snd).or (t.get? k) := by
  induction entries generalizing t with
  | nil => rfl
  | cons entry entries ih =>
    obtain ⟨hnew, hrest⟩ := List.nodup_cons.1 h
    have hset : t.setAll (entry :: entries) = (t.set entry.1 entry.2).setAll entries := rfl
    rw [hset, ih hrest, get?_set, List.find?_cons]
    by_cases hk : entry.1 = k
    · have hnone : entries.find? (·.1 = k) = none := by
        refine List.find?_eq_none.2 fun other hother => ?_
        have hne : other.1 ≠ entry.1 := fun heq => hnew (heq ▸ List.mem_map_of_mem hother)
        simpa [hk] using hne
      simp [hk, hnone]
    · simp [hk, Ne.symm hk]

end Expectation.Table

/-!
# Insertion-ordered tables

A table maps keys to values and lists its entries in the order in which their keys first came; no
key occurs twice. `set` gives a key its value and keeps the place of a key that is there; `setNew`
leaves a key that is there as it is. Every law is stated on `get?` and `keys`.
-/

namespace Expectation

/-- Entries of distinct keys, in the order in which the keys first came. -/
structure Table (κ : Type) (ν : Type) where
  entries : List (κ × ν)
  nodup_keys : (entries.map Prod.fst).Nodup
  deriving Repr, DecidableEq

namespace Table

variable {κ ν : Type}

/-- The table without entries. -/
def empty : Table κ ν := ⟨[], List.nodup_nil⟩

/-- The keys in the order in which they first came. -/
def keys (t : Table κ ν) : List κ := t.entries.map Prod.fst

@[simp] theorem keys_empty : (empty : Table κ ν).keys = [] := rfl

variable [DecidableEq κ]

/-- The value of a key. -/
def get? (t : Table κ ν) (k : κ) : Option ν := (t.entries.find? (·.1 = k)).map Prod.snd

/-- The table has an entry for the key. -/
def contains (t : Table κ ν) (k : κ) : Bool := (t.get? k).isSome

@[simp] theorem get?_empty (k : κ) : (empty : Table κ ν).get? k = none := rfl

theorem contains_iff_mem_keys (t : Table κ ν) (k : κ) : t.contains k = true ↔ k ∈ t.keys := by
  simp [contains, get?, keys, List.find?_isSome]

theorem get?_eq_none_iff (t : Table κ ν) (k : κ) : t.get? k = none ↔ k ∉ t.keys := by
  rw [← contains_iff_mem_keys]
  cases h : t.get? k <;> simp [contains, h]

/-- The value of the key of an entry is that of the entry. -/
theorem get?_eq_some_of_mem {t : Table κ ν} {entry : κ × ν} (h : entry ∈ t.entries) :
    t.get? entry.1 = some entry.2 := by
  have hn := t.nodup_keys
  obtain ⟨before, after, heq⟩ := List.append_of_mem h
  rw [heq, List.map_append, List.nodup_append] at hn
  have hbefore : before.find? (·.1 = entry.1) = none := by
    refine List.find?_eq_none.2 fun other hother => ?_
    simpa using hn.2.2 other.1 (List.mem_map_of_mem hother) entry.1 (by simp)
  rw [get?, heq, List.find?_append, hbefore, List.find?_cons]
  simp

/-- Replace the value of a key in its place. -/
def replaceEntry (entries : List (κ × ν)) (k : κ) (v : ν) : List (κ × ν) :=
  entries.map fun entry => if entry.1 = k then (entry.1, v) else entry

theorem keys_replaceEntry (entries : List (κ × ν)) (k : κ) (v : ν) :
    (replaceEntry entries k v).map Prod.fst = entries.map Prod.fst := by
  simp only [replaceEntry, List.map_map]
  congr 1
  funext entry
  by_cases h : entry.1 = k <;> simp [h]

omit [DecidableEq κ] in
theorem nodup_append_new {entries : List (κ × ν)} {k : κ}
    (hn : (entries.map Prod.fst).Nodup) (hk : k ∉ entries.map Prod.fst) (v : ν) :
    ((entries ++ [(k, v)]).map Prod.fst).Nodup := by
  rw [List.map_append, List.nodup_append]
  refine ⟨hn, by simp, fun a ha b hb => ?_⟩
  simp only [List.map_cons, List.map_nil, List.mem_singleton] at hb
  rintro rfl
  exact hk (hb ▸ ha)

/-- Give a key a value: in its place if the key is there, else at the end. -/
def set (t : Table κ ν) (k : κ) (v : ν) : Table κ ν :=
  if h : t.contains k then
    ⟨replaceEntry t.entries k v, (keys_replaceEntry t.entries k v).symm ▸ t.nodup_keys⟩
  else
    ⟨t.entries ++ [(k, v)],
      nodup_append_new t.nodup_keys (fun hk => h ((contains_iff_mem_keys t k).2 hk)) v⟩

/-- Give a key a value unless it has one. -/
def setNew (t : Table κ ν) (k : κ) (v : ν) : Table κ ν :=
  if t.contains k then t else t.set k v

/-- Set every entry of a list, in order. -/
def setAll (t : Table κ ν) (entries : List (κ × ν)) : Table κ ν :=
  entries.foldl (fun t entry => t.set entry.1 entry.2) t

/-- The table of a list of entries; a later value of a key wins, in the place of the first. -/
def ofList (entries : List (κ × ν)) : Table κ ν := empty.setAll entries

@[simp] theorem keys_set (t : Table κ ν) (k : κ) (v : ν) :
    (t.set k v).keys = if k ∈ t.keys then t.keys else t.keys ++ [k] := by
  by_cases h : t.contains k = true
  · rw [if_pos ((contains_iff_mem_keys t k).1 h)]
    simp only [set, h, dif_pos]
    exact keys_replaceEntry t.entries k v
  · rw [if_neg fun hk => h ((contains_iff_mem_keys t k).2 hk)]
    simp [set, h, keys]

@[simp] theorem keys_setNew (t : Table κ ν) (k : κ) (v : ν) :
    (t.setNew k v).keys = if k ∈ t.keys then t.keys else t.keys ++ [k] := by
  by_cases h : t.contains k = true
  · simp [setNew, h, (contains_iff_mem_keys t k).1 h]
  · simp [setNew, h]

theorem find?_replaceEntry (entries : List (κ × ν)) (k k' : κ) (v : ν) :
    ((replaceEntry entries k v).find? (·.1 = k')).map Prod.snd =
      ((entries.find? (·.1 = k')).map fun entry => if entry.1 = k then v else entry.2) := by
  have hsame : ((fun entry : κ × ν => decide (entry.1 = k')) ∘
      fun entry => if entry.1 = k then (entry.1, v) else entry) =
      fun entry => decide (entry.1 = k') := by
    funext entry
    by_cases h : entry.1 = k <;> simp [h]
  rw [replaceEntry, List.find?_map, hsame, Option.map_map]
  congr 1
  funext entry
  by_cases h : entry.1 = k <;> simp [h]

@[simp] theorem get?_set (t : Table κ ν) (k k' : κ) (v : ν) :
    (t.set k v).get? k' = if k' = k then some v else t.get? k' := by
  by_cases h : t.contains k = true
  · simp only [set, h, dif_pos]
    rw [get?, find?_replaceEntry, get?]
    cases hf : t.entries.find? (·.1 = k') with
    | none =>
      have hk : t.get? k' = none := by simp [get?, hf]
      by_cases hkk : k' = k
      · subst hkk
        simp [contains, hk] at h
      · simp [hkk]
    | some entry =>
      have he : entry.1 = k' := by simpa using List.find?_some hf
      by_cases hkk : k' = k <;> simp [he, hkk]
  · have hk : t.get? k = none := by simpa [contains] using h
    simp only [set, h, get?, List.find?_append, dif_neg, Bool.false_eq_true, not_false_eq_true]
    by_cases hkk : k' = k
    · subst hkk
      have : t.entries.find? (·.1 = k') = none := by simpa [get?] using hk
      simp [this]
    · simp [hkk, Ne.symm hkk]

@[simp] theorem get?_setNew (t : Table κ ν) (k k' : κ) (v : ν) :
    (t.setNew k v).get? k' = if k' = k then some ((t.get? k).getD v) else t.get? k' := by
  by_cases h : t.contains k = true
  · obtain ⟨w, hw⟩ := Option.isSome_iff_exists.1 h
    by_cases hkk : k' = k
    · subst hkk
      simp [setNew, h, hw]
    · simp [setNew, h, hkk]
  · have hk : t.get? k = none := by simpa [contains] using h
    simp [setNew, h, hk]

end Table

end Expectation

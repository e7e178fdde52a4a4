import Mathlib.Data.List.AList

/-!
# Tables

A `Table κ ν` is a hash map of the source: at most one value for each key.

* `Table.get`, `Table.set`, `Table.remove` with the simp lemmas for reading after writing;
* `Table.values` : the values, as a list; `mem_values_iff`, `values_set`, `values_perm_remove`.
-/

namespace CocoaWay.Lib

/-- A finite map. -/
abbrev Table (κ ν : Type) := AList fun _ : κ => ν

namespace Table

variable {κ ν : Type} [DecidableEq κ]

def get (t : Table κ ν) (k : κ) : Option ν := t.lookup k

def set (t : Table κ ν) (k : κ) (v : ν) : Table κ ν := t.insert k v

def remove (t : Table κ ν) (k : κ) : Table κ ν := t.erase k

omit [DecidableEq κ] in
/-- `values`. -/
def values (t : Table κ ν) : List ν := t.entries.map Sigma.snd

@[simp] theorem get_empty (k : κ) : (∅ : Table κ ν).get k = none :=
  AList.lookup_empty k

theorem get_set (t : Table κ ν) (k k' : κ) (v : ν) : (t.set k v).get k' = if k' = k then some v else t.get k' := by
  by_cases h : k' = k
  · subst h
    rw [if_pos rfl]
    exact AList.lookup_insert t
  · rw [if_neg h]
    exact AList.lookup_insert_ne h

@[simp] theorem get_set_self (t : Table κ ν) (k : κ) (v : ν) : (t.set k v).get k = some v := by
  rw [get_set, if_pos rfl]

theorem get_set_of_ne (t : Table κ ν) {k k' : κ} (v : ν) (h : k' ≠ k) : (t.set k v).get k' = t.get k' := by
  rw [get_set, if_neg h]

theorem get_remove (t : Table κ ν) (k k' : κ) : (t.remove k).get k' = if k' = k then none else t.get k' := by
  by_cases h : k' = k
  · subst h
    rw [if_pos rfl]
    exact AList.lookup_erase k' t
  · rw [if_neg h]
    exact AList.lookup_erase_ne h

@[simp] theorem get_remove_self (t : Table κ ν) (k : κ) : (t.remove k).get k = none := by
  rw [get_remove, if_pos rfl]

theorem get_remove_of_ne (t : Table κ ν) {k k' : κ} (h : k' ≠ k) : (t.remove k).get k' = t.get k' := by
  rw [get_remove, if_neg h]

variable {t : Table κ ν} {k : κ}

theorem remove_of_get_none (h : t.get k = none) : t.remove k = t := by
  apply AList.ext
  have hk : k ∉ t := AList.lookup_eq_none.1 h
  exact List.kerase_of_notMem_keys hk

/-! ## Values -/

theorem mem_values_iff {v : ν} : v ∈ t.values ↔ ∃ k, t.get k = some v := by
  unfold values get
  rw [List.mem_map]
  constructor
  · rintro ⟨⟨k, w⟩, hm, rfl⟩
    exact ⟨k, AList.mem_lookup_iff.2 hm⟩
  · rintro ⟨k, hk⟩
    exact ⟨⟨k, v⟩, AList.mem_lookup_iff.1 hk, rfl⟩

theorem values_set (t : Table κ ν) (k : κ) (v : ν) : (t.set k v).values = v :: (t.remove k).values := by
  show (List.kinsert k v t.entries).map Sigma.snd = v :: (List.kerase k t.entries).map Sigma.snd
  rw [List.kinsert_def, List.map_cons]

theorem values_set_of_none (h : t.get k = none) (v : ν) :
    (t.set k v).values = v :: t.values := by
  rw [values_set, remove_of_get_none h]

theorem values_perm_remove {v : ν} (h : t.get k = some v) :
    t.values.Perm (v :: (t.remove k).values) := by
  have hm : (⟨k, v⟩ : Sigma fun _ : κ => ν) ∈ t.entries := AList.mem_lookup_iff.1 h
  obtain ⟨w, l₁, l₂, -, he, hk⟩ := List.exists_of_kerase (List.mem_keys_of_mem hm)
  have hw : t.get k = some w := by
    apply AList.mem_lookup_iff.2
    rw [he]
    exact List.mem_append_right l₁ List.mem_cons_self
  obtain rfl : v = w := Option.some.inj (h.symm.trans hw)
  show (t.entries.map Sigma.snd).Perm (v :: (List.kerase k t.entries).map Sigma.snd)
  rw [hk, he, List.map_append, List.map_append, List.map_cons]
  exact List.perm_middle

end Table

end CocoaWay.Lib

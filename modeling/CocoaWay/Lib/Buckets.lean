import Mathlib.Data.List.Perm.Basic
import Mathlib.Data.List.Dedup
import Mathlib.Tactic.TypeStar

/-!
# Buckets of records

* `bucket key rows k` : the records of a key; `bucketKeys` : the keys, by their first record;
* `sole` : the only element of a list; `sole_eq_some`, `sole_perm`;
* `assigned` : what a dictionary has after some assignments; `assigned_eq_some_iff`, `assigned_perm` : their order
  does not matter where a key has one value.
-/

namespace CocoaWay.Lib

variable {α κ ν : Type*} [DecidableEq κ]

/-! ## Buckets -/

def bucket (key : α → Option κ) (rows : List α) (k : κ) : List α := rows.filter fun r => key r = some k

def bucketKeys (key : α → Option κ) (rows : List α) : List κ := (rows.filterMap key).eraseDups

def sole : List α → Option α
  | [r] => some r
  | _ => none

variable {key : α → Option κ} {rows rows' : List α} {k : κ} {r : α}

theorem sole_eq_some : sole rows = some r ↔ rows = [r] := by
  unfold sole
  split
  · simp
  next h =>
    constructor
    · intro hnone
      cases hnone
    · intro hone
      exact absurd hone (h r)

theorem sole_perm (h : rows.Perm rows') : sole rows = sole rows' := by
  refine Option.ext fun r => ?_
  rw [sole_eq_some, sole_eq_some]
  constructor
  · rintro rfl
    exact h.symm.eq_singleton
  · rintro rfl
    exact h.eq_singleton

theorem bucket_perm (h : rows.Perm rows') (k : κ) : (bucket key rows k).Perm (bucket key rows' k) := h.filter _

theorem mem_bucket : r ∈ bucket key rows k ↔ r ∈ rows ∧ key r = some k := by
  simp [bucket]

theorem mem_bucketKeys : k ∈ bucketKeys key rows ↔ ∃ r ∈ rows, key r = some k := by
  simp [bucketKeys]

theorem mem_bucketKeys_of_mem (h : r ∈ rows) (hk : key r = some k) :
    k ∈ bucketKeys key rows := mem_bucketKeys.2 ⟨r, h, hk⟩

theorem nodup_eraseDups (l : List κ) : l.eraseDups.Nodup := by
  generalize hn : l.length = n
  induction n using Nat.strongRecOn generalizing l with
  | _ n ih =>
    cases l with
    | nil => exact List.nodup_nil
    | cons a l =>
      have hlt : (l.filter fun b => !b == a).length < n := by
        have hle := List.length_filter_le (fun b => !b == a) l
        rw [List.length_cons] at hn
        omega
      rw [List.eraseDups_cons, List.nodup_cons]
      exact ⟨by simp, ih _ hlt _ rfl⟩

theorem nodup_bucketKeys (key : α → Option κ) (rows : List α) : (bucketKeys key rows).Nodup := nodup_eraseDups _

theorem bucketKeys_perm (key : α → Option κ) (h : rows.Perm rows') :
    (bucketKeys key rows).Perm (bucketKeys key rows') := by
  refine (List.perm_ext_iff_of_nodup (nodup_bucketKeys key rows) (nodup_bucketKeys key rows')).2 fun k => ?_
  rw [mem_bucketKeys, mem_bucketKeys]
  simp only [h.mem_iff]

theorem mem_bucketKeys_of_bucket (h : bucket key rows k = r :: rows') : k ∈ bucketKeys key rows := by
  have hmem : r ∈ bucket key rows k := by
    rw [h]
    exact List.mem_cons_self
  obtain ⟨hr, hk⟩ := mem_bucket.1 hmem
  exact mem_bucketKeys_of_mem hr hk

/-! ## Assignments -/

/-- The value of a key after the assignments. -/
def assigned (assignments : List (κ × ν)) (k : κ) : Option ν := assignments.reverse.lookup k

variable {l l' : List (κ × ν)} {v : ν}

/-- A key has one value. -/
def Functional (l : List (κ × ν)) : Prop := ∀ k v v', (k, v) ∈ l → (k, v') ∈ l → v = v'

theorem mem_of_lookup (h : l.lookup k = some v) : (k, v) ∈ l := by
  induction l with
  | nil => cases h
  | cons e l ih =>
    obtain ⟨k', v'⟩ := e
    rw [List.lookup_cons] at h
    split at h
    next heq =>
      obtain rfl := eq_of_beq heq
      obtain rfl := Option.some.inj h
      exact List.mem_cons_self
    · exact List.mem_cons_of_mem _ (ih h)

theorem exists_lookup (h : (k, v) ∈ l) : ∃ v', l.lookup k = some v' := by
  induction l with
  | nil => cases h
  | cons e l ih =>
    obtain ⟨k', v'⟩ := e
    rw [List.lookup_cons]
    split
    · exact ⟨v', rfl⟩
    next hne =>
      rcases List.mem_cons.1 h with heq | h
      · cases heq
        simp at hne
      · exact ih h

theorem assigned_eq_some_iff (hl : Functional l) : assigned l k = some v ↔ (k, v) ∈ l := by
  constructor
  · intro h
    exact List.mem_reverse.1 (mem_of_lookup h)
  · intro h
    obtain ⟨v', hv'⟩ := exists_lookup (List.mem_reverse.2 h)
    have hmem := List.mem_reverse.1 (mem_of_lookup hv')
    rw [hl k v v' h hmem]
    exact hv'

omit [DecidableEq κ] in
theorem Functional.perm (hl : Functional l) (h : l.Perm l') : Functional l' := fun k v v' hv hv' =>
  hl k v v' (h.mem_iff.2 hv) (h.mem_iff.2 hv')

theorem assigned_perm (hl : Functional l) (h : l.Perm l') (k : κ) : assigned l k = assigned l' k := by
  refine Option.ext fun v => ?_
  rw [assigned_eq_some_iff hl, assigned_eq_some_iff (hl.perm h), h.mem_iff]

end CocoaWay.Lib

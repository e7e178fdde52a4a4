import Mathlib.Data.List.Basic

/-!
# Slices of a list that is written to

* `slice l start n` : the elements `start .. start + n`; `overwrite l start block` : the list after a write;
* `slice_overwrite_self`, `slice_overwrite_of_disjoint` : what a write changes and what it leaves;
* `chunks n l` : the whole blocks of `n` elements, as `chunks_exact` gives them;
* `ext_blocks` : lists of as many elements with the same blocks are the same;
* `foldlM_overwrite` : after writes to different blocks each has what was written to it.
-/

namespace CocoaWay.Lib

variable {α : Type*} {l l' : List α} {start n : Nat}

def slice (l : List α) (start n : Nat) : List α := (l.drop start).take n

def overwrite (l : List α) (start : Nat) (block : List α) : List α :=
  l.take start ++ block ++ l.drop (start + block.length)

def chunks (n : Nat) (l : List α) : List (List α) := (List.range (l.length / n)).map fun i => slice l (n * i) n

theorem slice_length (h : start + n ≤ l.length) : (slice l start n).length = n := by
  simp only [slice, List.length_take, List.length_drop]
  omega

theorem slice_getElem? (l : List α) (start n i : Nat) :
    (slice l start n)[i]? = if i < n then l[start + i]? else none := by
  unfold slice
  split
  · next h => rw [List.getElem?_take_of_lt h, List.getElem?_drop]
  · next h => exact List.getElem?_take_eq_none (by omega)

theorem slice_slice {inner m : Nat} (h : inner + m ≤ n) :
    slice (slice l start n) inner m = slice l (start + inner) m := by
  apply List.ext_getElem?
  intro i
  simp only [slice_getElem?]
  split
  · next hi =>
    rw [if_pos (by omega), Nat.add_assoc]
  · rfl

theorem slice_drop (l : List α) (k start n : Nat) : slice (l.drop k) start n = slice l (k + start) n := by
  simp only [slice, List.drop_drop]

theorem slice_append_right {front rest : List α} (h : front.length ≤ start) :
    slice (front ++ rest) start n = slice rest (start - front.length) n := by
  simp only [slice, List.drop_append, List.drop_eq_nil_of_le h, List.nil_append]

theorem slice_append_left {front rest : List α} (h : front.length = n) : slice (front ++ rest) 0 n = front := by
  simp [slice, ← h]

section Overwrite

variable {block : List α}

theorem overwrite_append (front rest block : List α) :
    overwrite (front ++ rest) front.length block = front ++ block ++ rest.drop block.length := by
  simp [overwrite, List.drop_append]

theorem overwrite_length (h : start + block.length ≤ l.length) : (overwrite l start block).length = l.length := by
  simp only [overwrite, List.length_append, List.length_take, List.length_drop]
  omega

theorem overwrite_getElem? (h : start + block.length ≤ l.length) (i : Nat) :
    (overwrite l start block)[i]? = if start ≤ i ∧ i < start + block.length then block[i - start]? else l[i]? := by
  have hlen : (l.take start).length = start := by
    rw [List.length_take]
    omega
  unfold overwrite
  by_cases hi : i < start
  · rw [List.append_assoc, List.getElem?_append_left (by omega), List.getElem?_take_of_lt hi, if_neg (by omega)]
  · by_cases hi' : i < start + block.length
    · rw [List.append_assoc, List.getElem?_append_right (by omega), List.getElem?_append_left (by omega), hlen,
        if_pos (by omega)]
    · rw [List.getElem?_append_right (by simp only [List.length_append]; omega), List.getElem?_drop, if_neg (by omega)]
      congr 1
      simp only [List.length_append]
      omega

theorem slice_overwrite_self (h : start + block.length ≤ l.length) :
    slice (overwrite l start block) start block.length = block := by
  apply List.ext_getElem?
  intro i
  rw [slice_getElem?]
  split
  · next hi => rw [overwrite_getElem? h, if_pos (by omega), Nat.add_sub_cancel_left]
  · next hi => exact (List.getElem?_eq_none (by omega)).symm

theorem slice_overwrite_of_disjoint (h : start + block.length ≤ l.length) {start' : Nat}
    (hd : start' + n ≤ start ∨ start + block.length ≤ start') :
    slice (overwrite l start block) start' n = slice l start' n := by
  apply List.ext_getElem?
  intro i
  simp only [slice_getElem?]
  split
  · rw [overwrite_getElem? h, if_neg (by omega)]
  · rfl

end Overwrite

/-! ## Blocks -/

section Blocks

theorem ext_blocks {count : Nat} (hn : 0 < n) (h : l.length = n * count) (h' : l'.length = n * count)
    (hs : ∀ i < count, slice l (n * i) n = slice l' (n * i) n) : l = l' := by
  apply List.ext_getElem?
  intro i
  by_cases hi : i < n * count
  · have hq : i / n < count := Nat.div_lt_of_lt_mul hi
    have hget := congrArg (·[i % n]?) (hs (i / n) hq)
    simpa only [slice_getElem?, if_pos (Nat.mod_lt i hn), Nat.div_add_mod] using hget
  · rw [List.getElem?_eq_none (by omega), List.getElem?_eq_none (by omega)]

theorem length_of_mem_chunks {c : List α} (hc : c ∈ chunks n l) : c.length = n := by
  obtain ⟨i, hi, rfl⟩ := List.mem_map.1 hc
  refine slice_length ?_
  have hle := Nat.mul_le_mul_left n (List.mem_range.1 hi)
  have hdiv := Nat.mul_div_le l.length n
  rw [Nat.mul_succ] at hle
  omega

/-- The blocks of a part are those of the whole list from where the part starts. -/
theorem chunks_slice {count : Nat} (hn : 0 < n) (h : start + n * count ≤ l.length) :
    chunks n (slice l start (n * count)) = (List.range count).map fun i => slice l (start + n * i) n := by
  unfold chunks
  rw [slice_length h, Nat.mul_div_cancel_left count hn]
  refine List.map_congr_left fun i hi => ?_
  have hle := Nat.mul_le_mul_left n (List.mem_range.1 hi)
  rw [Nat.mul_succ] at hle
  exact slice_slice hle

theorem disjoint_blocks {i j : Nat} (hij : i ≠ j) : n * i + n ≤ n * j ∨ n * j + n ≤ n * i := by
  rcases Nat.lt_or_gt_of_ne hij with h | h
  · left
    simpa only [Nat.mul_succ] using Nat.mul_le_mul_left n h
  · right
    simpa only [Nat.mul_succ] using Nat.mul_le_mul_left n h

theorem foldlM_congr {σ β ε : Type*} {f g : σ → β → Except ε σ} {entries : List β}
    (h : ∀ b ∈ entries, ∀ s, f s b = g s b) (s : σ) : entries.foldlM f s = entries.foldlM g s := by
  induction entries generalizing s with
  | nil => rfl
  | cons b entries ih =>
    rw [List.foldlM_cons, List.foldlM_cons, h b (by simp)]
    congr 1
    funext s'
    exact ih (fun b' hb' => h b' (by simp [hb'])) s'

/-- The elements of a fold over parts, one part after the other. -/
theorem foldlM_flatMap {σ β γ ε : Type*} (step : σ → γ → Except ε σ) (f : β → List γ) (entries : List β) (s : σ) :
    (entries.flatMap f).foldlM step s = entries.foldlM (fun s b => (f b).foldlM step s) s := by
  induction entries generalizing s with
  | nil => rfl
  | cons b entries ih =>
    rw [List.flatMap_cons, List.foldlM_append, List.foldlM_cons]
    congr 1
    funext s'
    exact ih s'

/-- Writes to different blocks: each is found in the result, and the other blocks are as they were. -/
theorem foldlM_overwrite {ε β : Type*} {count : Nat} {step : List α → β → Except ε (List α)} (index : β → Nat)
    (block : β → List α) {entries : List β}
    (hstep : ∀ l, l.length = n * count → ∀ e ∈ entries, step l e = .ok (overwrite l (n * index e) (block e)))
    (hblock : ∀ e ∈ entries, (block e).length = n) (hindex : ∀ e ∈ entries, index e < count)
    (hnodup : (entries.map index).Nodup) (hl : l.length = n * count) :
    ∃ l', entries.foldlM step l = .ok l' ∧ l'.length = n * count ∧
      (∀ e ∈ entries, slice l' (n * index e) n = block e) ∧
      ∀ i, (∀ e ∈ entries, index e ≠ i) → slice l' (n * i) n = slice l (n * i) n := by
  induction entries generalizing l with
  | nil => exact ⟨l, rfl, hl, by simp, fun _ _ => rfl⟩
  | cons e entries ih =>
    have hlen : (block e).length = n := hblock e (by simp)
    have hfits : n * index e + (block e).length ≤ l.length := by
      have hle := Nat.mul_le_mul_left n (hindex e (by simp))
      rw [Nat.mul_succ] at hle
      omega
    rw [List.map_cons, List.nodup_cons] at hnodup
    obtain ⟨l', hfold, hl', hentries, hothers⟩ :=
      ih (fun l hl e he => hstep l hl e (by simp [he])) (fun e he => hblock e (by simp [he]))
        (fun e he => hindex e (by simp [he])) hnodup.2 ((overwrite_length hfits).trans hl)
    have hfresh : ∀ e' ∈ entries, index e' ≠ index e := fun e' he' hsame =>
      hnodup.1 (List.mem_map.2 ⟨e', he', hsame⟩)
    refine ⟨l', ?_, hl', fun e' he' => ?_, fun i hi => ?_⟩
    · rw [List.foldlM_cons, hstep l hl e (by simp)]
      exact hfold
    · rcases List.mem_cons.1 he' with rfl | he'
      · have hself := slice_overwrite_self hfits
        rw [hlen] at hself
        rw [hothers _ hfresh, hself]
      · exact hentries e' he'
    · rw [hothers i fun e' he' => hi e' (by simp [he'])]
      have hdisjoint := disjoint_blocks (n := n) (hi e (by simp)).symm
      exact slice_overwrite_of_disjoint hfits (by omega)

end Blocks

end CocoaWay.Lib

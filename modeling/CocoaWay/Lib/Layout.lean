import Mathlib.Algebra.Ring.Nat
import Mathlib.Data.List.Basic
import Mathlib.Tactic.Common

/-!
# Numbers at fixed offsets

* `toLe`, `fromLe` : the bytes of a number, the least first, and the number of some bytes; `fromLe_toLe`, `toLe_fromLe`;
* `Field`, `put`, `slice` : a number at an offset, written over what is there, and bytes that are read;
* `putAll` : some fields, one after another; `slice_putAll` : each is read back if they are apart; `slice_putAll_apart`.
-/

namespace CocoaWay.Lib.Layout

/-! ## Numbers -/

/-- The lowest bytes of a number. -/
@[grind] def toLe : Nat → Nat → List UInt8
  | 0, _ => []
  | size + 1, n => UInt8.ofNat (n % 256) :: toLe size (n / 256)

def fromLe : List UInt8 → Nat
  | [] => 0
  | b :: bytes => b.toNat + 256 * fromLe bytes

theorem length_toLe (size n : Nat) : (toLe size n).length = size := by
  induction size generalizing n with
  | zero => rfl
  | succ size ih => rw [toLe, List.length_cons, ih]

theorem fromLe_toLe {size n : Nat} (h : n < 256 ^ size) : fromLe (toLe size n) = n := by
  induction size generalizing n with
  | zero =>
    rw [Nat.pow_zero] at h
    exact (Nat.lt_one_iff.1 h).symm
  | succ size ih =>
    have hdiv : n / 256 < 256 ^ size := Nat.div_lt_of_lt_mul (by rwa [Nat.mul_comm, ← Nat.pow_succ])
    have hbyte : (UInt8.ofNat (n % 256)).toNat = n % 256 := by
      rw [UInt8.toNat_ofNat']
      omega
    rw [toLe, fromLe, ih hdiv, hbyte]
    omega

theorem toLe_fromLe (l : List UInt8) : toLe l.length (fromLe l) = l := by
  induction l with
  | nil => rfl
  | cons b l ih =>
    have hb := b.toNat_lt
    have hmod : (b.toNat + 256 * fromLe l) % 256 = b.toNat := by omega
    have hdiv : (b.toNat + 256 * fromLe l) / 256 = fromLe l := by omega
    rw [List.length_cons, fromLe, toLe, hmod, hdiv, ih, UInt8.ofNat_toNat]

/-! ## Fields -/

structure Field where
  offset : Nat
  size : Nat
  value : Nat

variable {f : Field} {fs : List Field} {l : List UInt8} {offset size i : Nat}

def Field.stop (f : Field) : Nat := f.offset + f.size

def Field.bytes (f : Field) : List UInt8 := toLe f.size f.value

def put (l : List UInt8) (f : Field) : List UInt8 := l.take f.offset ++ (f.bytes ++ l.drop f.stop)

def slice (l : List UInt8) (offset size : Nat) : List UInt8 := (l.drop offset).take size

/-- The bytes from `offset` are none of the field. -/
def Apart (f : Field) (offset size : Nat) : Prop := offset + size ≤ f.offset ∨ f.stop ≤ offset

instance : Decidable (Apart f offset size) := inferInstanceAs (Decidable (_ ∨ _))

theorem length_bytes (f : Field) : f.bytes.length = f.size := length_toLe f.size f.value

theorem length_put (h : f.stop ≤ l.length) : (put l f).length = l.length := by
  unfold Field.stop at h
  simp only [put, List.length_append, List.length_take, List.length_drop, length_bytes, Field.stop]
  omega

theorem getElem?_slice : (slice l offset size)[i]? = if i < size then l[offset + i]? else none := by
  rw [slice, List.getElem?_take, List.getElem?_drop]

theorem getElem?_put (h : f.stop ≤ l.length) :
    (put l f)[i]? = if f.offset ≤ i ∧ i < f.stop then f.bytes[i - f.offset]? else l[i]? := by
  unfold Field.stop at h
  have htake : (l.take f.offset).length = f.offset := by
    rw [List.length_take]
    omega
  unfold put
  by_cases hlow : i < f.offset
  · rw [List.getElem?_append_left (by omega), List.getElem?_take, if_pos hlow, if_neg (by omega)]
  · rw [List.getElem?_append_right (by omega), htake]
    by_cases hhigh : i < f.stop
    · unfold Field.stop at hhigh ⊢
      rw [List.getElem?_append_left (by rw [length_bytes]; omega), if_pos (by omega)]
    · unfold Field.stop at hhigh ⊢
      rw [List.getElem?_append_right (by rw [length_bytes]; omega), length_bytes, List.getElem?_drop, if_neg (by omega)]
      congr 1
      omega

theorem slice_put_self (h : f.stop ≤ l.length) : slice (put l f) f.offset f.size = f.bytes := by
  refine List.ext_getElem? fun i => ?_
  rw [getElem?_slice, getElem?_put h]
  unfold Field.stop
  by_cases hi : i < f.size
  · rw [if_pos hi, if_pos (by omega), Nat.add_sub_cancel_left]
  · rw [if_neg hi, List.getElem?_eq_none (by rw [length_bytes]; omega)]

theorem slice_put_apart (h : f.stop ≤ l.length) (ha : Apart f offset size) :
    slice (put l f) offset size = slice l offset size := by
  refine List.ext_getElem? fun i => ?_
  rw [getElem?_slice, getElem?_slice, getElem?_put h]
  by_cases hi : i < size
  · have hout : ¬(f.offset ≤ offset + i ∧ offset + i < f.stop) := by
      rcases ha with ha | ha <;> omega
    rw [if_neg hout]
  · rw [if_neg hi, if_neg hi]

/-! ## Several fields -/

def putAll (l : List UInt8) (fs : List Field) : List UInt8 := fs.foldl put l

theorem length_putAll (h : ∀ f ∈ fs, f.stop ≤ l.length) : (putAll l fs).length = l.length := by
  induction fs generalizing l with
  | nil => rfl
  | cons f fs ih =>
    obtain ⟨hf, hfs⟩ := List.forall_mem_cons.1 h
    have hlength := length_put hf
    exact (ih fun g hg => hlength.symm ▸ hfs g hg).trans hlength

theorem slice_putAll_apart (h : ∀ f ∈ fs, f.stop ≤ l.length) (ha : ∀ f ∈ fs, Apart f offset size) :
    slice (putAll l fs) offset size = slice l offset size := by
  induction fs generalizing l with
  | nil => rfl
  | cons f fs ih =>
    obtain ⟨hf, hfs⟩ := List.forall_mem_cons.1 h
    obtain ⟨haf, hafs⟩ := List.forall_mem_cons.1 ha
    have hlength := length_put hf
    exact (ih (fun g hg => hlength.symm ▸ hfs g hg) hafs).trans (slice_put_apart hf haf)

theorem slice_putAll (h : ∀ f ∈ fs, f.stop ≤ l.length) (hp : fs.Pairwise fun f g => Apart g f.offset f.size)
    (hf : f ∈ fs) :
    slice (putAll l fs) f.offset f.size = f.bytes := by
  induction fs generalizing l with
  | nil => cases hf
  | cons g fs ih =>
    obtain ⟨hg, hfs⟩ := List.forall_mem_cons.1 h
    obtain ⟨hag, hpfs⟩ := List.pairwise_cons.1 hp
    have hlength := length_put hg
    have hfits : ∀ f ∈ fs, f.stop ≤ (put l g).length := fun f hf => hlength.symm ▸ hfs f hf
    rcases List.mem_cons.1 hf with rfl | hf
    · exact (slice_putAll_apart hfits hag).trans (slice_put_self hg)
    · exact ih hfits hpfs hf

end CocoaWay.Lib.Layout

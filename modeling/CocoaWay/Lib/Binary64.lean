import Mathlib

/-!
# The binary64 format

* `clamp` : a number kept between two others, as `f64::clamp` computes it;
* `not_isNaN_add`, `not_isNaN_mul` : sums and products of finite numbers are numbers;
* `clamp_bounds`, `isFinite_of_bounds` : what is clamped is within its bounds, and finite when they are.
-/

namespace CocoaWay.Lib.Binary64
open Float.Model UnpackedFloat

variable {a b x lo hi : Float} {spec : Format}

/-- `x` if it is between the bounds, else the nearest of them. -/
def clamp (x lo hi : Float) : Float :=
  let x := if x < lo then lo else x
  if hi < x then hi else x

/-! ## Numbers -/

theorem isNaN_unpack (v : BitVec spec.numBits) :
    (unpack spec v).isNaN = decide (unpackExponent v = (-1#_) ∧ unpackMantissa v ≠ 0#_) := by
  unfold UnpackedFloat.unpack
  dsimp only
  split
  · split <;> simp_all [UnpackedFloat.isNaN]
  · split
    · split <;> simp_all [UnpackedFloat.isNaN]
    · simp_all [UnpackedFloat.isNaN]

/-- Packing a number does not make it anything else. -/
theorem isNaN_unpack_pack {u : UnpackedFloat} (h : u.isNaN = false) : (unpack spec (pack spec u)).isNaN = false := by
  rw [isNaN_unpack, decide_eq_false_iff_not]
  fun_cases UnpackedFloat.pack with
  | case1 => cases h
  | case2 s => simp [packedInfinity]
  | case3 s => simp [packedZero]
  | case4 s m e hm biased hbig => simp [packedInfinity]
  | case5 s m e hm bits biased hsmall hnormal =>
    rintro ⟨hexponent, -⟩
    rw [unpackExponent_packComponents] at hexponent
    have hn := congrArg BitVec.toNat hexponent
    rw [BitVec.neg_one_eq_allOnes, BitVec.toNat_allOnes, BitVec.toNat_ofNat, Nat.mod_eq_of_lt (by omega)] at hn
    omega
  | case6 s m e hm bits biased hsmall hsubnormal =>
    rintro ⟨hexponent, -⟩
    rw [unpackExponent_packComponents] at hexponent
    have hn := congrArg BitVec.toNat hexponent
    have hlt : 1 < 2 ^ spec.exponentBits := Nat.one_lt_two_pow (Nat.ne_of_gt spec.he)
    rw [BitVec.neg_one_eq_allOnes, BitVec.toNat_allOnes, BitVec.toNat_ofNat, Nat.zero_mod] at hn
    omega

theorem isNaN_roundWithAccuracy (s : Sign) (m : Nat) (e : Int) (accuracy : Accuracy) :
    (roundWithAccuracy spec s m e accuracy).isNaN = false := by
  unfold roundWithAccuracy
  dsimp only
  split <;> rfl

theorem isNaN_normalize (m e : Int) (s : Sign) : (normalize spec m e s).isNaN = false := by
  unfold UnpackedFloat.normalize
  split
  · exact isNaN_roundWithAccuracy ..
  · rfl
  · exact isNaN_roundWithAccuracy ..

theorem not_isNaN_add (ha : a.isFinite = true) (hb : b.isFinite = true) : (a + b).isNaN = false := by
  apply isNaN_unpack_pack
  change a.toModel.unpack.isFinite = true at ha
  change b.toModel.unpack.isFinite = true at hb
  generalize a.toModel.unpack = u at ha ⊢
  generalize b.toModel.unpack = v at hb ⊢
  fun_cases UnpackedFloat.add with
  | case11 => exact isNaN_normalize ..
  | _ => simp_all [UnpackedFloat.isFinite, UnpackedFloat.isNaN]

theorem not_isNaN_mul (ha : a.isFinite = true) (hb : b.isFinite = true) : (a * b).isNaN = false := by
  apply isNaN_unpack_pack
  change a.toModel.unpack.isFinite = true at ha
  change b.toModel.unpack.isFinite = true at hb
  generalize a.toModel.unpack = u at ha ⊢
  generalize b.toModel.unpack = v at hb ⊢
  fun_cases UnpackedFloat.mul with
  | case11 => exact isNaN_roundWithAccuracy ..
  | _ => simp_all [UnpackedFloat.isFinite, UnpackedFloat.isNaN]

/-! ## Bounds -/

theorem lt_iff : a < b ↔ a.toModel.unpack.compare b.toModel.unpack = some .lt :=
  decide_eq_true_iff.trans beq_iff_eq

theorem le_iff : a ≤ b ↔ (a.toModel.unpack.compare b.toModel.unpack).any (·.isLE) = true :=
  decide_eq_true_iff

theorem compare_swap (u v : UnpackedFloat) : v.compare u = (u.compare v).map Ordering.swap := by
  have hfinite : ∀ (e e' : Int) (m m' : Nat),
      (compare e' e).then (compare m' m) = ((compare e e').then (compare m m')).swap := by
    intro e e' m m'
    rw [Ordering.swap_then, Int.compare_swap, Nat.compare_swap]
  cases u with
  | notANumber => cases v <;> rfl
  | infinity s => cases v with
    | infinity s' => cases s <;> cases s' <;> rfl
    | _ => cases s <;> rfl
  | zero s => cases v with
    | infinity s' => cases s' <;> rfl
    | finite s' => cases s' <;> rfl
    | _ => rfl
  | finite s m e => cases v with
    | infinity s' => cases s' <;> rfl
    | zero => cases s <;> rfl
    | notANumber => rfl
    | finite s' m' e' =>
      cases s <;> cases s'
      · exact congrArg (fun o => some o.swap) (hfinite ..)
      · rfl
      · rfl
      · exact congrArg some (hfinite ..)

theorem compare_isSome {u v : UnpackedFloat} (hu : u.isNaN = false) (hv : v.isNaN = false) :
    (u.compare v).isSome = true := by
  fun_cases UnpackedFloat.compare <;> simp_all [UnpackedFloat.isNaN]

theorem le_of_not_lt (ha : a.isNaN = false) (hb : b.isNaN = false) (h : ¬a < b) : b ≤ a := by
  rw [lt_iff] at h
  rw [le_iff, compare_swap]
  obtain ⟨o, ho⟩ := Option.isSome_iff_exists.1 (compare_isSome ha hb)
  rw [ho, Option.some.injEq] at h
  rw [ho, Option.map_some, Option.any_some, Ordering.isLE_swap]
  exact Ordering.isGE_iff_ne_lt.2 h

theorem not_isNaN_of_le (h : a ≤ b) : a.isNaN = false ∧ b.isNaN = false := by
  rw [le_iff] at h
  change a.toModel.unpack.isNaN = false ∧ b.toModel.unpack.isNaN = false
  generalize a.toModel.unpack = u at h ⊢
  generalize b.toModel.unpack = v at h ⊢
  cases u <;> cases v <;> simp_all [UnpackedFloat.compare, UnpackedFloat.isNaN]

theorem le_refl (ha : a.isNaN = false) : a ≤ a := by
  have hirrefl : ¬a < a := by
    intro h
    have hswap := compare_swap a.toModel.unpack a.toModel.unpack
    rw [lt_iff.1 h] at hswap
    cases hswap
  exact le_of_not_lt ha ha hirrefl

theorem clamp_bounds (hx : x.isNaN = false) (h : lo ≤ hi) : lo ≤ clamp x lo hi ∧ clamp x lo hi ≤ hi := by
  obtain ⟨hlo, hhi⟩ := not_isNaN_of_le h
  unfold clamp
  dsimp only
  by_cases hlt : x < lo
  · rw [if_pos hlt]
    split
    · exact ⟨h, le_refl hhi⟩
    · exact ⟨le_refl hlo, h⟩
  · rw [if_neg hlt]
    by_cases hgt : hi < x
    · rw [if_pos hgt]
      exact ⟨h, le_refl hhi⟩
    · rw [if_neg hgt]
      exact ⟨le_of_not_lt hx hlo hlt, le_of_not_lt hhi hx hgt⟩

theorem isFinite_of_bounds (hlo : lo.isFinite = true) (hhi : hi.isFinite = true) (h : lo ≤ x) (h' : x ≤ hi) :
    x.isFinite = true := by
  rw [le_iff] at h h'
  change lo.toModel.unpack.isFinite = true at hlo
  change hi.toModel.unpack.isFinite = true at hhi
  change x.toModel.unpack.isFinite = true
  generalize lo.toModel.unpack = l at hlo h
  generalize hi.toModel.unpack = r at hhi h'
  generalize x.toModel.unpack = u at h h' ⊢
  cases u with
  | zero s => rfl
  | finite s m e => rfl
  | notANumber => cases l <;> simp [UnpackedFloat.compare] at h
  | infinity s =>
    -- The infinities are above and below all finite numbers.
    cases s with
    | positive => cases r <;> simp_all [UnpackedFloat.compare, UnpackedFloat.isFinite]
    | negative => cases l <;> simp_all [UnpackedFloat.compare, UnpackedFloat.isFinite]

end CocoaWay.Lib.Binary64

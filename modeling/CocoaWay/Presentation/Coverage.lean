import Mathlib.Data.List.Induction
import CocoaWay.Presentation.Damage

/-!
# What the converted damage covers

* `clipBounds` : a rectangle clipped to the buffer; `foldl_extendBounds` : the coalesced bounds are the hull of the
  clipped rectangles;
* `Damage.Cut` : the pixels of damage whose scaled width and height are cut to the greatest `i32`;
* `coalesceDamage_contains` : the converted damage is the hull of these, no more and no less;
* `damage_coverage` : it is inside the buffer, and when it has all the pixels of the damage.
-/

namespace CocoaWay.Presentation

variable {width height : Int} {m : Mapping} {x y : Nat}

/-! ## Rectangles clipped to the buffer -/

def clipBounds (width height : Int) (r : Rect) : Bounds :=
  ⟨clampTo width r.x, clampTo height r.y, clampTo width (saturate (r.x + r.width)),
    clampTo height (saturate (r.y + r.height))⟩

/-- Some pixel is inside. -/
def Bounds.Inhabited (b : Bounds) : Prop := b.left < b.right ∧ b.top < b.bottom

instance (b : Bounds) : Decidable b.Inhabited := inferInstanceAs (Decidable (_ ∧ _))

def Bounds.union (b c : Bounds) : Bounds :=
  ⟨min b.left c.left, min b.top c.top, max b.right c.right, max b.bottom c.bottom⟩

/-- Bounds are the hull of some of the rectangles that are left of `damage` in the buffer, and contain all of them. -/
structure IsHull (width height : Int) (damage : List Rect) (b : Bounds) : Prop where
  contains : ∀ r ∈ damage, (clipBounds width height r).Inhabited →
    b.left ≤ (clipBounds width height r).left ∧ b.top ≤ (clipBounds width height r).top ∧
      (clipBounds width height r).right ≤ b.right ∧ (clipBounds width height r).bottom ≤ b.bottom
  left : ∃ r ∈ damage, (clipBounds width height r).Inhabited ∧ (clipBounds width height r).left = b.left
  top : ∃ r ∈ damage, (clipBounds width height r).Inhabited ∧ (clipBounds width height r).top = b.top
  right : ∃ r ∈ damage, (clipBounds width height r).Inhabited ∧ (clipBounds width height r).right = b.right
  bottom : ∃ r ∈ damage, (clipBounds width height r).Inhabited ∧ (clipBounds width height r).bottom = b.bottom

theorem extendBounds_eq (bounds : Option Bounds) (r : Rect) :
    extendBounds width height bounds r =
      if (clipBounds width height r).Inhabited then
        some (bounds.elim (clipBounds width height r) fun b => b.union (clipBounds width height r))
      else bounds := by
  unfold extendBounds
  dsimp only
  by_cases h : (clipBounds width height r).Inhabited
  · have hs : clampTo width r.x < clampTo width (saturate (r.x + r.width)) ∧
        clampTo height r.y < clampTo height (saturate (r.y + r.height)) := h
    rw [if_pos h, if_neg (by omega)]
    cases bounds <;> rfl
  · have he : ¬(clampTo width r.x < clampTo width (saturate (r.x + r.width)) ∧
        clampTo height r.y < clampTo height (saturate (r.y + r.height))) := h
    rw [if_neg h, if_pos (by omega)]

variable {scale start len size : Int} {damage : List Rect} {r : Rect} {b : Bounds} {p : Nat}

theorem IsHull.single (h : (clipBounds width height r).Inhabited)
    (hnone : ∀ r ∈ damage, ¬(clipBounds width height r).Inhabited) :
    IsHull width height (damage ++ [r]) (clipBounds width height r) where
  contains r' hr' hi := by
    rcases List.mem_append.1 hr' with hr' | hr'
    · exact absurd hi (hnone r' hr')
    · rw [List.mem_singleton.1 hr']
      omega
  left := ⟨r, by simp, h, rfl⟩
  top := ⟨r, by simp, h, rfl⟩
  right := ⟨r, by simp, h, rfl⟩
  bottom := ⟨r, by simp, h, rfl⟩

/-- A side of the hull is reached by the new rectangle or by the one that reached it before. -/
theorem exists_side (side : Bounds → Int) {old new : Int}
    (hold : ∃ r ∈ damage, (clipBounds width height r).Inhabited ∧ side (clipBounds width height r) = old)
    (hr : (clipBounds width height r).Inhabited) (hnew : new = old ∨ new = side (clipBounds width height r)) :
    ∃ r' ∈ damage ++ [r], (clipBounds width height r').Inhabited ∧ side (clipBounds width height r') = new := by
  rcases hnew with rfl | rfl
  · obtain ⟨r', hr', hi, hs⟩ := hold
    exact ⟨r', by simp [hr'], hi, hs⟩
  · exact ⟨r, by simp, hr, rfl⟩

theorem IsHull.extend (h : IsHull width height damage b) (hr : (clipBounds width height r).Inhabited) :
    IsHull width height (damage ++ [r]) (b.union (clipBounds width height r)) where
  contains r' hr' hi := by
    unfold Bounds.union
    rcases List.mem_append.1 hr' with hr' | hr'
    · have hb := h.contains r' hr' hi
      dsimp only
      omega
    · rw [List.mem_singleton.1 hr']
      dsimp only
      omega
  left := exists_side Bounds.left h.left hr (min_choice _ _)
  top := exists_side Bounds.top h.top hr (min_choice _ _)
  right := exists_side Bounds.right h.right hr (max_choice _ _)
  bottom := exists_side Bounds.bottom h.bottom hr (max_choice _ _)

/-- A rectangle that is clipped away changes no hull. -/
theorem IsHull.skip (h : IsHull width height damage b)
    (hr : ¬(clipBounds width height r).Inhabited) : IsHull width height (damage ++ [r]) b where
  contains r' hr' hi := by
    rcases List.mem_append.1 hr' with hr' | hr'
    · exact h.contains r' hr' hi
    · rw [List.mem_singleton.1 hr'] at hi
      exact absurd hi hr
  left := h.left.imp fun _ h => ⟨by simp [h.1], h.2⟩
  top := h.top.imp fun _ h => ⟨by simp [h.1], h.2⟩
  right := h.right.imp fun _ h => ⟨by simp [h.1], h.2⟩
  bottom := h.bottom.imp fun _ h => ⟨by simp [h.1], h.2⟩

/-- The loop: nothing while every rectangle was clipped away, else the hull of those that were not. -/
theorem foldl_extendBounds (width height : Int) (damage : List Rect) :
    match damage.foldl (extendBounds width height) none with
    | none => ∀ r ∈ damage, ¬(clipBounds width height r).Inhabited
    | some b => IsHull width height damage b := by
  induction damage using List.reverseRecOn with
  | nil => simp
  | append_singleton damage r ih =>
    rw [List.foldl_append, List.foldl_cons, List.foldl_nil, extendBounds_eq]
    generalize damage.foldl (extendBounds width height) none = bounds at ih ⊢
    by_cases hr : (clipBounds width height r).Inhabited
    · rw [if_pos hr]
      cases bounds with
      | none => exact IsHull.single hr ih
      | some b => exact IsHull.extend ih hr
    · rw [if_neg hr]
      cases bounds with
      | none =>
        intro r' hr'
        rcases List.mem_append.1 hr' with hr' | hr'
        · exact ih r' hr'
        · rw [List.mem_singleton.1 hr']
          exact hr
      | some b => exact IsHull.skip ih hr

/-! ## The pixels that are converted -/

/-- The pixels of damage in exact arithmetic, but for the scaled width and height: these are cut to the greatest
`i32`. -/
def Damage.Cut (m : Mapping) (x y : Nat) : Damage → Prop
  | .buffer r => r.Contains x y
  | .surface r => m.plain = true →
    Rect.Contains ⟨r.x * m.scale, r.y * m.scale, min (r.width * m.scale) i32Max, min (r.height * m.scale) i32Max⟩ x y

/-- A pixel is between pixels of a kind on each of the four sides. -/
def Hull (s : Nat → Nat → Prop) (x y : Nat) : Prop :=
  (∃ x' y', s x' y' ∧ x' ≤ x) ∧ (∃ x' y', s x' y' ∧ x ≤ x') ∧ (∃ x' y', s x' y' ∧ y' ≤ y) ∧ ∃ x' y', s x' y' ∧ y ≤ y'

/-- The buffer pixels of one of the rectangles. -/
def AnyCut (width height : Int) (m : Mapping) (damage : List Damage) (x y : Nat) : Prop :=
  (x : Int) < width ∧ (y : Int) < height ∧ ∃ d ∈ damage, d.Cut m x y

theorem clampTo_between_iff {hi : Int} (lo len : Int) (hhi : hi ≤ i32Max) (hp : (p : Int) < hi) :
    clampTo hi lo ≤ p ∧ p < clampTo hi (saturate (lo + len)) ↔ lo ≤ p ∧ p < lo + len := by
  unfold clampTo saturate i32Min i32Max at *
  omega

theorem saturate_between_iff {size a b : Int} (hsize : size ≤ i32Max) (hp : (p : Int) < size) :
    saturate a ≤ p ∧ p < saturate a + saturate b ↔ a ≤ p ∧ p < a + min b i32Max := by
  unfold saturate i32Min i32Max at *
  omega

theorem Bounds.contains_clip_iff (hw : width ≤ i32Max) (hh : height ≤ i32Max) (hx : (x : Int) < width)
    (hy : (y : Int) < height) (r : Rect) : (clipBounds width height r).Contains x y ↔ r.Contains x y := by
  have hx := clampTo_between_iff r.x r.width hw hx
  have hy := clampTo_between_iff r.y r.height hh hy
  unfold Bounds.Contains clipBounds Rect.Contains
  tauto

theorem damageRect_contains_iff (hw : width ≤ i32Max) (hh : height ≤ i32Max) (hx : (x : Int) < width)
    (hy : (y : Int) < height) (d : Damage) : (damageRect width height m d).Contains x y ↔ d.Cut m x y := by
  cases d with
  | buffer r => rfl
  | surface r =>
    by_cases hp : m.plain = true
    · rw [damageRect, if_neg (Mapping.plain_iff.1 hp)]
      have hx := saturate_between_iff (a := r.x * m.scale) (b := r.width * m.scale) hw hx
      have hy := saturate_between_iff (a := r.y * m.scale) (b := r.height * m.scale) hh hy
      unfold Damage.Cut Rect.Contains
      simp only [hp, true_implies]
      tauto
    · rw [damageRect, if_pos (Decidable.not_not.1 fun hn => hp (Mapping.plain_iff.2 hn))]
      refine ⟨fun _ h => absurd h hp, fun _ => ⟨?_, ?_, ?_, ?_⟩⟩ <;> dsimp only <;> omega

/-! ## The hull of the pixels -/

/-- Inside the buffer. -/
def Rect.Inside (width height : Int) (r : Rect) : Prop :=
  0 ≤ r.x ∧ 0 ≤ r.y ∧ 0 < r.width ∧ 0 < r.height ∧ r.x + r.width ≤ width ∧ r.y + r.height ≤ height

theorem clipBounds_le (hw : 0 ≤ width) (hh : 0 ≤ height) (r : Rect) :
    0 ≤ (clipBounds width height r).left ∧ 0 ≤ (clipBounds width height r).top ∧
      (clipBounds width height r).right ≤ width ∧ (clipBounds width height r).bottom ≤ height := by
  unfold clipBounds clampTo
  dsimp only
  omega

/-- What is left of a rectangle has pixels at its first and its last row and column, which damage converted to that
rectangle covers. -/
theorem exists_pixels (hw : 0 ≤ width ∧ width ≤ i32Max) (hh : 0 ≤ height ∧ height ≤ i32Max) {damage : List Damage}
    (hr : r ∈ damage.map (damageRect width height m)) (hi : (clipBounds width height r).Inhabited) :
    ∃ x y x' y' : Nat, AnyCut width height m damage x y ∧ AnyCut width height m damage x' y' ∧
      (x : Int) = (clipBounds width height r).left ∧ (y : Int) = (clipBounds width height r).top ∧
      (x' : Int) = (clipBounds width height r).right - 1 ∧ (y' : Int) = (clipBounds width height r).bottom - 1 := by
  obtain ⟨hl, ht, hrt, hb⟩ := clipBounds_le hw.1 hh.1 r
  obtain ⟨hlr, htb⟩ := hi
  have hcut : ∀ x y : Nat, (clipBounds width height r).Contains x y → AnyCut width height m damage x y := by
    intro x y hc
    obtain ⟨d, hd, rfl⟩ := List.mem_map.1 hr
    have hx : (x : Int) < width := hc.2.1.trans_le hrt
    have hy : (y : Int) < height := hc.2.2.2.trans_le hb
    rw [Bounds.contains_clip_iff hw.2 hh.2 hx hy, damageRect_contains_iff hw.2 hh.2 hx hy] at hc
    exact ⟨hx, hy, d, hd, hc⟩
  generalize clipBounds width height r = b at *
  refine ⟨b.left.toNat, b.top.toNat, (b.right - 1).toNat, (b.bottom - 1).toNat, hcut _ _ ?_, hcut _ _ ?_, ?_⟩
  · unfold Bounds.Contains
    omega
  · unfold Bounds.Contains
    omega
  · omega

theorem AnyCut.exists_clip (hw : width ≤ i32Max) (hh : height ≤ i32Max) {damage : List Damage}
    (h : AnyCut width height m damage x y) :
    ∃ r ∈ damage.map (damageRect width height m), (clipBounds width height r).Contains x y := by
  obtain ⟨hx, hy, d, hd, hc⟩ := h
  refine ⟨damageRect width height m d, List.mem_map_of_mem hd, ?_⟩
  rwa [Bounds.contains_clip_iff hw hh hx hy, damageRect_contains_iff hw hh hx hy]

theorem Bounds.Contains.inhabited (h : b.Contains x y) : b.Inhabited :=
  ⟨h.1.trans_lt h.2.1, h.2.2.1.trans_lt h.2.2.2⟩

theorem bufferDamageRects_eq_map (damage : List Damage) (width height : Int) (m : Mapping) :
    bufferDamageRects damage width height m = damage.map (damageRect width height m) := by
  cases damage <;> rfl

/-- The pixels inside a hull of rectangles are those inside the hull of the pixels of these. -/
theorem IsHull.contains_iff (hw : 0 ≤ width ∧ width ≤ i32Max) (hh : 0 ≤ height ∧ height ≤ i32Max) {damage : List Damage} (h : IsHull width height (damage.map (damageRect width height m)) b) :
    b.Contains x y ↔ Hull (AnyCut width height m damage) x y := by
  constructor
  · intro hc
    obtain ⟨r₁, hr₁, hi₁, hleft⟩ := h.left
    obtain ⟨r₂, hr₂, hi₂, hright⟩ := h.right
    obtain ⟨r₃, hr₃, hi₃, htop⟩ := h.top
    obtain ⟨r₄, hr₄, hi₄, hbottom⟩ := h.bottom
    obtain ⟨x₁, y₁, -, -, h₁, -, hx₁, -, -, -⟩ := exists_pixels hw hh hr₁ hi₁
    obtain ⟨-, -, x₂, y₂, -, h₂, -, -, hx₂, -⟩ := exists_pixels hw hh hr₂ hi₂
    obtain ⟨x₃, y₃, -, -, h₃, -, -, hy₃, -, -⟩ := exists_pixels hw hh hr₃ hi₃
    obtain ⟨-, -, x₄, y₄, -, h₄, -, -, -, hy₄⟩ := exists_pixels hw hh hr₄ hi₄
    obtain ⟨hl, hr, ht, hb⟩ := hc
    exact ⟨⟨x₁, y₁, h₁, by omega⟩, ⟨x₂, y₂, h₂, by omega⟩, ⟨x₃, y₃, h₃, by omega⟩, x₄, y₄, h₄, by omega⟩
  · rintro ⟨⟨x₁, y₁, h₁, hx₁⟩, ⟨x₂, y₂, h₂, hx₂⟩, ⟨x₃, y₃, h₃, hy₃⟩, x₄, y₄, h₄, hy₄⟩
    have hbounds : ∀ {x y : Nat}, AnyCut width height m damage x y → b.Contains x y := by
      intro x y hcut
      obtain ⟨r, hr, hc⟩ := hcut.exists_clip hw.2 hh.2
      obtain ⟨hl, ht, hr, hb⟩ := h.contains r hr hc.inhabited
      obtain ⟨h1, h2, h3, h4⟩ := hc
      exact ⟨hl.trans h1, h2.trans_le hr, ht.trans h3, h4.trans_le hb⟩
    obtain ⟨hl, -, -, -⟩ := hbounds h₁
    obtain ⟨-, hr, -, -⟩ := hbounds h₂
    obtain ⟨-, -, ht, -⟩ := hbounds h₃
    obtain ⟨-, -, -, hb⟩ := hbounds h₄
    unfold Bounds.Contains
    omega

/-- The region of the upload, for damage as committed. -/
def convertedDamage (width height : Int) (m : Mapping) (damage : List Damage) : Option Rect :=
  coalesceDamage (bufferDamageRects damage width height m) width height

/-- The converted damage is the hull of the pixels that the cut leaves. -/
theorem convertedDamage_contains (hw : 0 ≤ width ∧ width ≤ i32Max) (hh : 0 ≤ height ∧ height ≤ i32Max)
    (damage : List Damage) : (∃ u, convertedDamage width height m damage = some u ∧ u.Contains x y) ↔
      Hull (AnyCut width height m damage) x y := by
  have hfold := foldl_extendBounds width height (damage.map (damageRect width height m))
  rw [convertedDamage, coalesceDamage, bufferDamageRects_eq_map]
  generalize (damage.map (damageRect width height m)).foldl (extendBounds width height) none = bounds at hfold ⊢
  cases bounds with
  | none =>
    refine ⟨fun h => by simp at h, fun h => ?_⟩
    obtain ⟨⟨x', y', hcut, -⟩, -⟩ := h
    obtain ⟨r, hr, hc⟩ := hcut.exists_clip hw.2 hh.2
    exact absurd hc.inhabited (hfold r hr)
  | some b =>
    rw [← IsHull.contains_iff hw hh hfold]
    simp only [Option.map_some, Option.some.injEq, exists_eq_left']
    unfold Rect.Contains Bounds.Contains
    dsimp only
    omega

/-- Whatever is coalesced ends up inside the buffer. -/
theorem coalesceDamage_inside (hw : 0 ≤ width) (hh : 0 ≤ height) {u : Rect}
    (h : coalesceDamage damage width height = some u) : u.Inside width height := by
  have hfold := foldl_extendBounds width height damage
  rw [coalesceDamage] at h
  obtain ⟨b, he, rfl⟩ := Option.map_eq_some_iff.1 h
  rw [he] at hfold
  obtain ⟨r₁, -, -, hleft⟩ := hfold.left
  obtain ⟨r₂, hr₂, hi₂, hright⟩ := hfold.right
  obtain ⟨r₃, -, -, htop⟩ := hfold.top
  obtain ⟨r₄, hr₄, hi₄, hbottom⟩ := hfold.bottom
  have h₁ := clipBounds_le hw hh r₁
  have h₂ := clipBounds_le hw hh r₂
  have h₃ := clipBounds_le hw hh r₃
  have h₄ := clipBounds_le hw hh r₄
  have hin₂ := hfold.contains r₂ hr₂ hi₂
  have hin₄ := hfold.contains r₄ hr₄ hi₄
  unfold Bounds.Inhabited at hi₂ hi₄
  unfold Rect.Inside
  dsimp only
  omega

/-! ## When nothing is lost -/

/-- The converted damage is inside the buffer and has every pixel of it that the damage covers. -/
def Converted (width height : Int) (m : Mapping) (damage : List Damage) : Prop :=
  (∀ u, convertedDamage width height m damage = some u → u.Inside width height) ∧
    ∀ d ∈ damage, ∀ x y : Nat, (x : Int) < width → (y : Int) < height → d.Covers m x y →
      ∃ u, convertedDamage width height m damage = some u ∧ u.Contains x y

/-- What the damage covers of the buffer is within the hull of what it covers with scaled widths and heights cut to the
greatest `i32`. -/
def CutHarmless (width height : Int) (m : Mapping) (damage : List Damage) : Prop :=
  ∀ d ∈ damage, ∀ x y : Nat, (x : Int) < width → (y : Int) < height → d.Covers m x y →
    Hull (AnyCut width height m damage) x y

/-- Along one axis, damage has pixels of the buffer. -/
def AxisMeets (scale start len size : Int) : Prop := max 0 (start * scale) < min size ((start + len) * scale)

instance (scale start len size : Int) : Decidable (AxisMeets scale start len size) :=
  inferInstanceAs (Decidable (_ < _))

/-- A rectangle that loses no pixel: it has none, or neither axis loses one. -/
def Damage.Lossless (width height : Int) (m : Mapping) : Damage → Prop
  | .buffer _ => True
  | .surface r => m.plain = true → AxisMeets m.scale r.x r.width width → AxisMeets m.scale r.y r.height height →
    AxisExact m.scale r.x r.width width ∧ AxisExact m.scale r.y r.height height

instance (width height : Int) (m : Mapping) : (d : Damage) → Decidable (d.Lossless width height m)
  | .buffer _ => inferInstanceAs (Decidable True)
  | .surface _ => inferInstanceAs (Decidable (_ → _))

theorem AxisMeets.of_between (hp : (p : Int) < size) (h1 : start * scale ≤ p)
    (h2 : p < start * scale + len * scale) : AxisMeets scale start len size := by
  unfold AxisMeets
  rw [Int.add_mul]
  omega

theorem AxisExact.cut (h : AxisExact scale start len size) (hp : (p : Int) < size)
    (h2 : p < start * scale + len * scale) : p < start * scale + min (len * scale) i32Max := by
  unfold AxisExact at h
  rw [Int.add_mul] at h
  omega

/-- An axis that is not exact loses a pixel, and the cut has none after it. -/
theorem AxisMeets.exists_lost (hm : AxisMeets scale start len size) (he : ¬AxisExact scale start len size) :
    ∃ p : Nat, (p : Int) < size ∧ start * scale ≤ p ∧ p < start * scale + len * scale ∧
      ∀ q : Nat, q < start * scale + min (len * scale) i32Max → q < p := by
  unfold AxisMeets at hm
  unfold AxisExact at he
  rw [Int.add_mul] at hm he
  unfold i32Max at *
  refine ⟨(start * scale + 2147483647).toNat, ?_, ?_, ?_, ?_⟩
  · omega
  · omega
  · omega
  · intro q hq
    omega

theorem AxisMeets.exists_pixel (h : AxisMeets scale start len size) :
    ∃ p : Nat, (p : Int) < size ∧ start * scale ≤ p ∧ p < start * scale + len * scale := by
  unfold AxisMeets at h
  rw [Int.add_mul] at h
  refine ⟨(start * scale).toNat, ?_, ?_, ?_⟩ <;> omega

theorem Damage.Lossless.cut {d : Damage} (h : d.Lossless width height m) (hx : (x : Int) < width)
    (hy : (y : Int) < height)
    (hc : d.Covers m x y) : d.Cut m x y := by
  cases d with
  | buffer r => exact hc
  | surface r =>
    intro hp
    obtain ⟨h1, h2, h3, h4⟩ := hc hp
    obtain ⟨hax, hay⟩ := h hp (.of_between hx h1 h2) (.of_between hy h3 h4)
    exact ⟨h1, hax.cut hx h2, h3, hay.cut hy h4⟩

theorem converted_iff (hw : 0 ≤ width ∧ width ≤ i32Max) (hh : 0 ≤ height ∧ height ≤ i32Max) (damage : List Damage) :
    Converted width height m damage ↔ CutHarmless width height m damage := by
  have hhull : ∀ x y : Nat, (∃ u, convertedDamage width height m damage = some u ∧ u.Contains x y) ↔
      Hull (AnyCut width height m damage) x y := fun x y => convertedDamage_contains hw hh damage
  constructor
  · intro h d hd x y hx hy hc
    exact (hhull x y).1 (h.2 d hd x y hx hy hc)
  · intro h
    refine ⟨fun u hu => coalesceDamage_inside hw.1 hh.1 hu, fun d hd x y hx hy hc => ?_⟩
    exact (hhull x y).2 (h d hd x y hx hy hc)

theorem cutHarmless_of_lossless {damage : List Damage} (h : ∀ d ∈ damage, d.Lossless width height m) :
    CutHarmless width height m damage := by
  intro d hd x y hx hy hc
  have hcut : AnyCut width height m damage x y := ⟨hx, hy, d, hd, (h d hd).cut hx hy hc⟩
  exact ⟨⟨x, y, hcut, le_rfl⟩, ⟨x, y, hcut, le_rfl⟩, ⟨x, y, hcut, le_rfl⟩, x, y, hcut, le_rfl⟩

/-- For one rectangle on its own, the cut does no harm only if no pixel is lost. -/
theorem lossless_of_cutHarmless {d : Damage} (h : CutHarmless width height m [d]) : d.Lossless width height m := by
  cases d with
  | buffer r => trivial
  | surface r =>
    intro hp hmx hmy
    have hcut : ∀ {x y : Nat}, AnyCut width height m [.surface r] x y → (x : Int) < r.x * m.scale +
        min (r.width * m.scale) i32Max ∧ y < r.y * m.scale + min (r.height * m.scale) i32Max := by
      rintro x y ⟨-, -, d, hd, hc⟩
      obtain rfl := List.mem_singleton.1 hd
      obtain ⟨-, h2, -, h4⟩ := hc hp
      exact ⟨h2, h4⟩
    constructor
    · by_contra hax
      obtain ⟨p, hpw, hp1, hp2, hafter⟩ := hmx.exists_lost hax
      obtain ⟨q, hqh, hq1, hq2⟩ := hmy.exists_pixel
      obtain ⟨-, ⟨x', y', hx', hle⟩, -, -⟩ := h (.surface r) (by simp) p q hpw hqh fun _ => ⟨hp1, hp2, hq1, hq2⟩
      have hlt := hafter x' (hcut hx').1
      omega
    · by_contra hay
      obtain ⟨p, hpw, hp1, hp2⟩ := hmx.exists_pixel
      obtain ⟨q, hqh, hq1, hq2, hafter⟩ := hmy.exists_lost hay
      obtain ⟨-, -, -, ⟨x', y', hy', hle⟩⟩ := h (.surface r) (by simp) p q hpw hqh fun _ => ⟨hp1, hp2, hq1, hq2⟩
      have hlt := hafter y' (hcut hy').2
      omega

/-- The converted damage is right exactly when the cut does no harm; it does none when no rectangle loses a pixel, and
for a single rectangle only then. -/
theorem damage_coverage (hw : 0 ≤ width ∧ width ≤ i32Max) (hh : 0 ≤ height ∧ height ≤ i32Max) (m : Mapping)
    (damage : List Damage) : (Converted width height m damage ↔ CutHarmless width height m damage) ∧
      ((∀ d ∈ damage, d.Lossless width height m) → Converted width height m damage) ∧
      ∀ d : Damage, Converted width height m [d] ↔ d.Lossless width height m := by
  refine ⟨converted_iff hw hh damage, fun h => (converted_iff hw hh damage).2 (cutHarmless_of_lossless h), fun d => ?_⟩
  rw [converted_iff hw hh]
  refine ⟨fun h => lossless_of_cutHarmless h, fun h => cutHarmless_of_lossless fun d' hd' => ?_⟩
  rwa [List.mem_singleton.1 hd']

/-- Twice the size, and a rectangle far to the left that ends in the buffer: the whole of it is lost. -/
theorem damage_coverage_lost :
    ¬Damage.Lossless 100 100 ⟨2, .normal, false⟩ (.surface ⟨-1073741824, 0, 1073741874, 50⟩) ∧
      (Converted 100 100 ⟨2, .normal, false⟩ [.surface ⟨-1073741824, 0, 1073741874, 50⟩] ↔
        Damage.Lossless 100 100 ⟨2, .normal, false⟩ (.surface ⟨-1073741824, 0, 1073741874, 50⟩)) :=
  ⟨by decide, (damage_coverage (by decide) (by decide) _ []).2.2 _⟩

theorem far_damage_lost : ¬Converted 100 100 ⟨2, .normal, false⟩ [.surface ⟨-1073741824, 0, 1073741874, 50⟩] := by
  intro h
  have hnone : convertedDamage 100 100 ⟨2, .normal, false⟩ [.surface ⟨-1073741824, 0, 1073741874, 50⟩] = none := by
    decide
  obtain ⟨u, hu, -⟩ := h.2 (.surface ⟨-1073741824, 0, 1073741874, 50⟩) (by simp) 0 0 (by decide) (by decide) (by decide)
  rw [hnone] at hu
  cases hu

end CocoaWay.Presentation

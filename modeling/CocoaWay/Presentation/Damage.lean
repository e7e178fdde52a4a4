import Mathlib.Data.Int.Order.Basic
import Mathlib.Order.MinMax

/-!
# Damage

* `saturate` : saturating arithmetic of `i32`;
* `Rect`, `Damage`, `Mapping` : what a client commits; `Damage.Covers` : the buffer pixels a piece of damage stands for,
  under the mapping it was committed with, in exact arithmetic;
* `damageRect`, `bufferDamageRects`, `coalesceDamage` : the conversions before an upload;
* `Damage.Faithful` : when the converted damage, under the mapping of the drawn commit, still reaches every pixel;
  `coalesceDamage_covers`, `bufferDamage_covers`.
-/

namespace CocoaWay.Presentation

/-! ## Saturating arithmetic -/

def i32Min : Int := -2147483648

def i32Max : Int := 2147483647

def saturate (n : Int) : Int := max i32Min (min i32Max n)

/-- `clamp(0, hi)`. -/
def clampTo (hi n : Int) : Int := max 0 (min n hi)

/-! ## Damage as committed -/

structure Rect where
  x : Int
  y : Int
  width : Int
  height : Int
  deriving DecidableEq

/-- A buffer pixel is inside a rectangle. -/
def Rect.Contains (r : Rect) (x y : Nat) : Prop :=
  r.x ≤ x ∧ x < r.x + r.width ∧ r.y ≤ y ∧ y < r.y + r.height

instance (r : Rect) (x y : Nat) : Decidable (r.Contains x y) :=
  inferInstanceAs (Decidable (_ ∧ _ ∧ _ ∧ _))

inductive Damage
  | buffer (rect : Rect)
  | surface (rect : Rect)

inductive Transform
  | normal
  | rotated90
  | rotated180
  | rotated270
  | flipped
  | flipped90
  | flipped180
  | flipped270
  deriving DecidableEq

/-- How surface coordinates map to the buffer; `hasViewport` says that a viewport source or destination is set. -/
structure Mapping where
  bufferScale : Int
  transform : Transform
  hasViewport : Bool

/-- `buffer_scale.max(1)`. -/
def Mapping.scale (m : Mapping) : Int := max m.bufferScale 1

/-- Surface coordinates are buffer coordinates divided by the scale. -/
def Mapping.plain (m : Mapping) : Bool := m.transform = .normal && !m.hasViewport

/-- The pixels damage stands for when committed under `m`. Where a transform or viewport maps the surface, it may
stand for any pixel of the buffer. -/
def Damage.Covers (m : Mapping) (x y : Nat) : Damage → Prop
  | .buffer r => r.Contains x y
  | .surface r => m.plain = true →
    Rect.Contains ⟨r.x * m.scale, r.y * m.scale, r.width * m.scale, r.height * m.scale⟩ x y

instance (m : Mapping) (x y : Nat) : (d : Damage) → Decidable (d.Covers m x y)
  | .buffer r => inferInstanceAs (Decidable (r.Contains x y))
  | .surface _ => inferInstanceAs (Decidable (_ → _))

/-! ## Damage as uploaded -/

/-- One rectangle of `buffer_damage_rects`. -/
def damageRect (width height : Int) (m : Mapping) : Damage → Rect
  | .buffer r => r
  | .surface r =>
    if m.transform ≠ .normal ∨ m.hasViewport then ⟨0, 0, width, height⟩
    else ⟨saturate (r.x * m.scale), saturate (r.y * m.scale), saturate (r.width * m.scale),
      saturate (r.height * m.scale)⟩

def bufferDamageRects (damage : List Damage) (width height : Int) (m : Mapping) : List Rect :=
  if damage.isEmpty then [] else damage.map (damageRect width height m)

structure Bounds where
  left : Int
  top : Int
  right : Int
  bottom : Int

/-- One round of the loop of `coalesce_damage`. -/
def extendBounds (width height : Int) (bounds : Option Bounds) (rect : Rect) : Option Bounds :=
  let x1 := clampTo width rect.x
  let y1 := clampTo height rect.y
  let x2 := clampTo width (saturate (rect.x + rect.width))
  let y2 := clampTo height (saturate (rect.y + rect.height))
  if x2 ≤ x1 ∨ y2 ≤ y1 then bounds
  else
    match bounds with
    | some b => some ⟨min b.left x1, min b.top y1, max b.right x2, max b.bottom y2⟩
    | none => some ⟨x1, y1, x2, y2⟩

def coalesceDamage (damage : List Rect) (width height : Int) : Option Rect :=
  (damage.foldl (extendBounds width height) none).map fun b => ⟨b.left, b.top, b.right - b.left, b.bottom - b.top⟩

/-- `texture_upload_damage`. -/
def textureUploadDamage (isCurrent sameSize : Bool) (damage : Option Rect) (width height : Int) : Option Rect :=
  if isCurrent && sameSize then damage else some ⟨0, 0, width, height⟩

/-! ## What coalescing keeps -/

def Bounds.Contains (b : Bounds) (x y : Nat) : Prop :=
  b.left ≤ x ∧ x < b.right ∧ b.top ≤ y ∧ y < b.bottom

/-- A pixel inside the buffer stays between the clamped ends of any interval around it. -/
theorem clampTo_between {hi lo len : Int} {p : Nat} (hhi : hi ≤ i32Max) (hp : (p : Int) < hi) (hlo : lo ≤ p)
    (hlen : p < lo + len) : clampTo hi lo ≤ p ∧ p < clampTo hi (saturate (lo + len)) := by
  unfold clampTo saturate i32Min i32Max at *
  omega

variable {width height : Int} {x y : Nat}

theorem extendBounds_of_bounds {b : Bounds} (hb : b.Contains x y) (r : Rect) :
    ∃ b', extendBounds width height (some b) r = some b' ∧ b'.Contains x y := by
  unfold extendBounds
  dsimp only
  split
  · exact ⟨b, rfl, hb⟩
  · refine ⟨_, rfl, ?_⟩
    obtain ⟨h1, h2, h3, h4⟩ := hb
    exact ⟨(min_le_left _ _).trans h1, h2.trans_le (le_max_left _ _), (min_le_left _ _).trans h3,
      h4.trans_le (le_max_left _ _)⟩

theorem extendBounds_of_rect (hw : width ≤ i32Max) (hh : height ≤ i32Max) (hx : (x : Int) < width)
    (hy : (y : Int) < height) {r : Rect} (hr : r.Contains x y) (bounds : Option Bounds) :
    ∃ b', extendBounds width height bounds r = some b' ∧ b'.Contains x y := by
  obtain ⟨h1, h2, h3, h4⟩ := hr
  obtain ⟨hx1, hx2⟩ := clampTo_between hw hx h1 h2
  obtain ⟨hy1, hy2⟩ := clampTo_between hh hy h3 h4
  have hne : ¬(clampTo width (saturate (r.x + r.width)) ≤ clampTo width r.x ∨
      clampTo height (saturate (r.y + r.height)) ≤ clampTo height r.y) := by
    omega
  unfold extendBounds
  dsimp only
  rw [if_neg hne]
  cases bounds with
  | none => exact ⟨_, rfl, hx1, hx2, hy1, hy2⟩
  | some b =>
    exact ⟨_, rfl, (min_le_right _ _).trans hx1, hx2.trans_le (le_max_right _ _), (min_le_right _ _).trans hy1,
      hy2.trans_le (le_max_right _ _)⟩

theorem foldl_extendBounds_of_bounds (damage : List Rect) {b : Bounds} (hb : b.Contains x y) :
    ∃ b', damage.foldl (extendBounds width height) (some b) = some b' ∧ b'.Contains x y := by
  induction damage generalizing b with
  | nil => exact ⟨b, rfl, hb⟩
  | cons r damage ih =>
    obtain ⟨b', he, hb'⟩ : ∃ b', extendBounds width height (some b) r = some b' ∧ b'.Contains x y :=
      extendBounds_of_bounds hb r
    rw [List.foldl_cons, he]
    exact ih hb'

theorem foldl_extendBounds_of_mem (hw : width ≤ i32Max) (hh : height ≤ i32Max) (hx : (x : Int) < width)
    (hy : (y : Int) < height) {damage : List Rect} {r : Rect} (hmem : r ∈ damage) (hr : r.Contains x y)
    (bounds : Option Bounds) :
    ∃ b', damage.foldl (extendBounds width height) bounds = some b' ∧ b'.Contains x y := by
  induction damage generalizing bounds with
  | nil => cases hmem
  | cons r' damage ih =>
    rw [List.foldl_cons]
    rcases List.mem_cons.1 hmem with rfl | hmem
    · obtain ⟨b', he, hb'⟩ := extendBounds_of_rect hw hh hx hy hr bounds
      rw [he]
      exact foldl_extendBounds_of_bounds damage hb'
    · exact ih hmem _

/-- The coalesced rectangle contains every buffer pixel of every rectangle. -/
theorem coalesceDamage_covers (hw : width ≤ i32Max) (hh : height ≤ i32Max) (hx : (x : Int) < width)
    (hy : (y : Int) < height) {damage : List Rect} {r : Rect} (hmem : r ∈ damage) (hr : r.Contains x y) :
    ∃ u, coalesceDamage damage width height = some u ∧ u.Contains x y := by
  obtain ⟨b, he, h1, h2, h3, h4⟩ := foldl_extendBounds_of_mem hw hh hx hy hmem hr none
  refine ⟨_, by rw [coalesceDamage, he]; rfl, h1, ?_, h3, ?_⟩
  · show (x : Int) < b.left + (b.right - b.left)
    omega
  · show (y : Int) < b.top + (b.bottom - b.top)
    omega

/-! ## Damage drawn under another mapping -/

/-- Along one axis, scaling `start` and `len` in saturating arithmetic loses no pixel of a buffer of the given size: the
scaled length fits, or the saturated length still reaches the end of the buffer, or nothing of it is in the buffer. -/
def AxisExact (scale start len size : Int) : Prop :=
  len * scale ≤ i32Max ∨ size ≤ start * scale + i32Max ∨ (start + len) * scale ≤ 0

instance (scale start len size : Int) : Decidable (AxisExact scale start len size) :=
  inferInstanceAs (Decidable (_ ∨ _ ∨ _))

/-- Damage committed under one mapping keeps its pixels when it is drawn under another. -/
def Damage.Faithful (width height : Int) (committed drawn : Mapping) : Damage → Prop
  | .buffer _ => True
  | .surface r => drawn.plain = true →
    committed.plain = true ∧ committed.scale = drawn.scale ∧ AxisExact drawn.scale r.x r.width width ∧
      AxisExact drawn.scale r.y r.height height

instance (width height : Int) (committed drawn : Mapping) :
    (d : Damage) → Decidable (d.Faithful width height committed drawn)
  | .buffer _ => inferInstanceAs (Decidable True)
  | .surface _ => inferInstanceAs (Decidable (_ → _))

theorem AxisExact.between {scale start len size : Int} (h : AxisExact scale start len size) (hsize : size ≤ i32Max)
    {p : Nat} (hp : (p : Int) < size) (h1 : start * scale ≤ p) (h2 : p < start * scale + len * scale) :
    saturate (start * scale) ≤ p ∧ p < saturate (start * scale) + saturate (len * scale) := by
  unfold AxisExact at h
  rw [Int.add_mul] at h
  generalize start * scale = a at *
  generalize len * scale = b at *
  unfold saturate i32Min i32Max at *
  omega

theorem Mapping.plain_iff {m : Mapping} : m.plain = true ↔ ¬(m.transform ≠ .normal ∨ m.hasViewport = true) := by
  simp [Mapping.plain]

theorem damageRect_contains {committed drawn : Mapping} {d : Damage} (hf : d.Faithful width height committed drawn)
    (hw : width ≤ i32Max) (hh : height ≤ i32Max) (hx : (x : Int) < width) (hy : (y : Int) < height)
    (hc : d.Covers committed x y) : (damageRect width height drawn d).Contains x y := by
  cases d with
  | buffer r => exact hc
  | surface r =>
    by_cases hp : drawn.plain = true
    · obtain ⟨hcp, hs, hax, hay⟩ := hf hp
      rw [damageRect, if_neg (Mapping.plain_iff.1 hp)]
      obtain ⟨h1, h2, h3, h4⟩ := hc hcp
      rw [hs] at h1 h2 h3 h4
      obtain ⟨hx1, hx2⟩ := hax.between hw hx h1 h2
      obtain ⟨hy1, hy2⟩ := hay.between hh hy h3 h4
      exact ⟨hx1, hx2, hy1, hy2⟩
    · rw [damageRect, if_pos (Decidable.not_not.1 fun hn => hp (Mapping.plain_iff.2 hn))]
      refine ⟨?_, ?_, ?_, ?_⟩ <;> dsimp only <;> omega

/-- Faithful damage is inside the region of the upload. -/
theorem bufferDamage_covers {committed drawn : Mapping} {damage : List Damage} {d : Damage} (hmem : d ∈ damage)
    (hf : d.Faithful width height committed drawn) (hw : width ≤ i32Max) (hh : height ≤ i32Max)
    (hx : (x : Int) < width) (hy : (y : Int) < height) (hc : d.Covers committed x y) :
    ∃ u, coalesceDamage (bufferDamageRects damage width height drawn) width height = some u ∧ u.Contains x y := by
  have hne : ¬damage.isEmpty = true := by
    intro he
    rw [List.isEmpty_iff.1 he] at hmem
    cases hmem
  apply coalesceDamage_covers hw hh hx hy (r := damageRect width height drawn d)
  · rw [bufferDamageRects, if_neg hne]
    exact List.mem_map_of_mem hmem
  · exact damageRect_contains hf hw hh hx hy hc

end CocoaWay.Presentation

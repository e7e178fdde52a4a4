import CocoaWay.Lib.Turns
import CocoaWay.Surface.Mapping

/-!
# The geometry a surface is drawn with

* `turn` : the transforms are turns of a box about its centre; `transformPointIn_eq`;
* `whole`, `crop`, `texture` : the buffer and its crop in surface coordinates, and where a point of the surface is in
  the texture;
* `Inset` : half a texel inside an interval, or its midpoint; `Drawn` : what the geometry promises;
* `geometry_drawn` : it is drawn so, and nothing is drawn of a crop outside the buffer.
-/

namespace CocoaWay.Surface
open Presentation (Transform i32Max)
open Lib Set

/-! ## Transforms -/

def turn : Transform → Turn
  | .normal => ⟨0, false⟩
  | .rotated90 => ⟨1, false⟩
  | .rotated180 => ⟨2, false⟩
  | .rotated270 => ⟨3, false⟩
  | .flipped => ⟨0, true⟩
  | .flipped90 => ⟨1, true⟩
  | .flipped180 => ⟨2, true⟩
  | .flipped270 => ⟨3, true⟩

theorem transformSize_eq (t : Transform) (size : ℚ × ℚ) : transformSize t size = (turn t).size size := by
  cases t <;> rfl

theorem transformPointIn_eq (t : Transform) (point area : ℚ × ℚ) :
    transformPointIn t point area = (turn t).image area point := by
  cases t <;> ext <;> simp [transformPointIn, turn, Turn.image, Turn.linear, Turn.size, centre, quarter,
    mirror] <;> ring

/-! ## The crop -/

/-- The points of a rectangle. -/
def Rectangle.points (r : Rectangle) : Set (ℚ × ℚ) := Icc r.loc (r.loc + r.size)

def Rectangle.corners (r : Rectangle) : Corners (ℚ × ℚ) :=
  ⟨r.loc + (0, r.size.2), r.loc + r.size, r.loc, r.loc + (r.size.1, 0)⟩

def Corners.All {α : Type*} (P : α → Prop) (c : Corners α) : Prop :=
  P c.bottomLeft ∧ P c.bottomRight ∧ P c.topLeft ∧ P c.topRight

namespace SurfaceMapping

variable {m : SurfaceMapping} {buffer : Int × Int} {outputScale : ℚ}

/-- The size of the buffer in surface coordinates. -/
def whole (m : SurfaceMapping) (buffer : Int × Int) : ℚ × ℚ :=
  let size := (turn m.transform).size ((buffer.1, buffer.2) : ℚ × ℚ)
  (size.1 / m.scale, size.2 / m.scale)

def crop (m : SurfaceMapping) (buffer : Int × Int) : Rectangle := m.viewport.src.getD (.ofSize (m.whole buffer))

/-- Where a point of the surface is in the texture: its place in the unit square, turned. -/
def texture (m : SurfaceMapping) (buffer : Int × Int) (p : ℚ × ℚ) :
    ℚ × ℚ := (turn m.transform).image 1 (p / m.whole buffer)

theorem scale_pos (m : SurfaceMapping) : 0 < m.scale := by
  unfold scale
  exact_mod_cast lt_of_lt_of_le one_pos (le_max_right m.bufferScale 1)

/-- A crop that is used is inside the buffer, and neither is empty. -/
structure Cropped (m : SurfaceMapping) (buffer : Int × Int) : Prop where
  width : 0 < buffer.1
  height : 0 < buffer.2
  loc : 0 ≤ (m.crop buffer).loc
  wide : 0 < (m.crop buffer).size.1
  high : 0 < (m.crop buffer).size.2
  fits : (m.crop buffer).loc + (m.crop buffer).size ≤ m.whole buffer

theorem source_cropped {source : Rectangle} {area : ℚ × ℚ} (h : m.source buffer = some (source, area)) :
    source = m.crop buffer ∧ area = m.whole buffer ∧ Cropped m buffer := by
  unfold SurfaceMapping.source at h
  split at h
  · cases h
  next hbuffer =>
    rw [transformSize_eq] at h
    dsimp only at h
    split at h
    · cases h
    next hcrop =>
      cases h
      simp only [not_or, not_le, not_lt] at hbuffer hcrop
      obtain ⟨hx, hy, hw, hh, hright, hbottom, -⟩ := hcrop
      exact ⟨rfl, rfl, hbuffer.1, hbuffer.2, ⟨hx, hy⟩, hw, hh, ⟨hright, hbottom⟩⟩

theorem Cropped.inside (h : Cropped m buffer) : (m.crop buffer).points ⊆ Icc 0 (m.whole buffer) :=
  Icc_subset_Icc h.loc h.fits

theorem Cropped.whole_pos (h : Cropped m buffer) : 0 < (m.whole buffer).1 ∧ 0 < (m.whole buffer).2 :=
  ⟨(add_pos_of_nonneg_of_pos h.loc.1 h.wide).trans_le h.fits.1,
    (add_pos_of_nonneg_of_pos h.loc.2 h.high).trans_le h.fits.2⟩

theorem Cropped.loc_le (h : Cropped m buffer) : (m.crop buffer).loc ≤ (m.crop buffer).loc + (m.crop buffer).size :=
  ⟨le_add_of_nonneg_right h.wide.le, le_add_of_nonneg_right h.high.le⟩

theorem Cropped.corners_mem (h : Cropped m buffer) : (m.crop buffer).corners.All (· ∈ (m.crop buffer).points) := by
  unfold Corners.All Rectangle.corners
  refine ⟨⟨⟨?_, ?_⟩, ?_, ?_⟩, ⟨h.loc_le, le_rfl⟩, ⟨le_rfl, h.loc_le⟩, ⟨?_, ?_⟩, ?_, ?_⟩ <;> simp [h.wide.le, h.high.le]

/-- The scale is taken out and put back, and the buffer is turned twice. -/
theorem toBuffer_div (h : Cropped m buffer) (p : ℚ × ℚ) :
    ((toBuffer p m.scale m.transform (m.whole buffer)).1 / buffer.1,
      (toBuffer p m.scale m.transform (m.whole buffer)).2 / buffer.2) = m.texture buffer p := by
  have hbuffer : ((turn m.transform).size (m.whole buffer)).1 * m.scale = buffer.1 ∧
      ((turn m.transform).size (m.whole buffer)).2 * m.scale = buffer.2 := by
    have hscale := m.scale_pos.ne'
    unfold whole Turn.size
    split <;> simp [div_mul_cancel₀ _ hscale]
  have himage := (turn m.transform).image_div (p := p) h.whole_pos.1.ne' h.whole_pos.2.ne'
  unfold texture toBuffer
  rw [← himage, transformPointIn_eq, ← hbuffer.1, ← hbuffer.2]
  dsimp only
  rw [mul_div_mul_right _ _ m.scale_pos.ne', mul_div_mul_right _ _ m.scale_pos.ne']
  rfl

/-- The part of the texture that a box of the surface is drawn from. -/
theorem texture_image (m : SurfaceMapping) (buffer : Int × Int) (p q : ℚ × ℚ) :
    m.texture buffer '' uIcc p q = uIcc (m.texture buffer p) (m.texture buffer q) := by
  have hdiv : KeepsBoxes fun p : ℚ × ℚ => p / m.whole buffer :=
    .prodMap (fun a b => image_div_const_uIcc _ a b) (fun a b => image_div_const_uIcc _ a b)
  exact ((turn m.transform).image_keeps 1).comp hdiv p q

theorem texture_mem (h : Cropped m buffer) {p : ℚ × ℚ} (hp : p ∈ (m.crop buffer).points) :
    m.texture buffer p ∈ Icc (0 : ℚ × ℚ) 1 := by
  have hin := h.inside hp
  have hunit : p / m.whole buffer ∈ Icc (0 : ℚ × ℚ) 1 :=
    ⟨⟨div_nonneg hin.1.1 h.whole_pos.1.le, div_nonneg hin.1.2 h.whole_pos.2.le⟩,
      (div_le_one h.whole_pos.1).2 hin.2.1, (div_le_one h.whole_pos.2).2 hin.2.2⟩
  have himage := (turn m.transform).image_mem hunit
  rwa [Turn.size_one] at himage

end SurfaceMapping

/-! ## Sampling -/

/-- Half a texel inside an interval, or at its midpoint if it has less than a texel. -/
def Inset (pixels : Int) (low high a b : ℚ) : Prop :=
  if 1 / pixels ≤ high - low then a = low + 1 / (2 * pixels) ∧ b = high - 1 / (2 * pixels)
  else a = (low + high) / 2 ∧ b = (low + high) / 2

theorem insetAxis_inset (pixels : Int) (low high : ℚ) :
    Inset pixels low high (SurfaceMapping.insetAxis low high pixels).1 (SurfaceMapping.insetAxis low high pixels).2 := by
  have hhalf : (1 / 2 : ℚ) / pixels = 1 / (2 * pixels) := div_div 1 2 _
  have htwice : (1 : ℚ) / pixels = 1 / (2 * pixels) + 1 / (2 * pixels) := by
    rw [← hhalf, ← add_div]
    norm_num
  unfold Inset SurfaceMapping.insetAxis
  dsimp only
  rw [hhalf]
  split
  next hwide => exact ⟨min_eq_left (by linarith), max_eq_left (by linarith)⟩
  next hnarrow => exact ⟨by rw [min_eq_right (by linarith)]; ring, by rw [max_eq_right (by linarith)]; ring⟩

theorem Inset.ordered {pixels : Int} {low high a b : ℚ} (h : Inset pixels low high a b) (hpixels : 0 < pixels)
    (hle : low ≤ high) : low ≤ a ∧ a ≤ b ∧ b ≤ high := by
  have hinset : 0 < 1 / (2 * (pixels : ℚ)) := by positivity
  have htwice : (1 : ℚ) / pixels = 1 / (2 * pixels) + 1 / (2 * pixels) := by
    field_simp
    norm_num
  unfold Inset at h
  split at h
  · obtain ⟨rfl, rfl⟩ := h
    refine ⟨?_, ?_, ?_⟩ <;> linarith
  · obtain ⟨rfl, rfl⟩ := h
    refine ⟨?_, ?_, ?_⟩ <;> linarith

/-! ## What is drawn -/

namespace SurfaceMapping

variable {m : SurfaceMapping} {buffer : Int × Int} {outputScale : ℚ}

/-- The corners are those of the crop in the texture, inside the unit square; half a texel inside the crop, or at its
midpoint, is sampled; and the size is the rounded size of the surface. -/
structure Drawn (m : SurfaceMapping) (buffer : Int × Int) (outputScale : ℚ) (draw : DrawGeometry) : Prop where
  corners : draw.uv = (m.crop buffer).corners.map (m.texture buffer)
  square : draw.uv.All (· ∈ Icc 0 1)
  ordered : draw.sampleBounds.lower ≤ draw.sampleBounds.upper
  inside : Icc draw.sampleBounds.lower draw.sampleBounds.upper ⊆ m.texture buffer '' (m.crop buffer).points
  inset : ∃ low high, m.texture buffer '' (m.crop buffer).points = Icc low high ∧
    Inset buffer.1 low.1 high.1 draw.sampleBounds.lower.1 draw.sampleBounds.upper.1 ∧
    Inset buffer.2 low.2 high.2 draw.sampleBounds.lower.2 draw.sampleBounds.upper.2
  size : m.logicalSize buffer = some (surfaceLogicalSize buffer m)
  width : draw.width = round ((surfaceLogicalSize buffer m).1 * outputScale)
  height : draw.height = round ((surfaceLogicalSize buffer m).2 * outputScale)

/-- The hull of the corners is spanned by two that are opposite. -/
theorem hull_corners (h : Cropped m buffer) {uv : Corners (ℚ × ℚ)}
    (huv : uv = (m.crop buffer).corners.map (m.texture buffer)) :
    m.texture buffer '' (m.crop buffer).points = Icc (((uv.bottomLeft ⊓ uv.bottomRight) ⊓ uv.topLeft) ⊓ uv.topRight)
      (((uv.bottomLeft ⊔ uv.bottomRight) ⊔ uv.topLeft) ⊔ uv.topRight) := by
  have hspan : m.texture buffer '' (m.crop buffer).points = uIcc uv.topLeft uv.bottomRight := by
    rw [Rectangle.points, ← uIcc_of_le h.loc_le, texture_image, huv]
    rfl
  have hcorner : ∀ p ∈ (m.crop buffer).points, m.texture buffer p ∈ uIcc uv.topLeft uv.bottomRight :=
    fun p hp => hspan ▸ mem_image_of_mem _ hp
  have hleft : uv.bottomLeft ∈ uIcc uv.topLeft uv.bottomRight := by
    have hmem := hcorner _ h.corners_mem.1
    rw [huv] at hmem ⊢
    exact hmem
  have hright : uv.topRight ∈ uIcc uv.topLeft uv.bottomRight := by
    have hmem := hcorner _ h.corners_mem.2.2.2
    rw [huv] at hmem ⊢
    exact hmem
  rw [hspan, uIcc]
  congr 1
  · apply le_antisymm
    · exact le_inf (le_inf (le_inf hleft.1 inf_le_right) inf_le_left) hright.1
    · exact le_inf (inf_le_left.trans inf_le_right) (inf_le_left.trans (inf_le_left.trans inf_le_right))
  · apply le_antisymm
    · exact sup_le (le_sup_right.trans le_sup_left) (le_sup_right.trans (le_sup_left.trans le_sup_left))
    · exact sup_le (sup_le (sup_le hleft.2 le_sup_right) le_sup_left) hright.2

theorem logicalSize_cropped {size : ℚ × ℚ} (h : m.logicalSize buffer = some size) : Cropped m buffer := by
  unfold logicalSize at h
  obtain ⟨source, hsource, -⟩ := Option.bind_eq_some_iff.1 h
  exact (source_cropped hsource).2.2

variable {draw : DrawGeometry}

theorem geometry_cropped (h : m.geometry buffer outputScale = some draw) : Cropped m buffer := by
  unfold geometry at h
  split at h
  · cases h
  · obtain ⟨source, hsource, -⟩ := Option.bind_eq_some_iff.1 h
    exact (source_cropped hsource).2.2

/-- The corners of the unit square, put into the crop and then into the buffer. -/
theorem uv_eq (h : Cropped m buffer) :
    (⟨(0, 1), (1, 1), (0, 0), (1, 0)⟩ : Corners (ℚ × ℚ)).map (fun corner =>
      let point := ((m.crop buffer).loc.1 + corner.1 * (m.crop buffer).size.1,
        (m.crop buffer).loc.2 + corner.2 * (m.crop buffer).size.2)
      let point := toBuffer point m.scale m.transform (m.whole buffer)
      (point.1 / buffer.1, point.2 / buffer.2)) = (m.crop buffer).corners.map (m.texture buffer) := by
  have hadd (p : ℚ × ℚ) (a b : ℚ) : p + (a, b) = (p.1 + a, p.2 + b) := rfl
  simp only [toBuffer_div h, Corners.map, Rectangle.corners, zero_mul, one_mul, add_zero, hadd]

theorem drawn_of_corners (h : Cropped m buffer)
    (huv : draw.uv = (m.crop buffer).corners.map (m.texture buffer))
      (hbounds : draw.sampleBounds = sampleBounds buffer draw.uv)
    (hsize : m.logicalSize buffer = some (surfaceLogicalSize buffer m))
    (hwidth : draw.width = round ((surfaceLogicalSize buffer m).1 * outputScale))
    (hheight : draw.height = round ((surfaceLogicalSize buffer m).2 * outputScale)) :
      Drawn m buffer outputScale draw := by
  have hhull := hull_corners h huv
  generalize hlow : ((draw.uv.bottomLeft ⊓ draw.uv.bottomRight) ⊓ draw.uv.topLeft) ⊓ draw.uv.topRight = low at hhull
  generalize hhigh : ((draw.uv.bottomLeft ⊔ draw.uv.bottomRight) ⊔ draw.uv.topLeft) ⊔ draw.uv.topRight = high at hhull
  have hle : low ≤ high := by
    rw [← nonempty_Icc, ← hhull]
    exact (nonempty_Icc.2 h.loc_le).image _
  have hu : Inset buffer.1 low.1 high.1 draw.sampleBounds.lower.1 draw.sampleBounds.upper.1 := by
    rw [hbounds, sampleBounds, hlow, hhigh]
    exact insetAxis_inset _ _ _
  have hv : Inset buffer.2 low.2 high.2 draw.sampleBounds.lower.2 draw.sampleBounds.upper.2 := by
    rw [hbounds, sampleBounds, hlow, hhigh]
    exact insetAxis_inset _ _ _
  obtain ⟨hu₁, hu₂, hu₃⟩ := hu.ordered h.width hle.1
  obtain ⟨hv₁, hv₂, hv₃⟩ := hv.ordered h.height hle.2
  refine ⟨huv, ?_, ⟨hu₂, hv₂⟩, ?_, ⟨low, high, hhull, hu, hv⟩, hsize, hwidth, hheight⟩
  · obtain ⟨h₁, h₂, h₃, h₄⟩ := h.corners_mem
    rw [huv]
    exact ⟨texture_mem h h₁, texture_mem h h₂, texture_mem h h₃, texture_mem h h₄⟩
  · rw [hhull]
    exact Icc_subset_Icc ⟨hu₁, hv₁⟩ ⟨hu₃, hv₃⟩

theorem drawn_of_geometry (h : m.geometry buffer outputScale = some draw) :
    Drawn m buffer outputScale draw := by
  have hcropped := geometry_cropped h
  unfold geometry at h
  split at h
  · cases h
  · obtain ⟨⟨source, area⟩, hsource, h⟩ := Option.bind_eq_some_iff.1 h
    obtain ⟨rfl, rfl, -⟩ := source_cropped hsource
    obtain ⟨size, hsize, h⟩ := Option.bind_eq_some_iff.1 h
    have hlogical : surfaceLogicalSize buffer m = size := by rw [surfaceLogicalSize, hsize, Option.getD_some]
    dsimp only at h
    split at h
    · cases h
    · rw [uv_eq hcropped] at h
      obtain rfl := Option.some.inj h
      subst hlogical
      exact drawn_of_corners hcropped rfl rfl hsize rfl rfl

/-- What is drawn of a surface, and that nothing is of one whose crop is not inside the buffer. -/
theorem geometry_drawn (m : SurfaceMapping) (buffer : Int × Int) (outputScale : ℚ) :
    (∀ draw, m.geometry buffer outputScale = some draw → Drawn m buffer outputScale draw) ∧
      (¬ (m.crop buffer).points ⊆ Icc 0 (m.whole buffer) →
        m.geometry buffer outputScale = none ∧ m.logicalSize buffer = none) := by
  refine ⟨fun draw => drawn_of_geometry, fun houtside => ⟨?_, ?_⟩⟩
  · by_contra hsome
    obtain ⟨draw, hdraw⟩ := Option.ne_none_iff_exists'.1 hsome
    exact houtside (geometry_cropped hdraw).inside
  · by_contra hsome
    obtain ⟨size, hsize⟩ := Option.ne_none_iff_exists'.1 hsome
    exact houtside (logicalSize_cropped hsize).inside

/-- A crop of a turned buffer. -/
example : (geometry ⟨2, .rotated90, ⟨some ⟨(10, 5), (30, 20)⟩, none⟩⟩ (200, 100) 2).map
    (fun draw => (draw.width, draw.height, draw.uv.topLeft)) = some (60, 40, 95 / 100, 2 / 10) := by
  decide +kernel

end SurfaceMapping

end CocoaWay.Surface

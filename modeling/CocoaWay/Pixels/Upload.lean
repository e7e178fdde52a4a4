import CocoaWay.Pixels.Formats
import CocoaWay.Presentation.Coverage

/-!
# Uploads into a texture

* `validPixelRange` : the layout check; `validPixelRange_iff`;
* `TextureResource`, `PixelPreflight` : the storage of a texture, and what was prepared for an upload;
* `uploadOffset`, `uploadPixels` : where the bytes of the region that is copied start, and the
  storage they are copied to;
* `upload_in_bounds` : an upload stays inside the pixels and inside the texture.
-/

namespace CocoaWay.Pixels
open Presentation (Rect coalesceDamage i32Max textureUploadDamage)

/-! ## The layout check -/

/-- `as usize`, on an `i32`. -/
def asUsize (n : Int) : Nat := (n % 18446744073709551616).toNat

def validPixelRange (width height : Int) (bytesPerRow len : Nat) : Bool :=
  let rowBytes := checkedMul (asUsize (max width 0)) 4
  let required :=
    (checkedSub (asUsize (max height 0)) 1).bind fun rows =>
    (checkedMul rows bytesPerRow).bind fun padded =>
    rowBytes.bind fun rowBytes => checkedAdd padded rowBytes
  decide (0 < width) && decide (0 < height) && rowBytes.any (fun rowBytes => decide (rowBytes ≤ bytesPerRow)) &&
    required.any fun required => decide (required ≤ len)

theorem asUsize_eq {n : Int} (h0 : 0 ≤ n) (h : n ≤ i32Max) : (asUsize n : Int) = n := by
  unfold asUsize i32Max at *
  omega

theorem asUsize_max {n : Int} (h0 : 0 < n) (h : n ≤ i32Max) : asUsize (max n 0) = n.toNat := by
  unfold asUsize i32Max at *
  omega

/-- The rows are at least as long as their pixels, and the last row ends inside the slice. -/
theorem validPixelRange_iff {width height : Int} {bytesPerRow len : Nat} (hw : width ≤ i32Max) (hh : height ≤ i32Max) :
    validPixelRange width height bytesPerRow len = true ↔ 0 < width ∧ 0 < height ∧ width.toNat * 4 ≤ bytesPerRow ∧
      (height.toNat - 1) * bytesPerRow + width.toNat * 4 ≤ usizeMax ∧
      (height.toNat - 1) * bytesPerRow + width.toNat * 4 ≤ len := by
  unfold validPixelRange
  by_cases hpos : 0 < width ∧ 0 < height
  · obtain ⟨h0, h1⟩ := hpos
    have hrow : checkedMul width.toNat 4 = some (width.toNat * 4) := by
      refine checkedMul_eq_some.2 ⟨?_, rfl⟩
      unfold usizeMax i32Max at *
      omega
    have hrows : checkedSub height.toNat 1 = some (height.toNat - 1) := checkedSub_eq_some.2 ⟨by omega, rfl⟩
    simp only [asUsize_max h0 hw, asUsize_max h1 hh, hrow, hrows, Option.bind_some, h0, h1, decide_true, Bool.true_and,
      Option.any_some, Bool.and_eq_true, decide_eq_true_eq, Option.any_eq_true, Option.bind_eq_some_iff,
      checkedMul_eq_some, checkedAdd_eq_some, true_and]
    constructor
    · rintro ⟨hle, _, ⟨_, ⟨-, rfl⟩, hadd, rfl⟩, hlen⟩
      exact ⟨hle, hadd, hlen⟩
    · rintro ⟨hle, hadd, hlen⟩
      exact ⟨hle, _, ⟨_, ⟨by omega, rfl⟩, hadd, rfl⟩, hlen⟩
  · constructor
    · intro h
      simp only [Bool.and_eq_true, decide_eq_true_eq] at h
      exact absurd ⟨h.1.1.1, h.1.1.2⟩ hpos
    · intro h
      exact absurd ⟨h.1, h.2.1⟩ hpos

/-! ## What an upload writes -/

/-- A texture and the reservation that pays for it. -/
structure TextureResource (ρ : Type*) where
  texture : Nat
  width : Int
  height : Int
  reservation : ρ

variable {ρ : Type*}

/-- The texture has the size of the buffer. -/
def TextureResource.compatible (width height : Int) (texture : TextureResource ρ) : Bool :=
  texture.width == width && texture.height == height

/-- What `preflight_pixels` hands to the upload: `damage` is coalesced, and new storage has the size it was asked for.
-/
structure PixelPreflight (ρ : Type*) where
  width : Int
  height : Int
  damage : Option Rect
  resource : Option (TextureResource ρ)
  damage_inside : ∀ r ∈ damage, r.Inside width height
  resource_compatible : ∀ t ∈ resource, t.compatible width height = true

/-- `preflight_pixels`; what was allocated for the upload is given. -/
def preflightPixels (damage : List Rect) (texW texH : Int) (allocated : Option (Nat × ρ)) : Option (PixelPreflight ρ) :=
  if h : 0 < texW ∧ 0 < texH then
    some {
      width := texW
      height := texH
      damage := coalesceDamage damage texW texH
      resource := allocated.map fun (texture, reservation) => ⟨texture, texW, texH, reservation⟩
      damage_inside := fun _ hr => Presentation.coalesceDamage_inside h.1.le h.2.le hr
      resource_compatible := by
        intro t ht
        obtain ⟨_, -, rfl⟩ := Option.map_eq_some_iff.1 ht
        simp [TextureResource.compatible] }
  else none

structure Region where
  x : Nat
  y : Nat
  width : Nat
  height : Nat
  deriving DecidableEq

/-- Where in the slice the bytes of a region start. -/
def uploadOffset (upload : Rect) (bytesPerRow : Nat) : Option Nat :=
  (checkedMul (asUsize upload.y) bytesPerRow).bind fun rows =>
  (checkedMul (asUsize upload.x) 4).bind fun columns => checkedAdd rows columns

/-- The copy into storage: `region` of it is written from the bytes at `offset`. -/
structure Upload (ρ : Type*) where
  storage : TextureResource ρ
  offset : Nat
  region : Region

/-- The callback of `update_matching`, and the resource that it returns. -/
def uploadPixels (prepared : PixelPreflight ρ) (texW texH : Int) (bytesPerRow : Nat) (idle : Option (TextureResource ρ))
    (isCurrent : Bool) : Option (Upload ρ × TextureResource ρ) :=
  let sameSize := idle.any (TextureResource.compatible texW texH)
  (textureUploadDamage isCurrent sameSize prepared.damage texW texH).bind fun upload =>
  (uploadOffset upload bytesPerRow).bind fun offset =>
  (if sameSize then idle else prepared.resource).map fun storage =>
    (⟨storage, offset, ⟨asUsize upload.x, asUsize upload.y, asUsize upload.width, asUsize upload.height⟩⟩,
      ⟨storage.texture, texW, texH, storage.reservation⟩)

/-- `get_or_create_texture`, up to the copy. -/
def uploadChecked (prepared : PixelPreflight ρ) (texW texH : Int) (bytesPerRow len : Nat)
    (idle : Option (TextureResource ρ)) (isCurrent : Bool) : Option (Upload ρ × TextureResource ρ) :=
  if (prepared.width, prepared.height) ≠ (texW, texH) ∨ !validPixelRange texW texH bytesPerRow len then none
  else uploadPixels prepared texW texH bytesPerRow idle isCurrent

/-! ## Bounds -/

/-- The copy reads only the pixels of its region from the slice, each from its own row, and writes inside the texture.
-/
structure Upload.InBounds (bytesPerRow len : Nat) (u : Upload ρ) : Prop where
  offset_eq : u.offset = u.region.y * bytesPerRow + u.region.x * 4
  nonempty : 0 < u.region.width ∧ 0 < u.region.height
  row_le : u.region.x * 4 + u.region.width * 4 ≤ bytesPerRow
  rows_le : ∀ row < u.region.height, u.offset + row * bytesPerRow + u.region.width * 4 ≤ len
  region_le : (u.region.x + u.region.width : Int) ≤ u.storage.width ∧
    (u.region.y + u.region.height : Int) ≤ u.storage.height

variable {width height : Int} {bytesPerRow len : Nat}

theorem inside_full (hw : 0 < width) (hh : 0 < height) : Rect.Inside width height ⟨0, 0, width, height⟩ := by
  unfold Rect.Inside
  dsimp only
  omega

theorem preflightPixels_eq (hpos : 0 < width ∧ 0 < height) (damage : List Rect) (allocated : Option (Nat × ρ)) :
    ∃ prepared, preflightPixels damage width height allocated = some prepared ∧ prepared.width = width ∧
      prepared.height = height ∧
      prepared.resource = allocated.map fun (texture, reservation) => ⟨texture, width, height, reservation⟩ := by
  rw [preflightPixels, dif_pos hpos]
  exact ⟨_, rfl, rfl, rfl, rfl⟩

/-- Whatever is copied is a part of the texture. -/
theorem textureUploadDamage_inside (hw : 0 < width) (hh : 0 < height) {damage : Option Rect}
    (hd : ∀ r ∈ damage, r.Inside width height) {isCurrent sameSize : Bool} {upload : Rect}
    (h : textureUploadDamage isCurrent sameSize damage width height = some upload) : upload.Inside width height := by
  unfold textureUploadDamage at h
  split at h
  · exact hd _ h
  · obtain rfl := Option.some.inj h
    exact inside_full hw hh

/-- A region inside the buffer ends where its last row does, no later than the buffer. -/
theorem region_end_le (bytesPerRow : Nat) {x y w h columns rows row : Nat} (hx : x + w ≤ columns) (hy : y + h ≤ rows)
    (hrow : row < h) :
    y * bytesPerRow + x * 4 + row * bytesPerRow + w * 4 ≤ (rows - 1) * bytesPerRow + columns * 4 := by
  have hmul : (y + row) * bytesPerRow ≤ (rows - 1) * bytesPerRow := Nat.mul_le_mul_right _ (by omega)
  rw [Nat.add_mul] at hmul
  omega

/-- The offset of a region inside the buffer is computed without overflow. -/
theorem uploadOffset_of_inside {upload : Rect} (hin : upload.Inside width height)
    (hw : width ≤ i32Max) (hh : height ≤ i32Max)
    (hfits : (height.toNat - 1) * bytesPerRow + width.toNat * 4 ≤ usizeMax) :
    uploadOffset upload bytesPerRow = some (upload.y.toNat * bytesPerRow + upload.x.toNat * 4) := by
  obtain ⟨hx, hy, hw0, hh0, hxw, hyh⟩ := hin
  have hxu : asUsize upload.x = upload.x.toNat := by
    unfold asUsize i32Max at *
    omega
  have hyu : asUsize upload.y = upload.y.toNat := by
    unfold asUsize i32Max at *
    omega
  have hcolumns : upload.x.toNat + upload.width.toNat ≤ width.toNat := by omega
  have hrows : upload.y.toNat + upload.height.toNat ≤ height.toNat := by omega
  have hheight : 0 < upload.height.toNat := by omega
  have hend := region_end_le bytesPerRow hcolumns hrows hheight
  unfold uploadOffset
  simp only [hxu, hyu, Option.bind_eq_some_iff, checkedMul_eq_some, checkedAdd_eq_some]
  exact ⟨_, ⟨by omega, rfl⟩, _, ⟨by omega, rfl⟩, by omega, rfl⟩

/-- The storage that is written has the size of the buffer. -/
theorem storage_compatible {prepared : PixelPreflight ρ} {idle : Option (TextureResource ρ)}
    {storage : TextureResource ρ}
    (h : (if idle.any (TextureResource.compatible prepared.width prepared.height) then idle else prepared.resource) =
      some storage) : storage.width = prepared.width ∧ storage.height = prepared.height := by
  have hc : storage.compatible prepared.width prepared.height = true := by
    split at h
    · next hsame =>
      rw [h] at hsame
      exact hsame
    · exact prepared.resource_compatible _ h
  simpa [TextureResource.compatible] using hc

theorem Upload.InBounds.of_inside {upload : Rect} {storage : TextureResource ρ} (hin : upload.Inside width height)
    (hw : width ≤ i32Max) (hh : height ≤ i32Max) (hrow : width.toNat * 4 ≤ bytesPerRow)
    (hlen : (height.toNat - 1) * bytesPerRow + width.toNat * 4 ≤ len)
    (hs : storage.width = width ∧ storage.height = height) :
    Upload.InBounds bytesPerRow len ⟨storage, upload.y.toNat * bytesPerRow + upload.x.toNat * 4,
      ⟨asUsize upload.x, asUsize upload.y, asUsize upload.width, asUsize upload.height⟩⟩ := by
  obtain ⟨hx, hy, hw0, hh0, hxw, hyh⟩ := hin
  have hx' := asUsize_eq hx (by omega)
  have hy' := asUsize_eq hy (by omega)
  have hw' := asUsize_eq hw0.le (by omega)
  have hh' := asUsize_eq hh0.le (by omega)
  have hxn : asUsize upload.x = upload.x.toNat := by omega
  have hyn : asUsize upload.y = upload.y.toNat := by omega
  refine ⟨?_, ?_, ?_, ?_, ?_⟩ <;> dsimp only
  · rw [hxn, hyn]
  · omega
  · omega
  · intro row hlt
    have hcolumns : upload.x.toNat + asUsize upload.width ≤ width.toNat := by omega
    have hrows : upload.y.toNat + asUsize upload.height ≤ height.toNat := by omega
    have hend := region_end_le bytesPerRow hcolumns hrows hlt
    omega
  · omega

/-- **Uploads stay in bounds.** For pixels that pass the layout check and any damage, the coalesced region is inside the
buffer, the offset of whatever is copied is computed without overflow, and the copy reads inside the slice and writes
inside the texture. -/
theorem upload_in_bounds {damage : List Rect} {allocated : Option (Nat × ρ)} {prepared : PixelPreflight ρ}
    (hprepared : preflightPixels damage width height allocated = some prepared) (hw : width ≤ i32Max)
      (hh : height ≤ i32Max)
    (hvalid : validPixelRange width height bytesPerRow len = true) (idle : Option (TextureResource ρ))
      (isCurrent : Bool) :
    (∀ region ∈ prepared.damage, region.Inside width height) ∧
      (∀ sameSize, ∀ upload ∈ textureUploadDamage isCurrent sameSize prepared.damage width height,
        uploadOffset upload bytesPerRow = some (upload.y.toNat * bytesPerRow + upload.x.toNat * 4)) ∧
      ∀ u texture, uploadChecked prepared width height bytesPerRow len idle isCurrent = some (u, texture) →
        u.InBounds bytesPerRow len := by
  obtain ⟨hw0, hh0, hrow, hfits, hlen⟩ := (validPixelRange_iff hw hh).1 hvalid
  obtain ⟨p, hp, rfl, rfl, -⟩ := preflightPixels_eq ⟨hw0, hh0⟩ damage allocated
  obtain rfl : prepared = p := Option.some.inj (hprepared.symm.trans hp)
  refine ⟨prepared.damage_inside, fun sameSize upload hupload => ?_, fun u texture h => ?_⟩
  · exact uploadOffset_of_inside (textureUploadDamage_inside hw0 hh0 prepared.damage_inside hupload) hw hh hfits
  · rw [uploadChecked, if_neg (by simp [hvalid])] at h
    obtain ⟨upload, hupload, h⟩ := Option.bind_eq_some_iff.1 h
    obtain ⟨offset, hoffset, h⟩ := Option.bind_eq_some_iff.1 h
    obtain ⟨storage, hstorage, h⟩ := Option.map_eq_some_iff.1 h
    have hin := textureUploadDamage_inside hw0 hh0 prepared.damage_inside hupload
    obtain rfl := Option.some.inj ((uploadOffset_of_inside hin hw hh hfits).symm.trans hoffset)
    obtain ⟨rfl, -⟩ := Prod.mk.inj h
    exact Upload.InBounds.of_inside hin hw hh hrow hlen (storage_compatible hstorage)

/-- Damage in the last row of a buffer whose last row has no padding. -/
theorem upload_in_bounds_last_row : ∃ prepared : PixelPreflight Unit,
    preflightPixels [⟨1, 1, 5, 5⟩] 2 2 none = some prepared ∧ prepared.damage = some ⟨1, 1, 1, 1⟩ ∧
      ∀ u texture, uploadChecked prepared 2 2 16 24 (some ⟨7, 2, 2, ()⟩) true = some (u, texture) → u.InBounds 16 24 :=
  have hprepared : preflightPixels [⟨1, 1, 5, 5⟩] 2 2 (none : Option (Nat × Unit)) = some _ := rfl
  ⟨_, rfl, by decide, (upload_in_bounds hprepared (by decide) (by decide) (by decide) _ _).2.2⟩

example : (do
    let prepared ← preflightPixels [⟨1, 1, 5, 5⟩] 2 2 none
    let (u, _) ← uploadChecked prepared 2 2 16 24 (some ⟨7, 2, 2, ()⟩) true
    pure (u.offset, u.region)) = some (20, ⟨1, 1, 1, 1⟩) := by decide

end CocoaWay.Pixels

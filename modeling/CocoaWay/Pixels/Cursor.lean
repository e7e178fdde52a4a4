import CocoaWay.Pixels.Formats
import CocoaWay.Presentation.Damage
import Mathlib.Data.List.Nodup
import Mathlib.Data.Set.Function

/-!
# The bitmap of a cursor

* `bufferLayout` : what is accepted of a buffer;
* `transformedSize`, `transformedPixel` : where the pixels go; `transformedPixel_bijOn`;
* `convertRow`, `copyRow`, `readBitmap` : the loop over the rows, with the row copy where nothing is converted;
* `Shows` : a bitmap that has every pixel of the source; `readBitmap_shows`.
-/

namespace CocoaWay.Pixels.Cursor
open Lib
open Presentation (Transform)

def maxCursorDimension : Int := 512

/-- The offset and the stride, if all rows are inside the `len` bytes of the pool. -/
def bufferLayout (len : Nat) (offset width height stride : Int) : Option (Nat × Nat) :=
  if offset < 0 ∨ width ≤ 0 ∨ height ≤ 0 ∨ maxCursorDimension < width ∨ maxCursorDimension < height ∨
    stride ≤ 0 then none
  else
    (checkedMul width.toNat 4).bind fun rowBytes =>
      if stride.toNat < rowBytes then none
      else
        (checkedMul (height.toNat - 1) stride.toNat).bind fun padded =>
        (checkedAdd offset.toNat padded).bind fun start =>
        (checkedAdd start rowBytes).bind fun stop =>
          if stop ≤ len then some (offset.toNat, stride.toNat) else none

def transformedSize (width height : Nat) : Transform → Nat × Nat
  | .rotated90 | .rotated270 | .flipped90 | .flipped270 => (height, width)
  | .normal | .rotated180 | .flipped | .flipped180 => (width, height)

def transformedPixel (x y width height : Nat) : Transform → Nat × Nat
  | .normal => (x, y)
  | .rotated90 => (y, width - 1 - x)
  | .rotated180 => (width - 1 - x, height - 1 - y)
  | .rotated270 => (height - 1 - y, x)
  | .flipped => (width - 1 - x, y)
  | .flipped90 => (height - 1 - y, width - 1 - x)
  | .flipped180 => (x, height - 1 - y)
  | .flipped270 => (y, x)

/-- `source[start..stop]`. -/
def readRange (source : List UInt8) (start stop : Nat) : Except Stop (List UInt8) :=
  if start ≤ stop ∧ stop ≤ source.length then .ok (slice source start (stop - start)) else .error .panicked

/-- `destination[start..stop].copy_from_slice(bytes)`. -/
def writeRange (destination : List UInt8) (start stop : Nat) (bytes : List UInt8) : Except Stop (List UInt8) :=
  if start ≤ stop ∧ stop ≤ destination.length ∧ bytes.length = stop - start then .ok (overwrite destination start bytes)
  else .error .panicked

/-- The source of a bitmap, and its size in the destination. -/
structure Job where
  source : List UInt8
  offset : Nat
  stride : Nat
  sourceWidth : Nat
  sourceHeight : Nat
  format : Format
  transform : Transform

namespace Job

variable (job : Job)

def size : Nat × Nat := transformedSize job.sourceWidth job.sourceHeight job.transform

def row (y : Nat) : Except Stop (List UInt8) :=
  readRange job.source (job.offset + y * job.stride) (job.offset + y * job.stride + job.sourceWidth * 4)

/-- The number of the pixel in the destination that a pixel of the source goes to. -/
def position (p : Nat × Nat) : Nat :=
  let (x, y) := transformedPixel p.1 p.2 job.sourceWidth job.sourceHeight job.transform
  y * job.size.1 + x

/-- The pixel at `x` of row `y`. -/
def convertPixel (y : Nat) (destination : List UInt8) (entry : List UInt8 × Nat) : Except Stop (List UInt8) := do
  let base := job.position (entry.2, y) * 4
  let pixel ← orReject (pixelBgra job.format entry.1)
  writeRange destination base (base + 4) pixel

def convertRow (destination : List UInt8) (y : Nat) : Except Stop (List UInt8) := do
  let row ← job.row y
  (chunks 4 row).zipIdx.foldlM (job.convertPixel y) destination

def copyRow (destination : List UInt8) (y : Nat) : Except Stop (List UInt8) := do
  let row ← job.row y
  writeRange destination (y * job.size.1 * 4) ((y + 1) * job.size.1 * 4) row

/-- The rows that are copied as they are. -/
def isPlain : Bool := job.transform = .normal && job.format = .argb8888

def drawRow (destination : List UInt8) (y : Nat) : Except Stop (List UInt8) :=
  if job.isPlain then job.copyRow destination y else job.convertRow destination y

def draw (destination : List UInt8) : Except Stop (List UInt8) :=
  (List.range job.sourceHeight).foldlM job.drawRow destination

/-- The loop without the row copy. -/
def drawConverted (destination : List UInt8) : Except Stop (List UInt8) :=
  (List.range job.sourceHeight).foldlM job.convertRow destination

end Job

/-- What AppKit gives for a number of bytes, if anything. -/
abbrev Allocate := (n : Nat) → Option { destination : List UInt8 // destination.length = n }

/-- The job of a buffer, with its offset and stride. -/
def jobOf (source : List UInt8) (data : BufferData) (layout : Nat × Nat) (transform : Transform) : Job :=
  ⟨source, layout.1, layout.2, data.width.toNat, data.height.toNat, data.format, transform⟩

def readBitmap (source : List UInt8) (data : BufferData) (transform : Transform) (allocate : Allocate) :
    Except Stop (List UInt8) := do
  let layout ← orReject (bufferLayout source.length data.offset data.width data.height data.stride)
  let _ ← orReject (pixelBgra data.format [0, 0, 0, 0])
  let job := jobOf source data layout transform
  let destination ← orReject (allocate (job.size.1 * job.size.2 * 4))
  job.draw destination.1

/-! ## Where the pixels go -/

/-- The pixels of an image of a size. -/
def pixels (size : Nat × Nat) : Set (Nat × Nat) := { p | p.1 < size.1 ∧ p.2 < size.2 }

def inverse : Transform → Transform
  | .rotated90 => .rotated270
  | .rotated270 => .rotated90
  | .normal => .normal
  | .rotated180 => .rotated180
  | .flipped => .flipped
  | .flipped90 => .flipped90
  | .flipped180 => .flipped180
  | .flipped270 => .flipped270

theorem transformedPixel_mem {x y width height : Nat} (transform : Transform) (hx : x < width) (hy : y < height) :
    transformedPixel x y width height transform ∈ pixels (transformedSize width height transform) := by
  cases transform <;> simp only [transformedPixel, transformedSize, pixels, Set.mem_ofPred_eq] <;> omega

theorem transformedPixel_inverse {x y width height : Nat} (transform : Transform) (hx : x < width) (hy : y < height) :
    transformedPixel (transformedPixel x y width height transform).1 (transformedPixel x y width height transform).2
      (transformedSize width height transform).1 (transformedSize width height transform).2 (inverse transform) =
        (x, y) := by
  cases transform <;> simp only [transformedPixel, transformedSize, inverse, Prod.mk.injEq, true_and, and_true] <;>
    omega

theorem inverse_inverse (transform : Transform) : inverse (inverse transform) = transform := by
  cases transform <;> rfl

theorem transformedSize_inverse (width height : Nat) (transform : Transform) :
    transformedSize (transformedSize width height transform).1 (transformedSize width height transform).2
      (inverse transform) = (width, height) := by
  cases transform <;> rfl

theorem transformedPixel_bijOn (width height : Nat) (transform : Transform) :
    Set.BijOn (fun p => transformedPixel p.1 p.2 width height transform) (pixels (width, height))
      (pixels (transformedSize width height transform)) := by
  refine ⟨fun p hp => transformedPixel_mem transform hp.1 hp.2, fun p hp q hq hpq => ?_, fun p hp => ?_⟩
  · have hback := transformedPixel_inverse transform hp.1 hp.2
    dsimp only at hpq
    rw [hpq, transformedPixel_inverse transform hq.1 hq.2] at hback
    exact hback.symm
  · generalize hsize : transformedSize width height transform = size at hp
    have hmem := transformedPixel_mem (inverse transform) hp.1 hp.2
    have hback := transformedPixel_inverse (inverse transform) hp.1 hp.2
    rw [← hsize, transformedSize_inverse, inverse_inverse] at hback
    rw [← hsize, transformedSize_inverse] at hmem
    exact ⟨_, hmem, hback⟩

/-! ## What is accepted -/

theorem bufferLayout_eq_some {len : Nat} {offset width height stride : Int} {layout : Nat × Nat}
    (h : bufferLayout len offset width height stride = some layout) :
    layout = (offset.toNat, stride.toNat) ∧ 0 < width.toNat ∧ 0 < height.toNat ∧ width.toNat * 4 ≤ stride.toNat ∧
      offset.toNat + ((height.toNat - 1) * stride.toNat + width.toNat * 4) ≤ len := by
  unfold bufferLayout at h
  split at h
  · cases h
  · next hsize =>
    obtain ⟨_, hrow, h⟩ := Option.bind_eq_some_iff.1 h
    obtain ⟨-, rfl⟩ := checkedMul_eq_some.1 hrow
    split at h
    · cases h
    · next hstride =>
      simp only [Option.bind_eq_some_iff, checkedMul_eq_some, checkedAdd_eq_some] at h
      obtain ⟨_, ⟨-, rfl⟩, _, ⟨-, rfl⟩, _, ⟨-, rfl⟩, h⟩ := h
      split at h
      · next hstop =>
        obtain rfl := Option.some.inj h
        refine ⟨rfl, ?_⟩
        omega
      · cases h

/-! ## What is drawn -/

/-- The pixels of an image, row by row. -/
def coords (width height : Nat) : List (Nat × Nat) :=
  (List.range height).flatMap fun y => (List.range width).map fun x => (x, y)

theorem mem_coords {width height : Nat} {p : Nat × Nat} : p ∈ coords width height ↔ p ∈ pixels (width, height) := by
  obtain ⟨x, y⟩ := p
  simp [coords, pixels, and_comm]

theorem coords_nodup (width height : Nat) : (coords width height).Nodup := by
  refine List.nodup_flatMap.2 ⟨fun y _ => ?_, ?_⟩
  · exact List.nodup_range.map fun x x' h => (Prod.mk.inj h).1
  · refine List.nodup_range.imp fun {y y'} hne => ?_
    intro p hp hp'
    obtain ⟨x, -, rfl⟩ := List.mem_map.1 hp
    obtain ⟨x', -, h⟩ := List.mem_map.1 hp'
    exact hne (Prod.mk.inj h).2.symm

namespace Job

variable {job : Job}

def sourcePixel (job : Job) (p : Nat × Nat) : List UInt8 := slice job.source (job.offset + p.2 * job.stride + 4 * p.1) 4

/-- All rows are inside the source, and the format is one that is converted. -/
structure Valid (job : Job) : Prop where
  row_le : ∀ y < job.sourceHeight, job.offset + y * job.stride + job.sourceWidth * 4 ≤ job.source.length
  alpha : ∃ alpha, shmFormatAlpha job.format = some alpha

/-- A bitmap of the transformed size that has the conversion of every pixel in its place. -/
structure Shows (job : Job) (destination : List UInt8) : Prop where
  length : destination.length = 4 * (job.size.1 * job.size.2)
  pixel : ∀ p ∈ pixels (job.sourceWidth, job.sourceHeight),
    pixelToBgra job.format (job.sourcePixel p) = some (slice destination (4 * job.position p) 4)

theorem pixel_lt {x y width height : Nat} (hx : x < width) (hy : y < height) : y * width + x < width * height := by
  have hle := Nat.mul_le_mul_left width hy
  rw [Nat.mul_succ, Nat.mul_comm width y] at hle
  omega

variable {destination : List UInt8} {p : Nat × Nat}

theorem position_lt (hp : p ∈ pixels (job.sourceWidth, job.sourceHeight)) :
    job.position p < job.size.1 * job.size.2 := by
  obtain ⟨hx, hy⟩ := transformedPixel_mem job.transform hp.1 hp.2
  exact pixel_lt hx hy

theorem pixel_inj {x y x' y' width : Nat} (hx : x < width) (hx' : x' < width) (h : y * width + x = y' * width + x') :
    (x, y) = (x', y') := by
  have hmod := congrArg (· % width) h
  have hdiv := congrArg (· / width) h
  simp only [Nat.mul_comm _ width, Nat.mul_add_mod, Nat.mod_eq_of_lt hx, Nat.mod_eq_of_lt hx'] at hmod
  have hpos : 0 < width := by omega
  simp only [Nat.mul_comm _ width, Nat.mul_add_div hpos, Nat.div_eq_of_lt hx, Nat.div_eq_of_lt hx',
    Nat.add_zero] at hdiv
  rw [hmod, hdiv]

/-- Every pixel of the destination is written once. -/
theorem positions_perm (job : Job) :
    ((coords job.sourceWidth job.sourceHeight).map job.position).Perm (List.range (job.size.1 * job.size.2)) := by
  have hbij := transformedPixel_bijOn job.sourceWidth job.sourceHeight job.transform
  have hnodup : ((coords job.sourceWidth job.sourceHeight).map job.position).Nodup := by
    refine (coords_nodup _ _).map_on fun p hp q hq h => ?_
    rw [mem_coords] at hp hq
    exact hbij.injOn hp hq (pixel_inj (hbij.mapsTo hp).1 (hbij.mapsTo hq).1 h)
  refine (List.perm_ext_iff_of_nodup hnodup List.nodup_range).2 fun i => ?_
  rw [List.mem_map, List.mem_range]
  constructor
  · rintro ⟨p, hp, rfl⟩
    exact position_lt (mem_coords.1 hp)
  · intro hi
    have hwidth : 0 < job.size.1 := Nat.pos_of_ne_zero fun h => by simp [h] at hi
    have hq : (i % job.size.1, i / job.size.1) ∈ pixels job.size :=
      ⟨Nat.mod_lt _ hwidth, Nat.div_lt_of_lt_mul hi⟩
    obtain ⟨p, hp, hsame⟩ := hbij.surjOn hq
    refine ⟨p, mem_coords.2 hp, ?_⟩
    dsimp only at hsame
    rw [position, hsame]
    exact (Nat.div_add_mod' i job.size.1)

theorem Valid.sourcePixel_length (hv : job.Valid) (hp : p ∈ pixels (job.sourceWidth, job.sourceHeight)) :
    (job.sourcePixel p).length = 4 := by
  have hrow := hv.row_le p.2 hp.2
  have hx : p.1 < job.sourceWidth := hp.1
  exact slice_length (by omega)

theorem Valid.row (hv : job.Valid) {y : Nat} (hy : y < job.sourceHeight) :
    job.row y = .ok (slice job.source (job.offset + y * job.stride) (job.sourceWidth * 4)) := by
  have hrow := hv.row_le y hy
  rw [Job.row, readRange, if_pos (by omega), Nat.add_sub_cancel_left]

/-- Writing one pixel. -/
def drawPixel (job : Job) (destination : List UInt8) (p : Nat × Nat) : Except Stop (List UInt8) :=
  job.convertPixel p.2 destination (job.sourcePixel p, p.1)

theorem Valid.drawPixel (hv : job.Valid) (hl : destination.length = 4 * (job.size.1 * job.size.2))
    (hp : p ∈ pixels (job.sourceWidth, job.sourceHeight)) :
    ∃ bgra, pixelToBgra job.format (job.sourcePixel p) = some bgra ∧ bgra.length = 4 ∧
      job.drawPixel destination p = .ok (overwrite destination (4 * job.position p) bgra) := by
  obtain ⟨alpha, hf⟩ := hv.alpha
  obtain ⟨bgra, hbgra, hlen⟩ := pixelToBgra_of_alpha hf (hv.sourcePixel_length hp)
  have hposition := position_lt hp
  refine ⟨bgra, hbgra, hlen, ?_⟩
  have hwrite : writeRange destination (job.position p * 4) (job.position p * 4 + 4) bgra =
      .ok (overwrite destination (4 * job.position p) bgra) := by
    rw [writeRange, if_pos (by omega), Nat.mul_comm]
  simp only [Job.drawPixel, convertPixel, pixelBgra_eq_pixelToBgra, hbgra, orReject, Option.elim_some, bind,
    Except.bind]
  exact hwrite

theorem zipIdx_map_range {β : Type} (f : Nat → β) (n : Nat) :
    ((List.range n).map f).zipIdx = (List.range n).map fun x => (f x, x) := by
  apply List.ext_getElem
  · simp
  · intro i hi hi'
    simp

theorem Valid.convertRow (hv : job.Valid) (destination : List UInt8) {y : Nat} (hy : y < job.sourceHeight) :
    job.convertRow destination y = ((List.range job.sourceWidth).map fun x =>
      (x, y)).foldlM job.drawPixel destination := by
  have hrow := hv.row_le y hy
  have hchunks : chunks 4 (slice job.source (job.offset + y * job.stride) (job.sourceWidth * 4)) =
      (List.range job.sourceWidth).map fun x => job.sourcePixel (x, y) := by
    rw [Nat.mul_comm job.sourceWidth 4]
    exact chunks_slice (by decide) (by omega)
  simp only [Job.convertRow, hv.row hy, bind, Except.bind, hchunks, zipIdx_map_range, List.foldlM_map]
  rfl

/-- The loop that converts every pixel gives a bitmap that shows them all, whatever was in the destination. -/
theorem Valid.drawConverted (hv : job.Valid) (hl : destination.length = 4 * (job.size.1 * job.size.2)) :
    ∃ bitmap, job.drawConverted destination = .ok bitmap ∧ job.Shows bitmap := by
  have hrows : job.drawConverted destination =
      (coords job.sourceWidth job.sourceHeight).foldlM job.drawPixel destination := by
    rw [coords, foldlM_flatMap]
    exact foldlM_congr (fun y hy s => hv.convertRow s (List.mem_range.1 hy)) destination
  have hdraw : ∀ p ∈ coords job.sourceWidth job.sourceHeight, ∃ bgra,
      pixelToBgra job.format (job.sourcePixel p) = some bgra ∧ bgra.length = 4 ∧
      ∀ l : List UInt8, l.length = 4 * (job.size.1 * job.size.2) →
        job.drawPixel l p = .ok (overwrite l (4 * job.position p) bgra) := by
    intro p hp
    obtain ⟨bgra, hbgra, hlen, -⟩ := hv.drawPixel hl (mem_coords.1 hp)
    refine ⟨bgra, hbgra, hlen, fun l hl => ?_⟩
    obtain ⟨bgra', hbgra', -, hstep⟩ := hv.drawPixel hl (mem_coords.1 hp)
    rwa [Option.some.inj (hbgra.symm.trans hbgra')]
  have hstep : ∀ l : List UInt8, l.length = 4 * (job.size.1 * job.size.2) →
      ∀ p ∈ coords job.sourceWidth job.sourceHeight, job.drawPixel l p =
        .ok (overwrite l (4 * job.position p) ((pixelToBgra job.format (job.sourcePixel p)).getD [])) := by
    intro l hl p hp
    obtain ⟨bgra, hbgra, -, hstep⟩ := hdraw p hp
    rw [hstep l hl, hbgra, Option.getD_some]
  obtain ⟨bitmap, hfold, hlength, hblocks, -⟩ := foldlM_overwrite job.position
    (fun p => (pixelToBgra job.format (job.sourcePixel p)).getD []) hstep
    (fun p hp => by
      obtain ⟨bgra, hbgra, hlen, -⟩ := hdraw p hp
      rwa [hbgra, Option.getD_some])
    (fun p hp => position_lt (mem_coords.1 hp)) (job.positions_perm.nodup_iff.2 List.nodup_range) hl
  refine ⟨bitmap, hrows.trans hfold, hlength, fun p hp => ?_⟩
  obtain ⟨bgra, hbgra, -, -⟩ := hdraw p (mem_coords.2 hp)
  rw [hblocks p (mem_coords.2 hp), hbgra, Option.getD_some]

theorem Shows.unique {bitmap bitmap' : List UInt8} (h : job.Shows bitmap) (h' : job.Shows bitmap') :
    bitmap = bitmap' := by
  refine ext_blocks (by decide) h.length h'.length fun i hi => ?_
  obtain ⟨p, hp, rfl⟩ := List.mem_map.1 (job.positions_perm.mem_iff.2 (List.mem_range.2 hi))
  have hp := mem_coords.1 hp
  exact Option.some.inj ((h.pixel p hp).symm.trans (h'.pixel p hp))

/-- Where nothing is converted, copying whole rows gives the same bitmap. -/
theorem Valid.copyRows (hv : job.Valid) (hplain : job.isPlain = true)
    (hl : destination.length = 4 * (job.size.1 * job.size.2)) :
    ∃ bitmap, (List.range job.sourceHeight).foldlM job.copyRow destination = .ok bitmap ∧ job.Shows bitmap := by
  obtain ⟨htransform, hformat⟩ : job.transform = .normal ∧ job.format = .argb8888 := by simpa [isPlain] using hplain
  have hsize : job.size = (job.sourceWidth, job.sourceHeight) := by rw [size, htransform, transformedSize]
  have hcopy : ∀ l : List UInt8, l.length = job.sourceWidth * 4 * job.sourceHeight → ∀ y ∈ List.range job.sourceHeight,
      job.copyRow l y = .ok (overwrite l (job.sourceWidth * 4 * y)
        (slice job.source (job.offset + y * job.stride) (job.sourceWidth * 4))) := by
    intro l hl y hy
    have hy := List.mem_range.1 hy
    have hstart : y * job.sourceWidth * 4 = job.sourceWidth * 4 * y := by rw [Nat.mul_comm y, Nat.mul_right_comm]
    have hstop : (y + 1) * job.sourceWidth * 4 = job.sourceWidth * 4 * y + job.sourceWidth * 4 := by
      rw [Nat.succ_mul, Nat.add_mul, hstart]
    have hle := Nat.mul_le_mul_left (job.sourceWidth * 4) hy
    rw [Nat.mul_succ] at hle
    have hrow : (slice job.source (job.offset + y * job.stride) (job.sourceWidth * 4)).length = job.sourceWidth * 4 :=
      slice_length (hv.row_le y hy)
    simp only [copyRow, hv.row hy, hsize, hstart, hstop, bind, Except.bind]
    exact if_pos (by omega)
  have hcount : destination.length = job.sourceWidth * 4 * job.sourceHeight := by
    rw [hl, hsize, Nat.mul_comm job.sourceWidth 4, Nat.mul_assoc]
  obtain ⟨bitmap, hfold, hlength, hblocks, -⟩ := foldlM_overwrite id
    (fun y => slice job.source (job.offset + y * job.stride) (job.sourceWidth * 4)) hcopy
    (fun y hy => slice_length (hv.row_le y (List.mem_range.1 hy))) (fun y hy => List.mem_range.1 hy)
    (by simpa using List.nodup_range) hcount
  refine ⟨bitmap, hfold, by rw [hlength, ← hcount, hl], fun p hp => ?_⟩
  have hx : p.1 < job.sourceWidth := hp.1
  have hposition : 4 * job.position p = job.sourceWidth * 4 * p.2 + 4 * p.1 := by
    simp only [position, hsize, htransform, transformedPixel]
    rw [Nat.mul_add, Nat.mul_comm p.2, Nat.mul_comm job.sourceWidth 4, Nat.mul_assoc]
  have hpixel : slice bitmap (4 * job.position p) 4 = job.sourcePixel p := by
    have hblock := hblocks p.2 (List.mem_range.2 hp.2)
    dsimp only [id] at hblock
    have hinside : 4 * p.1 + 4 ≤ job.sourceWidth * 4 := by omega
    rw [hposition, ← slice_slice hinside, hblock, slice_slice hinside]
    rfl
  obtain ⟨b0, b1, b2, b3, hbytes⟩ := list_four (hv.sourcePixel_length hp)
  rw [hpixel, hformat, hbytes]
  rfl

/-- Every source is drawn as it is converted pixel by pixel. -/
theorem Valid.draw (hv : job.Valid) (hl : destination.length = 4 * (job.size.1 * job.size.2)) :
    ∃ bitmap, job.draw destination = .ok bitmap ∧ job.drawConverted destination = .ok bitmap ∧ job.Shows bitmap := by
  obtain ⟨bitmap, hconverted, hshows⟩ := hv.drawConverted hl
  refine ⟨bitmap, ?_, hconverted, hshows⟩
  by_cases hplain : job.isPlain = true
  · obtain ⟨bitmap', hcopied, hshows'⟩ := hv.copyRows hplain hl
    rw [hshows.unique hshows', ← hcopied]
    exact foldlM_congr (fun y _ s => if_pos hplain) destination
  · rw [← hconverted]
    exact foldlM_congr (fun y _ s => if_neg hplain) destination

end Job

theorem jobOf_valid {source : List UInt8} {data : BufferData} {layout : Nat × Nat} {alpha : TextureAlpha}
    (h : bufferLayout source.length data.offset data.width data.height data.stride = some layout)
    (hf : shmFormatAlpha data.format = some alpha) (transform : Transform) :
      (jobOf source data layout transform).Valid := by
  obtain ⟨rfl, -, hheight, hle, hlen⟩ := bufferLayout_eq_some h
  refine ⟨fun y hy => ?_, alpha, hf⟩
  have hy : y ≤ data.height.toNat - 1 := Nat.le_sub_one_of_lt hy
  have hrows := Nat.mul_le_mul_right data.stride.toNat hy
  simp only [jobOf]
  omega

/-- For every layout that is accepted, every format and every transform: the pixels go one to one onto the transformed
size, each is written once, and the bitmap shows the source, with the row copy as without it. -/
theorem readBitmap_shows {source : List UInt8} {data : BufferData} {layout : Nat × Nat} {alpha : TextureAlpha}
    (h : bufferLayout source.length data.offset data.width data.height data.stride = some layout)
    (hf : shmFormatAlpha data.format = some alpha) (transform : Transform) (allocate : Allocate) :
    Set.BijOn (fun p => transformedPixel p.1 p.2 data.width.toNat data.height.toNat transform)
      (pixels (data.width.toNat, data.height.toNat))
      (pixels (transformedSize data.width.toNat data.height.toNat transform)) ∧
    ((coords data.width.toNat data.height.toNat).map (jobOf source data layout transform).position).Perm
      (List.range ((jobOf source data layout transform).size.1 * (jobOf source data layout transform).size.2)) ∧
    ∀ destination,
      allocate ((jobOf source data layout transform).size.1 * (jobOf source data layout transform).size.2 * 4) =
        some destination →
      ∃ bitmap, readBitmap source data transform allocate = .ok bitmap ∧
        (jobOf source data layout transform).Shows bitmap ∧
        (jobOf source data layout transform).drawConverted destination.1 = .ok bitmap := by
  have hvalid := jobOf_valid h hf transform
  refine ⟨transformedPixel_bijOn _ _ _, Job.positions_perm _, ?_⟩
  obtain ⟨probe, hprobe⟩ : ∃ probe, pixelBgra data.format [0, 0, 0, 0] = some probe := by
    rw [pixelBgra_eq_pixelToBgra]
    obtain ⟨probe, hprobe, -⟩ := pixelToBgra_of_alpha hf (show [0, 0, 0, 0].length = 4 from rfl)
    exact ⟨probe, hprobe⟩
  intro destination hallocate
  have hlength := destination.2.trans (Nat.mul_comm _ _)
  obtain ⟨bitmap, hdraw, hconverted, hshows⟩ := hvalid.draw hlength
  refine ⟨bitmap, ?_, hshows, hconverted⟩
  simp only [readBitmap, h, hprobe, hallocate, orReject, Option.elim_some, bind, Except.bind]
  exact hdraw

/-- A row of two pixels that is turned becomes a column. -/
theorem readBitmap_shows_turned : ∃ bitmap, readBitmap [1, 2, 3, 4, 5, 6, 7, 8] ⟨0, 2, 1, 8, .abgr8888⟩ .rotated90
    (fun n => some ⟨List.replicate n 0, List.length_replicate⟩) = .ok bitmap ∧
    slice bitmap 4 4 = [3, 2, 1, 4] := by
  have hlayout : bufferLayout ([1, 2, 3, 4, 5, 6, 7, 8] : List UInt8).length 0 2 1 8 = some (0, 8) := by decide
  have h := @readBitmap_shows _ ⟨0, 2, 1, 8, .abgr8888⟩ _ _ hlayout rfl .rotated90 fun n =>
    some ⟨List.replicate n 0, List.length_replicate⟩
  obtain ⟨bitmap, hread, hshows, -⟩ := h.2.2 _ rfl
  refine ⟨bitmap, hread, ?_⟩
  exact (Option.some.inj (hshows.pixel (0, 0) ⟨by decide, by decide⟩)).symm

end CocoaWay.Pixels.Cursor

import CocoaWay.Pixels.Formats

/-!
# Snapshots of shared memory

* `PixelLayout.new`, `PixelLayout.forBuffer` : the bytes of a buffer in its pool;
* `prepareSnapshotPixels` : the compaction and conversion in place of a copy of them;
* `packedReference` : the packed image, pixel by pixel; `compactRows_ok` : what the loop over the rows makes;
* `snapshot_prepared` : the result for every buffer that is accepted.
-/

namespace CocoaWay.Pixels
open Lib

def maxSnapshotBytes : Nat := 256 * 1024 * 1024

structure PixelLayout where
  offset : Nat
  rowBytes : Nat
  height : Nat
  stride : Nat
  byteLen : Nat
  deriving DecidableEq

def PixelLayout.new (poolLen offset width height stride : Nat) : Option PixelLayout :=
  (checkedMul width 4).bind fun rowBytes =>
    if rowBytes = 0 ∨ stride < rowBytes then none
    else
      (checkedSub height 1).bind fun rows =>
      (checkedMul rows stride).bind fun padded =>
      (checkedAdd padded rowBytes).bind fun byteLen =>
      (checkedAdd offset byteLen).bind fun stop =>
        if poolLen < stop ∨ isizeMax < stop ∨ maxSnapshotBytes < byteLen then none
        else some ⟨offset, rowBytes, height, stride, byteLen⟩

def PixelLayout.forBuffer (poolLen : Nat) (data : BufferData) : Option PixelLayout :=
  (toUsize data.offset).bind fun offset =>
  (toUsize data.width).bind fun width =>
  (toUsize data.height).bind fun height =>
  (toUsize data.stride).bind fun stride => PixelLayout.new poolLen offset width height stride

/-- `copy_within(src..src + n, dst)`. -/
def copyWithin (pixels : List UInt8) (src n dst : Nat) : Except Stop (List UInt8) :=
  if src + n ≤ pixels.length ∧ dst + n ≤ pixels.length then .ok (overwrite pixels dst (slice pixels src n))
  else .error .panicked

/-- The pixels of a row, one after the other. -/
def convertRow (format : Format) (pixels : List UInt8) (dst rowBytes : Nat) : Except Stop (List UInt8) :=
  if dst + rowBytes ≤ pixels.length then
    (orReject ((chunks 4 (slice pixels dst rowBytes)).mapM (pixelToBgra format))).map fun row =>
      overwrite pixels dst row.flatten
  else .error .panicked

/-- One round of the loop. -/
def compactRow (layout : PixelLayout) (format : Format) (pixels : List UInt8) (y : Nat) : Except Stop (List UInt8) := do
  let src ← exact (y * layout.stride)
  let dst ← exact (y * layout.rowBytes)
  let _ ← exact (src + layout.rowBytes)
  let pixels ← copyWithin pixels src layout.rowBytes dst
  let _ ← exact (dst + layout.rowBytes)
  convertRow format pixels dst layout.rowBytes

def prepareSnapshotPixels (pixels : List UInt8) (layout : PixelLayout) (format : Format) :
    Except Stop (List UInt8 × Nat × TextureAlpha) := do
  let alpha ← orReject (shmFormatAlpha format)
  if pixels.length ≠ layout.byteLen then .error .rejected
  else if format = .argb8888 ∨ format = .xrgb8888 then .ok (pixels, layout.stride, alpha)
  else
    let packedLen ← orReject (checkedMul layout.rowBytes layout.height)
    let pixels ← (List.range layout.height).foldlM (compactRow layout format) pixels
    .ok (pixels.take packedLen, layout.rowBytes, alpha)

/-! ## What is accepted -/

theorem PixelLayout.new_eq_some {poolLen offset width height stride : Nat} {layout : PixelLayout}
    (h : PixelLayout.new poolLen offset width height stride = some layout) :
    layout = ⟨offset, width * 4, height, stride, (height - 1) * stride + width * 4⟩ ∧ 0 < width ∧ width * 4 ≤ stride ∧
      0 < height ∧ offset + ((height - 1) * stride + width * 4) ≤ poolLen ∧
      offset + ((height - 1) * stride + width * 4) ≤ isizeMax ∧
      (height - 1) * stride + width * 4 ≤ maxSnapshotBytes := by
  obtain ⟨_, hrow, h⟩ := Option.bind_eq_some_iff.1 h
  obtain ⟨-, rfl⟩ := checkedMul_eq_some.1 hrow
  split at h
  · cases h
  · next hrow =>
    simp only [Option.bind_eq_some_iff, checkedMul_eq_some, checkedSub_eq_some, checkedAdd_eq_some] at h
    obtain ⟨_, ⟨hrows, rfl⟩, _, ⟨-, rfl⟩, _, ⟨-, rfl⟩, _, ⟨-, rfl⟩, h⟩ := h
    split at h
    · cases h
    · next hstop =>
      obtain rfl := Option.some.inj h
      refine ⟨rfl, ?_⟩
      omega

theorem PixelLayout.forBuffer_eq_some {poolLen : Nat} {data : BufferData} {layout : PixelLayout}
    (h : PixelLayout.forBuffer poolLen data = some layout) : ∃ offset width height stride : Nat,
      data.offset = offset ∧ data.width = width ∧ data.height = height ∧ data.stride = stride ∧
      PixelLayout.new poolLen offset width height stride = some layout := by
  simp only [PixelLayout.forBuffer, Option.bind_eq_some_iff, toUsize_eq_some] at h
  obtain ⟨offset, ho, width, hw, height, hh, stride, hs, h⟩ := h
  exact ⟨offset, width, height, stride, ho, hw, hh, hs, h⟩

/-! ## Compaction -/

/-- The formats whose rows are used as they are. -/
def Format.isNative (format : Format) : Bool := format = .argb8888 || format = .xrgb8888

/-- The conversion of a pixel, for the formats that have one. -/
def bgraOf (format : Format) (bytes : List UInt8) : List UInt8 := (pixelToBgra format bytes).getD []

/-- Row `y` of the copied bytes, each pixel converted on its own. -/
def referenceRow (copied : List UInt8) (width stride : Nat) (format : Format) (y : Nat) : List UInt8 :=
  (List.range width).flatMap fun x => bgraOf format (slice copied (y * stride + 4 * x) 4)

def packedReference (copied : List UInt8) (width height stride : Nat) (format : Format) : List UInt8 :=
  (List.range height).flatMap (referenceRow copied width stride format)

section Compaction

variable {format : Format} {alpha : TextureAlpha} {copied : List UInt8} {width height stride : Nat}

theorem bgraOf_eq (hf : shmFormatAlpha format = some alpha) {bytes : List UInt8} (h : bytes.length = 4) :
    pixelToBgra format bytes = some (bgraOf format bytes) ∧ (bgraOf format bytes).length = 4 := by
  obtain ⟨bgra, hbgra, hlen⟩ := pixelToBgra_of_alpha hf h
  simp [bgraOf, hbgra, hlen]

theorem mapM_eq_some {α β : Type} {f : α → Option β} {g : α → β} {l : List α} (h : ∀ a ∈ l, f a = some (g a)) :
    l.mapM f = some (l.map g) := by
  induction l with
  | nil => rfl
  | cons a l ih =>
    rw [List.mapM_cons, h a (by simp), ih fun b hb => h b (by simp [hb])]
    rfl

variable {layout : PixelLayout} {y : Nat}

/-- The bytes of a row are inside what was copied. -/
theorem row_le (hy : y < height) (hlen : copied.length = (height - 1) * stride + width * 4) :
    y * stride + width * 4 ≤ copied.length := by
  have hle := Nat.mul_le_mul_right stride (show y ≤ height - 1 by omega)
  omega

theorem referenceRow_length (hf : shmFormatAlpha format = some alpha)
    (hrow : y * stride + width * 4 ≤ copied.length) :
      (referenceRow copied width stride format y).length = width * 4 := by
  rw [referenceRow, List.length_flatMap]
  have hpixel : ∀ x ∈ List.range width, (bgraOf format (slice copied (y * stride + 4 * x) 4)).length = 4 := by
    intro x hx
    have hx := List.mem_range.1 hx
    exact (bgraOf_eq hf (slice_length (by omega))).2
  rw [List.map_congr_left hpixel]
  simp

theorem convertRow_ok (hf : shmFormatAlpha format = some alpha) {pixels : List UInt8} {dst y : Nat}
    (hrow : y * stride + width * 4 ≤ copied.length) (hdst : dst + width * 4 ≤ pixels.length)
    (hslice : slice pixels dst (width * 4) = slice copied (y * stride) (width * 4)) :
    convertRow format pixels dst (width * 4) =
      .ok (overwrite pixels dst (referenceRow copied width stride format y)) := by
  have hchunks : chunks 4 (slice pixels dst (width * 4)) =
      (List.range width).map fun x => slice copied (y * stride + 4 * x) 4 := by
    rw [hslice, Nat.mul_comm width 4]
    exact chunks_slice (by decide) (by omega)
  have hmap : (chunks 4 (slice pixels dst (width * 4))).mapM (pixelToBgra format) =
      some ((chunks 4 (slice pixels dst (width * 4))).map (bgraOf format)) :=
    mapM_eq_some fun c hc => (bgraOf_eq hf (length_of_mem_chunks hc)).1
  rw [convertRow, if_pos hdst, hmap, hchunks]
  simp [orReject, Except.map, referenceRow, List.flatMap_def, Function.comp_def]

theorem copyWithin_ok {pixels : List UInt8} {src n dst : Nat} (hsrc : src + n ≤ pixels.length)
    (hdst : dst + n ≤ pixels.length) : copyWithin pixels src n dst = .ok (overwrite pixels dst (slice pixels src n)) :=
  if_pos ⟨hsrc, hdst⟩

/-- One row is moved to the front and converted there; what comes after it is as it was copied. -/
theorem compactRow_ok (hf : shmFormatAlpha format = some alpha)
    (hrowBytes : layout.rowBytes = width * 4) (hstride : layout.stride = stride) (hle : width * 4 ≤ stride)
    (hmax : copied.length ≤ usizeMax) (hrow : y * stride + width * 4 ≤ copied.length) {front : List UInt8}
    (hfront : front.length = y * (width * 4)) :
    compactRow layout format (front ++ copied.drop (y * (width * 4))) y =
      .ok (front ++ referenceRow copied width stride format y ++ copied.drop ((y + 1) * (width * 4))) := by
  have hyle : y * (width * 4) ≤ y * stride := Nat.mul_le_mul_left y hle
  have hrest : (front ++ copied.drop (y * (width * 4))).length = copied.length := by
    simp only [List.length_append, List.length_drop]
    omega
  have hsucc : (y + 1) * (width * 4) = y * (width * 4) + width * 4 := Nat.succ_mul _ _
  have hsource : slice (front ++ copied.drop (y * (width * 4))) (y * stride) (width * 4) =
      slice copied (y * stride) (width * 4) := by
    rw [slice_append_right (by omega), slice_drop, hfront]
    congr 1
    omega
  have hrowlen : (slice copied (y * stride) (width * 4)).length = width * 4 := slice_length hrow
  have hmoved : overwrite (front ++ copied.drop (y * (width * 4))) (y * (width * 4))
      (slice copied (y * stride) (width * 4)) =
        front ++ (slice copied (y * stride) (width * 4) ++ copied.drop ((y + 1) * (width * 4))) := by
    rw [← hfront, overwrite_append, hrowlen, List.drop_drop, hfront, hsucc, List.append_assoc]
  have hmovedlen : (front ++ (slice copied (y * stride) (width * 4) ++ copied.drop ((y + 1) * (width * 4)))).length =
      copied.length := by
    simp only [List.length_append, List.length_drop, hrowlen]
    omega
  have hself : slice (front ++ (slice copied (y * stride) (width * 4) ++ copied.drop ((y + 1) * (width * 4))))
      (y * (width * 4)) (width * 4) = slice copied (y * stride) (width * 4) := by
    rw [slice_append_right (by omega), hfront, Nat.sub_self, slice_append_left hrowlen]
  have hconvert := convertRow_ok hf hrow (by omega) hself
  have hrefLen := referenceRow_length hf hrow
  rw [← hfront, overwrite_append, hrefLen, List.drop_left' hrowlen] at hconvert
  rw [hfront] at hconvert
  have hsrc : exact (y * stride) = .ok (y * stride) := exact_of_le (by omega)
  have hdst : exact (y * (width * 4)) = .ok (y * (width * 4)) := exact_of_le (by omega)
  have hsrcEnd : exact (y * stride + width * 4) = .ok (y * stride + width * 4) := exact_of_le (by omega)
  have hdstEnd : exact (y * (width * 4) + width * 4) = .ok (y * (width * 4) + width * 4) := exact_of_le (by omega)
  have hcopy : copyWithin (front ++ copied.drop (y * (width * 4))) (y * stride) (width * 4) (y * (width * 4)) =
      .ok (front ++ (slice copied (y * stride) (width * 4) ++ copied.drop ((y + 1) * (width * 4)))) := by
    rw [copyWithin_ok (by omega) (by omega), hsource, hmoved]
  simp only [compactRow, hrowBytes, hstride, hsrc, hdst, hsrcEnd, hdstEnd, bind, Except.bind]
  rw [hcopy]
  exact hconvert

theorem compactRows_ok (hf : shmFormatAlpha format = some alpha)
    (hrowBytes : layout.rowBytes = width * 4) (hstride : layout.stride = stride) (hle : width * 4 ≤ stride)
    (hmax : copied.length ≤ usizeMax) (hlen : copied.length = (height - 1) * stride + width * 4) :
    ∀ rows ≤ height, (List.range rows).foldlM (compactRow layout format) copied =
      .ok (packedReference copied width rows stride format ++ copied.drop (rows * (width * 4))) ∧
      (packedReference copied width rows stride format).length = rows * (width * 4)
  | 0, _ => by simp [packedReference, pure, Except.pure]
  | rows + 1, hrows => by
    obtain ⟨ih, hfront⟩ := compactRows_ok hf hrowBytes hstride hle hmax hlen rows (by omega)
    have hrow := row_le (y := rows) hrows hlen
    have hnext : packedReference copied width (rows + 1) stride format =
        packedReference copied width rows stride format ++ referenceRow copied width stride format rows := by
      simp [packedReference, List.range_succ]
    refine ⟨?_, ?_⟩
    · rw [List.range_succ, List.foldlM_append, ih]
      have hstep := compactRow_ok hf hrowBytes hstride hle hmax hrow hfront
      simp only [bind, Except.bind, List.foldlM_cons, List.foldlM_nil, pure, Except.pure, hstep, hnext]
    · rw [hnext, List.length_append, hfront, referenceRow_length hf hrow, Nat.succ_mul]

theorem prepare_native (hf : shmFormatAlpha format = some alpha) (hn : format.isNative = true)
    (hlen : copied.length = layout.byteLen) :
    prepareSnapshotPixels copied layout format = .ok (copied, layout.stride, alpha) := by
  have hformat : format = .argb8888 ∨ format = .xrgb8888 := by simpa [Format.isNative] using hn
  simp only [prepareSnapshotPixels, hf, orReject, Option.elim_some, bind, Except.bind, if_pos hformat, hlen, ne_eq,
    not_true_eq_false, if_false]

theorem prepare_packed (hf : shmFormatAlpha format = some alpha) (hn : format.isNative = false)
    (hrowBytes : layout.rowBytes = width * 4) (hheight : layout.height = height) (hstride : layout.stride = stride)
    (hpos : 0 < height) (hle : width * 4 ≤ stride) (hmax : copied.length ≤ usizeMax)
    (hlen : copied.length = layout.byteLen) (hbytes : layout.byteLen = (height - 1) * stride + width * 4) :
    prepareSnapshotPixels copied layout format =
      .ok (packedReference copied width height stride format, width * 4, alpha) := by
  have hformat : ¬(format = .argb8888 ∨ format = .xrgb8888) := by simpa [Format.isNative] using hn
  obtain ⟨hrows, hpacked⟩ :=
    compactRows_ok hf hrowBytes hstride hle hmax (hlen.trans hbytes) height (Nat.le_refl _)
  have hsize : width * 4 * height ≤ usizeMax := by
    have hgap := Nat.mul_le_mul_left (height - 1) hle
    have hall : width * 4 * height = (height - 1) * (width * 4) + width * 4 := by
      rw [← Nat.succ_mul, Nat.mul_comm]
      congr 1
      omega
    omega
  have hmul : checkedMul (width * 4) layout.height = some (height * (width * 4)) := by
    rw [hheight]
    exact checkedMul_eq_some.2 ⟨hsize, Nat.mul_comm _ _⟩
  rw [← hheight] at hrows
  simp only [prepareSnapshotPixels, hf, orReject, Option.elim_some, bind, Except.bind, if_neg hformat, hlen, ne_eq,
    not_true_eq_false, if_false, hmul, hrows, hrowBytes]
  rw [hheight, List.take_left' hpacked]

end Compaction

/-- A native pixel is its own conversion, apart from an alpha that is not used. -/
theorem bgraOf_native {format : Format} (hn : format.isNative = true) {bytes : List UInt8} (h : bytes.length = 4) :
    (bgraOf format bytes).take 3 = bytes.take 3 ∧
      (bgraOf format bytes = bytes ∨ shmFormatAlpha format = some .opaqueAlpha) := by
  obtain ⟨a, b, c, d, rfl⟩ := list_four h
  cases format <;> simp [Format.isNative] at hn
  · exact ⟨rfl, Or.inl rfl⟩
  · exact ⟨rfl, Or.inr rfl⟩

/-- What is copied is inside the pool, and what is made of it has every pixel of the buffer: converted and packed, or
as it was copied where the format is native. -/
theorem snapshot_prepared {pool : List UInt8} {data : BufferData} {layout : PixelLayout}
    (h : PixelLayout.forBuffer pool.length data = some layout) :
    layout.offset + layout.byteLen ≤ pool.length ∧ layout.offset + layout.byteLen ≤ isizeMax ∧
    ∃ width height stride : Nat, data.width = width ∧ data.height = height ∧ data.stride = stride ∧
      layout.byteLen = (height - 1) * stride + width * 4 ∧
      (slice pool layout.offset layout.byteLen).length = layout.byteLen ∧
      (shmFormatAlpha data.format = none →
        prepareSnapshotPixels (slice pool layout.offset layout.byteLen) layout data.format = .error .rejected) ∧
      ∀ alpha, shmFormatAlpha data.format = some alpha →
        (data.format.isNative = false →
          prepareSnapshotPixels (slice pool layout.offset layout.byteLen) layout data.format =
            .ok (packedReference (slice pool layout.offset layout.byteLen) width height stride data.format, width * 4,
              alpha)) ∧
        (data.format.isNative = true →
          prepareSnapshotPixels (slice pool layout.offset layout.byteLen) layout data.format =
            .ok (slice pool layout.offset layout.byteLen, stride, alpha) ∧
          ∀ y < height, ∀ x < width, ∃ pixel, slice (slice pool layout.offset layout.byteLen) (y * stride + 4 * x) 4 = pixel ∧
            pixel.length = 4 ∧ (bgraOf data.format pixel).take 3 = pixel.take 3 ∧
            (bgraOf data.format pixel = pixel ∨ alpha = .opaqueAlpha)) := by
  obtain ⟨offset, width, height, stride, -, hw, hh, hs, hnew⟩ := PixelLayout.forBuffer_eq_some h
  obtain ⟨rfl, hwidth, hle, hheight, hpool, hsize, -⟩ := PixelLayout.new_eq_some hnew
  generalize hcopied : slice pool offset ((height - 1) * stride + width * 4) = copied
  have hlen : copied.length = (height - 1) * stride + width * 4 := by
    rw [← hcopied]
    exact slice_length hpool
  have hmax : copied.length ≤ usizeMax := by
    unfold isizeMax at hsize
    unfold usizeMax
    omega
  refine ⟨hpool, hsize, width, height, stride, hw, hh, hs, rfl, hlen, fun hnone => ?_, fun alpha hf =>
    ⟨fun hn => prepare_packed hf hn rfl rfl rfl hheight hle hmax hlen rfl, fun hn =>
      ⟨prepare_native hf hn hlen, fun y hy x hx => ?_⟩⟩⟩
  · simp only [prepareSnapshotPixels, hnone]
    rfl
  · have hrow := row_le hy hlen
    have hpixel : (slice copied (y * stride + 4 * x) 4).length = 4 := slice_length (by omega)
    obtain ⟨hcolour, halpha⟩ := bgraOf_native hn hpixel
    refine ⟨_, rfl, hpixel, hcolour, halpha.imp_right fun hopaque => ?_⟩
    rw [hf] at hopaque
    exact Option.some.inj hopaque

/-- Two rows of one pixel, after a byte of the pool, are packed and converted. -/
theorem snapshot_prepared_abgr :
    prepareSnapshotPixels (slice [0, 1, 2, 3, 4, 5, 6, 7, 8, 9, 10, 11, 12] 1 12) ⟨1, 4, 2, 8, 12⟩ .abgr8888 =
      .ok ([3, 2, 1, 4, 11, 10, 9, 12], 4, .premultiplied) := by
  have haccepted : PixelLayout.forBuffer ([0, 1, 2, 3, 4, 5, 6, 7, 8, 9, 10, 11, 12] : List UInt8).length
      ⟨1, 1, 2, 8, .abgr8888⟩ = some ⟨1, 4, 2, 8, 12⟩ := by
    decide
  obtain ⟨-, -, width, height, stride, hw, hh, hs, -, -, -, h⟩ := snapshot_prepared haccepted
  obtain rfl : 1 = width := Int.ofNat.inj hw
  obtain rfl : 2 = height := Int.ofNat.inj hh
  obtain rfl : 8 = stride := Int.ofNat.inj hs
  rw [(h .premultiplied rfl).1 rfl]
  decide

/-- Rows of a native format are not packed, and its bytes are not changed. -/
theorem native_rows_kept :
    (PixelLayout.forBuffer 12 ⟨0, 1, 2, 8, .argb8888⟩ = some ⟨0, 4, 2, 8, 12⟩ ∧
      prepareSnapshotPixels [1, 2, 3, 4, 0, 0, 0, 0, 5, 6, 7, 8] ⟨0, 4, 2, 8, 12⟩ .argb8888 ≠
        .ok (packedReference [1, 2, 3, 4, 0, 0, 0, 0, 5, 6, 7, 8] 1 2 8 .argb8888, 4, .premultiplied)) ∧
    PixelLayout.forBuffer 4 ⟨0, 1, 1, 4, .xrgb8888⟩ = some ⟨0, 4, 1, 4, 4⟩ ∧
      prepareSnapshotPixels [1, 2, 3, 0] ⟨0, 4, 1, 4, 4⟩ .xrgb8888 = .ok ([1, 2, 3, 0], 4, .opaqueAlpha) ∧
      packedReference [1, 2, 3, 0] 1 1 4 .xrgb8888 = [1, 2, 3, 255] := by
  refine ⟨⟨by decide, ?_⟩, by decide, rfl, by decide⟩
  rw [prepare_native rfl rfl rfl]
  decide

end CocoaWay.Pixels

import CocoaWay.Lib.Slices

/-!
# Pixels of shared memory

* `checkedAdd`, `checkedMul`, `checkedSub`, `toUsize` : arithmetic of `usize`;
* `Format`, `BufferData` : what a client says about a buffer;
* `pixelToBgra`, `pixelBgra` : the conversions of the renderer and of the cursor; `pixelBgra_eq_pixelToBgra`.
-/

namespace CocoaWay.Pixels

/-! ## Sizes -/

def usizeMax : Nat := 18446744073709551615

def isizeMax : Nat := 9223372036854775807

def checkedAdd (a b : Nat) : Option Nat := if a + b ≤ usizeMax then some (a + b) else none

def checkedMul (a b : Nat) : Option Nat := if a * b ≤ usizeMax then some (a * b) else none

def checkedSub (a b : Nat) : Option Nat := if b ≤ a then some (a - b) else none

/-- `usize::try_from`. -/
def toUsize (n : Int) : Option Nat := if 0 ≤ n then some n.toNat else none

theorem checkedAdd_eq_some {a b c : Nat} : checkedAdd a b = some c ↔ a + b ≤ usizeMax ∧ a + b = c := by
  simp [checkedAdd]

theorem checkedMul_eq_some {a b c : Nat} : checkedMul a b = some c ↔ a * b ≤ usizeMax ∧ a * b = c := by
  simp [checkedMul]

theorem checkedSub_eq_some {a b c : Nat} : checkedSub a b = some c ↔ b ≤ a ∧ a - b = c := by
  simp [checkedSub]

theorem toUsize_eq_some {n : Int} {c : Nat} : toUsize n = some c ↔ n = c := by
  unfold toUsize
  split
  · rw [Option.some_inj]
    omega
  · constructor
    · nofun
    · omega

/-- How a computation ends that gives nothing. -/
inductive Stop
  | rejected
  /-- An index is out of range, or a size does not fit. -/
  | panicked
  deriving DecidableEq

/-- `?` on an option. -/
def orReject {α : Type} (value : Option α) : Except Stop α := value.elim (.error .rejected) .ok

/-- Unchecked arithmetic. -/
def exact (n : Nat) : Except Stop Nat := if n ≤ usizeMax then .ok n else .error .panicked

theorem exact_of_le {n : Nat} (h : n ≤ usizeMax) : exact n = .ok n := if_pos h

/-! ## Formats -/

/-- A `wl_shm` format. -/
inductive Format
  | argb8888
  | xrgb8888
  | abgr8888
  | xbgr8888
  | rgba8888
  | rgbx8888
  | bgra8888
  | bgrx8888
  | other (code : UInt32)
  deriving DecidableEq

inductive TextureAlpha
  | premultiplied
  | opaqueAlpha
  deriving DecidableEq

structure BufferData where
  offset : Int
  width : Int
  height : Int
  stride : Int
  format : Format

def shmFormatAlpha : Format → Option TextureAlpha
  | .argb8888 | .abgr8888 | .rgba8888 | .bgra8888 => some .premultiplied
  | .xrgb8888 | .xbgr8888 | .rgbx8888 | .bgrx8888 => some .opaqueAlpha
  | .other _ => none

/-- `pixel_to_bgra` of `render.rs`; it is given four bytes. -/
def pixelToBgra (format : Format) : List UInt8 → Option (List UInt8)
  | [b0, b1, b2, b3] =>
    match format with
    | .argb8888 => some [b0, b1, b2, b3]
    | .xrgb8888 => some [b0, b1, b2, 0xFF]
    | .abgr8888 => some [b2, b1, b0, b3]
    | .xbgr8888 => some [b2, b1, b0, 0xFF]
    | .rgba8888 => some [b1, b2, b3, b0]
    | .rgbx8888 => some [b1, b2, b3, 0xFF]
    | .bgra8888 => some [b3, b2, b1, b0]
    | .bgrx8888 => some [b3, b2, b1, 0xFF]
    | .other _ => none
  | _ => none

/-- `pixel_bgra` of `native_cursor.rs`. -/
def pixelBgra (format : Format) : List UInt8 → Option (List UInt8)
  | [a, b, c, d] =>
    match format with
    | .argb8888 => some [a, b, c, d]
    | .xrgb8888 => some [a, b, c, 255]
    | .abgr8888 => some [c, b, a, d]
    | .xbgr8888 => some [c, b, a, 255]
    | .rgba8888 => some [b, c, d, a]
    | .rgbx8888 => some [b, c, d, 255]
    | .bgra8888 => some [d, c, b, a]
    | .bgrx8888 => some [d, c, b, 255]
    | .other _ => none
  | _ => none

/-- The cursor and the renderer read a pixel alike. -/
theorem pixelBgra_eq_pixelToBgra (format : Format) (bytes : List UInt8) :
    pixelBgra format bytes = pixelToBgra format bytes := by
  cases format <;> rfl

theorem list_four {bytes : List UInt8} (h : bytes.length = 4) : ∃ a b c d, bytes = [a, b, c, d] := by
  match bytes, h with
  | [a, b, c, d], _ => exact ⟨a, b, c, d, rfl⟩

/-- Every format that has an alpha is converted, a pixel to a pixel. -/
theorem pixelToBgra_of_alpha {format : Format} {alpha : TextureAlpha} (hf : shmFormatAlpha format = some alpha)
    {bytes : List UInt8} (h : bytes.length = 4) :
    ∃ bgra, pixelToBgra format bytes = some bgra ∧ bgra.length = 4 := by
  obtain ⟨a, b, c, d, rfl⟩ := list_four h
  cases format <;> first | exact ⟨_, rfl, rfl⟩ | cases hf

end CocoaWay.Pixels

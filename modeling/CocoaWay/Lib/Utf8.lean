import Mathlib.Algebra.Ring.Nat
import Mathlib.Data.List.Basic

/-!
# Lossy decoding of UTF-8

* `Utf8.lead` : what a first byte announces;
* `Utf8.decode` : the decoder, a byte at a time, with the sequence it is in; each maximal ill-formed part becomes
  U+FFFD;
* `fromUtf8Lossy` : the text of some bytes;
* `mem_of_mem_fromUtf8Lossy` : a character of one byte comes from that byte.
-/

namespace CocoaWay.Lib

namespace Utf8

/-- A sequence that has begun: the value so far, how many bytes follow, and the range of the next one. -/
structure Open where
  value : Nat
  rest : Nat
  low : Nat := 0x80
  high : Nat := 0xBF

/-- What a first byte announces: a character, a longer sequence, or nothing well formed. -/
inductive Lead
  | char (c : Char)
  | begins (o : Open)
  | illFormed

def lead (b : Nat) : Lead :=
  if b < 0x80 then .char (Char.ofNat b)
  else if 0xC2 ≤ b ∧ b ≤ 0xDF then .begins { value := b - 0xC0, rest := 1 }
  else if b = 0xE0 then .begins { value := 0, rest := 2, low := 0xA0 }
  else if b = 0xED then .begins { value := 0xD, rest := 2, high := 0x9F }
  else if 0xE1 ≤ b ∧ b ≤ 0xEF then .begins { value := b - 0xE0, rest := 2 }
  else if b = 0xF0 then .begins { value := 0, rest := 3, low := 0x90 }
  else if 0xF1 ≤ b ∧ b ≤ 0xF3 then .begins { value := b - 0xF0, rest := 3 }
  else if b = 0xF4 then .begins { value := 4, rest := 3, high := 0x8F }
  else .illFormed

def replacement : Char := Char.ofNat 0xFFFD

/-- A byte that starts anew: what it is read as, and the sequence it begins. -/
def start (b : Nat) : List Char × Option Open :=
  match lead b with
  | .char c => ([c], none)
  | .begins o => ([], some o)
  | .illFormed => ([replacement], none)

/-- One byte. A byte that does not go on with the sequence ends it as ill formed and starts anew. -/
def step (o : Option Open) (b : Nat) : List Char × Option Open :=
  match o with
  | none => start b
  | some o =>
    if o.low ≤ b ∧ b ≤ o.high then
      let value := o.value * 64 + (b - 0x80)
      if o.rest = 1 then ([Char.ofNat value], none) else ([], some { value := value, rest := o.rest - 1 })
    else (replacement :: (start b).1, (start b).2)

def decode : Option Open → List UInt8 → List Char
  | none, [] => []
  | some _, [] => [replacement]
  | o, b :: bytes => (step o b.toNat).1 ++ decode (step o b.toNat).2 bytes

end Utf8

/-- `String::from_utf8_lossy`. -/
def fromUtf8Lossy (bytes : List UInt8) : List Char := Utf8.decode none bytes

example : fromUtf8Lossy [0x61, 0xE2, 0x82, 0xAC, 0xE2, 0x82, 0x62, 0xF0] =
    ['a', Char.ofNat 0x20AC, Utf8.replacement, 'b', Utf8.replacement] := by decide

/-! ## Characters of one byte -/

namespace Utf8

/-- What has begun ends in no character below U+0080. -/
structure Open.Wide (o : Open) : Prop where
  low : 0x80 ≤ o.low
  rest : 0 < o.rest
  value : 0x80 ≤ (o.value * 64 + (o.low - 0x80)) * 64 ^ (o.rest - 1)

variable {o : Open} {b : Nat}

theorem wide_of_lead (h : lead b = .begins o) : o.Wide := by
  unfold lead at h
  split_ifs at h <;> obtain rfl := Lead.begins.inj h
  all_goals exact ⟨by dsimp only; omega, Nat.succ_pos _, by dsimp only; omega⟩

theorem Open.Wide.last (h : o.Wide) (hb : o.low ≤ b) (hrest : o.rest = 1) :
    0x80 ≤ o.value * 64 + (b - 0x80) := by
  have hvalue := h.value
  rw [hrest, Nat.sub_self, Nat.pow_zero, Nat.mul_one] at hvalue
  omega

theorem Open.Wide.more (h : o.Wide) (hb : o.low ≤ b) (hrest : o.rest ≠ 1) :
    Open.Wide { value := o.value * 64 + (b - 0x80), rest := o.rest - 1 } := by
  have hpos := h.rest
  refine ⟨Nat.le_refl _, by dsimp only; omega, ?_⟩
  calc 0x80 ≤ (o.value * 64 + (o.low - 0x80)) * 64 ^ (o.rest - 1) := h.value
    _ ≤ (o.value * 64 + (b - 0x80)) * 64 ^ (o.rest - 1) := Nat.mul_le_mul_right _ (by omega)
    _ = (o.value * 64 + (b - 0x80)) * (64 ^ (o.rest - 1 - 1) * 64) := by
      rw [← Nat.pow_succ]
      congr 2
      omega
    _ = ((o.value * 64 + (b - 0x80)) * 64 + (0x80 - 0x80)) * 64 ^ (o.rest - 1 - 1) := by
      rw [Nat.sub_self, Nat.add_zero, Nat.mul_assoc, Nat.mul_comm 64]

theorem toNat_ofNat (n : Nat) : (Char.ofNat n).toNat = n ∨ (Char.ofNat n).toNat = 0 := by
  by_cases hn : n.isValidChar
  · left
    rw [Char.ofNat, dif_pos hn]
    rfl
  · right
    rw [Char.ofNat, dif_neg hn]
    rfl

section Ascii

variable {c : Char} {bytes : List UInt8}

theorem start_ascii (hpos : 0 < c.toNat) (hc : c.toNat < 0x80) (b : Nat) :
    (∀ o, (start b).2 = some o → o.Wide) ∧ (c ∈ (start b).1 → b = c.toNat) := by
  unfold start
  split
  · next d hd =>
    refine ⟨nofun, fun hm => ?_⟩
    obtain rfl := List.mem_singleton.1 hm
    unfold lead at hd
    split_ifs at hd
    obtain rfl := Lead.char.inj hd
    rcases toNat_ofNat b with h | h
    · exact h.symm
    · omega
  · next o ho =>
    refine ⟨fun o' ho' => ?_, nofun⟩
    obtain rfl := Option.some.inj ho'
    exact wide_of_lead ho
  · refine ⟨nofun, fun hm => ?_⟩
    obtain rfl := List.mem_singleton.1 hm
    exact absurd hc (by decide)

theorem step_ascii (hpos : 0 < c.toNat) (hc : c.toNat < 0x80) {o : Option Open} (ho : ∀ o', o = some o' → o'.Wide)
    (b : Nat) :
    (∀ o', (step o b).2 = some o' → o'.Wide) ∧ (c ∈ (step o b).1 → b = c.toNat) := by
  cases o with
  | none => exact start_ascii hpos hc b
  | some o =>
    have hwide := ho o rfl
    have hstart := start_ascii hpos hc b
    unfold step
    dsimp only
    split
    · next hb =>
      split
      · next hrest =>
        refine ⟨nofun, fun hm => ?_⟩
        rw [List.mem_singleton.1 hm] at hpos hc
        have hlast := hwide.last hb.1 hrest
        rcases toNat_ofNat (o.value * 64 + (b - 0x80)) with h | h <;> omega
      · next hrest =>
        refine ⟨fun o' ho' => ?_, nofun⟩
        obtain rfl := Option.some.inj ho'
        exact hwide.more hb.1 hrest
    · refine ⟨hstart.1, fun hm => ?_⟩
      rcases List.mem_cons.1 hm with rfl | hm
      · exact absurd hc (by decide)
      · exact hstart.2 hm

theorem mem_of_mem_decode (hpos : 0 < c.toNat) (hc : c.toNat < 0x80) {o : Option Open}
    (ho : ∀ o', o = some o' → o'.Wide)
    (hm : c ∈ decode o bytes) : UInt8.ofNat c.toNat ∈ bytes := by
  induction bytes generalizing o with
  | nil =>
    cases o with
    | none => cases hm
    | some o =>
      obtain rfl := List.mem_singleton.1 hm
      exact absurd hc (by decide)
  | cons b bytes ih =>
    have hstep := step_ascii hpos hc ho b.toNat
    have hdecode : decode o (b :: bytes) = (step o b.toNat).1 ++ decode (step o b.toNat).2 bytes := by
      cases o <;> rfl
    rw [hdecode] at hm
    rcases List.mem_append.1 hm with hm | hm
    · rw [← hstep.2 hm, UInt8.ofNat_toNat]
      exact List.mem_cons_self
    · exact List.mem_cons_of_mem b (ih hstep.1 hm)

end Ascii

end Utf8

/-- A character of one byte is read only where that byte stands. -/
theorem mem_of_mem_fromUtf8Lossy {c : Char} {bytes : List UInt8} (hpos : 0 < c.toNat) (hc : c.toNat < 0x80)
    (hm : c ∈ fromUtf8Lossy bytes) : UInt8.ofNat c.toNat ∈ bytes :=
  Utf8.mem_of_mem_decode (o := none) hpos hc nofun hm

end CocoaWay.Lib

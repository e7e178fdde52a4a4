import Mathlib.Algebra.Field.Basic
import Mathlib.Algebra.Order.Group.Pointwise.Interval
import Mathlib.Data.Fintype.Basic
import Mathlib.Order.Interval.Set.UnorderedInterval
import Mathlib.Tactic.FieldSimp
import Mathlib.Tactic.FinCases
import Mathlib.Tactic.Linarith

/-!
# Turns of a box

* `KeepsBoxes f` : `f` maps the box between two corners onto the box between their images;
* `Turn` : a symmetry of the square; `Turn.linear`, `Turn.image` : its action on the plane, and on a box about its
  centre;
* `image_keeps`, `image_mem` : the image of a box is a box, inside the turned one;
* `image_div` : the image in the unit square.
-/

namespace CocoaWay.Lib
open Set

section Boxes

variable {L M : Type*} [Lattice L] [Lattice M]

def KeepsBoxes (f : L → M) : Prop := ∀ p q, f '' uIcc p q = uIcc (f p) (f q)

namespace KeepsBoxes

theorem id : KeepsBoxes (id : L → L) := fun p q => image_id (uIcc p q)

theorem comp {N : Type*} [Lattice N] {g : M → N} {f : L → M} (hg : KeepsBoxes g) (hf : KeepsBoxes f) :
    KeepsBoxes (g ∘ f) := by
  intro p q
  rw [image_comp, hf, hg]
  rfl

theorem iterate {f : L → L} (hf : KeepsBoxes f) (n : ℕ) : KeepsBoxes f^[n] := by
  induction n with
  | zero => exact .id
  | succ n ih => exact ih.comp hf

theorem prodMap {L' M' : Type*} [Lattice L'] [Lattice M'] {f : L → M} {g : L' → M'} (hf : KeepsBoxes f)
    (hg : KeepsBoxes g) :
    KeepsBoxes (Prod.map f g) := by
  rintro ⟨p₁, p₂⟩ ⟨q₁, q₂⟩
  rw [← uIcc_prod_uIcc, prodMap_image_prod, hf, hg, uIcc_prod_uIcc]
  rfl

theorem swap : KeepsBoxes (Prod.swap : L × M → M × L) := by
  rintro ⟨p₁, p₂⟩ ⟨q₁, q₂⟩
  rw [← uIcc_prod_uIcc, image_swap_prod, uIcc_prod_uIcc]
  rfl

end KeepsBoxes

end Boxes

variable {K : Type*} [Field K]

def centre (box : K × K) : K × K := (box.1 / 2, box.2 / 2)

/-- A quarter turn of the plane. -/
def quarter (p : K × K) : K × K := (-p.2, p.1)

/-- The reflection of the first axis. -/
def mirror (p : K × K) : K × K := (-p.1, p.2)

/-- Quarter turns, and then a reflection or not. -/
structure Turn where
  quarters : Fin 4
  mirrored : Bool

namespace Turn

variable {t : Turn} {box p : K × K}

def linear (t : Turn) (p : K × K) : K × K := (if t.mirrored then mirror else id) (quarter^[t.quarters] p)

/-- The size of a box after the turn. -/
def size (t : Turn) (box : K × K) : K × K := if t.quarters.val % 2 = 1 then box.swap else box

/-- The turn of a box about its centre. -/
def image (t : Turn) (box p : K × K) : K × K := t.linear (p - centre box) + centre (t.size box)

theorem image_div (t : Turn) (hwidth : box.1 ≠ 0) (hheight : box.2 ≠ 0) :
    t.image box p / t.size box = t.image 1 (p / box) := by
  obtain ⟨quarters, mirrored⟩ := t
  fin_cases quarters <;> cases mirrored <;>
    ext <;> simp [image, linear, size, centre, quarter, mirror] <;> field_simp

theorem size_one (t : Turn) : t.size (1 : K × K) = 1 := by
  unfold size
  split <;> rfl

variable [LinearOrder K] [IsStrictOrderedRing K]

theorem image_keeps (t : Turn) (box : K × K) : KeepsBoxes (t.image box) := by
  have hneg : KeepsBoxes (Neg.neg : K → K) := fun a b => by rw [image_neg_eq_neg, neg_uIcc]
  have hmirror : KeepsBoxes (mirror : K × K → K × K) := hneg.prodMap .id
  have hquarter : KeepsBoxes (quarter : K × K → K × K) := (hneg.prodMap .id).comp .swap
  have hadd (c : K × K) : KeepsBoxes (· + c) :=
    .prodMap (image_add_const_uIcc c.1) (image_add_const_uIcc c.2)
  have hlinear : KeepsBoxes (t.linear : K × K → K × K) := by
    refine .comp ?_ (hquarter.iterate t.quarters)
    cases t.mirrored
    · exact .id
    · exact hmirror
  have himage : t.image box = (· + centre (t.size box)) ∘ t.linear ∘ (· + -centre box) := by
    ext p <;> simp [image, sub_eq_add_neg]
  rw [himage]
  exact (hadd _).comp (hlinear.comp (hadd _))

/-- The image of a box at the origin is in the turned box. -/
theorem image_mem (t : Turn) (h : p ∈ Icc 0 box) : t.image box p ∈ Icc 0 (t.size box) := by
  obtain ⟨⟨hleft, htop⟩, hright, hbottom⟩ := h
  dsimp only [Prod.fst_zero, Prod.snd_zero] at hleft htop
  obtain ⟨quarters, mirrored⟩ := t
  fin_cases quarters <;> cases mirrored <;>
    refine ⟨⟨?_, ?_⟩, ?_, ?_⟩ <;> simp [image, linear, size, centre, quarter, mirror] <;> linarith

end Turn

end CocoaWay.Lib

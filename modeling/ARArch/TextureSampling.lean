import Mathlib.Algebra.Order.Archimedean.Basic
import Mathlib.Data.Rat.Floor
import Mathlib.Tactic.Linarith
import Mathlib.Tactic.Positivity
import Mathlib.Tactic.Ring

/-!
# Sampling a texture

The texels that a linear filter weighs are those around the place that is sampled: along each axis
the middles of at most two of them are less than one texel away. With the addressing mode REPEAT the
texels beyond an edge are those at the opposite one. Nothing is said of the weights, which devices
compute with a precision of their own.
-/

namespace TextureSampling

/-- The addressing mode REPEAT. -/
def wrap (size : ℕ) (i : ℤ) : ℕ := (i % size).toNat

/-- The texels around a place along an axis of `size` texels, some of them maybe beyond its ends. -/
def footprint (size : ℕ) (u : ℚ) : Set ℤ := {i | |u * size - (i + 1 / 2)| < 1}

variable {size : ℕ} {u : ℚ} {i : ℤ}

theorem mem_footprint :
    i ∈ footprint size u ↔ u * size - 3 / 2 < i ∧ (i : ℚ) < u * size + 1 / 2 := by
  rw [footprint, Set.mem_ofPred_eq, abs_lt]
  constructor <;> rintro ⟨h₁, h₂⟩ <;> constructor <;> linarith

/-- The place in texels, less the half of one. -/
def unnormalized (size : ℕ) (u : ℚ) : ℚ := u * size - 1 / 2

/-- There are two of them, unless the place is the middle of one. -/
theorem mem_footprint_iff : i ∈ footprint size u ↔
    i = ⌊unnormalized size u⌋ ∨
      i = ⌊unnormalized size u⌋ + 1 ∧ Int.fract (unnormalized size u) ≠ 0 := by
  have hsum := Int.floor_add_fract (unnormalized size u)
  have hnonneg := Int.fract_nonneg (unnormalized size u)
  have hlt := Int.fract_lt_one (unnormalized size u)
  rw [mem_footprint]
  generalize ⌊unnormalized size u⌋ = floor at hsum ⊢
  generalize Int.fract (unnormalized size u) = fract at hsum hnonneg hlt ⊢
  rw [unnormalized] at hsum
  constructor
  · rintro ⟨hlow, hhigh⟩
    have hfirst : floor ≤ i := by
      have hcast : (floor : ℚ) < i + 1 := by linarith
      exact Int.lt_add_one_iff.mp (by exact_mod_cast hcast)
    obtain heq | hnext := hfirst.eq_or_lt
    · exact Or.inl heq.symm
    · have hnext' : (floor : ℚ) + 1 ≤ i := by exact_mod_cast hnext
      have hlast : i < floor + 2 := by
        have hcast : (i : ℚ) < floor + 2 := by linarith
        exact_mod_cast hcast
      refine Or.inr ⟨by omega, ?_⟩
      rintro rfl
      linarith
  · rintro (rfl | ⟨rfl, hne⟩)
    · constructor <;> linarith
    · have hpos := lt_of_le_of_ne hnonneg hne.symm
      push_cast
      constructor <;> linarith

/-- At the middle of a texel there is only that. -/
theorem footprint_middle {x : ℕ} (h : 0 < size) :
    footprint size ((x + 1 / 2) / size) = {(x : ℤ)} := by
  have hsize : (size : ℚ) ≠ 0 := by exact_mod_cast h.ne'
  have hplace : unnormalized size ((x + 1 / 2) / size) = x := by
    rw [unnormalized, div_mul_cancel₀ _ hsize]
    ring
  ext i
  rw [mem_footprint_iff, hplace, Int.floor_natCast, Int.fract_natCast]
  simp

/-! ### Texels beyond an edge -/

/-- REPEAT leaves the texels where they are, or takes others that are around the place as well. -/
def ReadsAround (size : ℕ) (u : ℚ) : Prop :=
  ∀ i ∈ footprint size u, (wrap size i : ℤ) ∈ footprint size u

/-- The place is not beyond the middle of the first and the last texel, unless that is the same. -/
def Inner (size : ℕ) (u : ℚ) : Prop := size = 1 ∨ 1 / 2 ≤ u * size ∧ u * size ≤ size - 1 / 2

theorem wrap_of_mem (h₀ : 0 ≤ i) (h : i < size) : (wrap size i : ℤ) = i := by
  rw [wrap, Int.emod_eq_of_lt h₀ h, Int.toNat_of_nonneg h₀]

theorem wrap_one : wrap 1 i = 0 := by
  rw [wrap, Nat.cast_one, Int.emod_one, Int.toNat_zero]

/-- Left of the first texel is the last. -/
theorem wrap_neg_one (h : 0 < size) : (wrap size (-1) : ℤ) = size - 1 := by
  rw [wrap, Int.neg_emod_eq_sub_emod, Int.emod_eq_of_lt (by omega) (by omega),
    Int.toNat_of_nonneg (by omega)]

theorem wrap_size : wrap size size = 0 := by
  rw [wrap, Int.emod_self, Int.toNat_zero]

/-- Left of the middle of the first texel, the last one is read. -/
theorem not_readsAround_of_lt (htwo : 2 ≤ size) (hpos : 0 < u * size) (h : u * size < 1 / 2) :
    ¬ReadsAround size u := by
  intro hread
  have htwo' : (2 : ℚ) ≤ size := by exact_mod_cast htwo
  have hmem : (-1 : ℤ) ∈ footprint size u := by
    rw [mem_footprint]
    push_cast
    constructor <;> linarith
  have hwrap := hread _ hmem
  rw [wrap_neg_one (by omega), mem_footprint] at hwrap
  push_cast at hwrap
  linarith [hwrap.2]

/-- Right of the middle of the last texel, the first one is read. -/
theorem not_readsAround_of_gt (htwo : 2 ≤ size) (hlt : u * size < size)
    (h : (size : ℚ) - 1 / 2 < u * size) : ¬ReadsAround size u := by
  intro hread
  have htwo' : (2 : ℚ) ≤ size := by exact_mod_cast htwo
  have hmem : (size : ℤ) ∈ footprint size u := by
    rw [mem_footprint]
    push_cast
    constructor <;> linarith
  have hwrap := hread _ hmem
  rw [wrap_size, mem_footprint] at hwrap
  push_cast at hwrap
  linarith [hwrap.1]

theorem readsAround_one (hpos : 0 < u) (hlt : u < 1) : ReadsAround 1 u := by
  intro i _
  rw [wrap_one, mem_footprint]
  push_cast
  constructor <;> linarith

/-- Between the outermost middles, no texel is beyond an edge. -/
theorem readsAround_of_between (hlow : 1 / 2 ≤ u * size) (hhigh : u * size ≤ size - 1 / 2) :
    ReadsAround size u := by
  intro i hi
  obtain ⟨hfirst, hlast⟩ := mem_footprint.mp hi
  have hnonneg : -1 < i := by
    have hcast : (-1 : ℚ) < i := by linarith
    exact_mod_cast hcast
  have hsize : i < size := by
    have hcast : (i : ℚ) < size := by linarith
    exact_mod_cast hcast
  rw [wrap_of_mem (by omega) hsize]
  exact hi

/-- Of the places in a texture those are read around that are not beyond the outermost middles. -/
theorem readsAround_iff (hpos : 0 < u * size) (hlt : u * size < size) :
    ReadsAround size u ↔ Inner size u := by
  constructor
  · intro hread
    by_contra hinner
    simp only [Inner, not_or, not_and_or, not_le] at hinner
    obtain ⟨hone, hbeyond⟩ := hinner
    have htwo : 2 ≤ size := by
      have hcast : (0 : ℚ) < size := hpos.trans hlt
      have hzero : 0 < size := by exact_mod_cast hcast
      omega
    obtain hleft | hright := hbeyond
    · exact not_readsAround_of_lt htwo hpos hleft hread
    · exact not_readsAround_of_gt htwo hlt hright hread
  · rintro (rfl | ⟨hlow, hhigh⟩)
    · rw [Nat.cast_one, mul_one] at hpos hlt
      exact readsAround_one hpos hlt
    · exact readsAround_of_between hlow hhigh

/-! ### The pixels of a screen -/

/-- All middles of the pixels of a screen are inner places exactly if the screen has no more pixels
than the texture has texels, or the texture has one. -/
theorem inner_pixels_iff {pixels : ℕ} (hpixels : 0 < pixels) (hsize : 0 < size) :
    (∀ x < pixels, Inner size ((x + 1 / 2) / pixels)) ↔ size = 1 ∨ pixels ≤ size := by
  have hpixels' : (0 : ℚ) < pixels := by exact_mod_cast hpixels
  have hsize' : (0 : ℚ) < size := by exact_mod_cast hsize
  have hplace (x : ℕ) : ((x : ℚ) + 1 / 2) / pixels * size = (x + 1 / 2) * size / pixels := by
    ring
  constructor
  · intro h
    obtain hone | ⟨hlow, -⟩ := h 0 hpixels
    · exact Or.inl hone
    · rw [hplace, le_div_iff₀ hpixels', Nat.cast_zero] at hlow
      have hle : (pixels : ℚ) ≤ size := by linarith
      exact Or.inr (by exact_mod_cast hle)
  · rintro (hone | hle) x hx
    · exact Or.inl hone
    · have hle' : (pixels : ℚ) ≤ size := by exact_mod_cast hle
      have hx' : (x : ℚ) + 1 ≤ pixels := by exact_mod_cast hx
      have hx0 : (0 : ℚ) ≤ x := Nat.cast_nonneg x
      refine Or.inr ⟨?_, ?_⟩
      · rw [hplace, le_div_iff₀ hpixels']
        nlinarith
      · rw [hplace, div_le_iff₀ hpixels']
        nlinarith

/-- The middle of a pixel is in the texture. -/
theorem within_pixel {pixels x : ℕ} (hx : x < pixels) (hsize : 0 < size) :
    0 < ((x : ℚ) + 1 / 2) / pixels * size ∧ ((x : ℚ) + 1 / 2) / pixels * size < size := by
  have hpixels : (0 : ℚ) < pixels := by
    exact_mod_cast Nat.zero_lt_of_lt hx
  have hsize' : (0 : ℚ) < size := by exact_mod_cast hsize
  have hx' : (x : ℚ) + 1 ≤ pixels := by exact_mod_cast hx
  have hlt : ((x : ℚ) + 1 / 2) / pixels < 1 := by
    rw [div_lt_one hpixels]
    linarith
  constructor
  · positivity
  · exact mul_lt_of_lt_one_left hsize' hlt

/-- A screen reads around all its places exactly if it has no more pixels than the texture has
texels, or the texture has one. -/
theorem readsAround_pixels_iff {pixels : ℕ} (hpixels : 0 < pixels) (hsize : 0 < size) :
    (∀ x < pixels, ReadsAround size ((x + 1 / 2) / pixels)) ↔ size = 1 ∨ pixels ≤ size := by
  rw [← inner_pixels_iff hpixels hsize]
  refine forall₂_congr fun x hx => ?_
  exact readsAround_iff (within_pixel hx hsize).1 (within_pixel hx hsize).2

end TextureSampling

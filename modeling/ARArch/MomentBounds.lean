import ARArch.CentralMoments
import Mathlib.Algebra.Order.BigOperators.Group.List
import Mathlib.Algebra.Order.Field.Basic
import Mathlib.Tactic.Linarith
import Mathlib.Tactic.Positivity

/-!
# Bounds of central moments

In an ordered field the mean lies between the samples, and each central moment bounds others. Each
of these bounds is the sum of a polynomial in the samples that is nowhere negative, written in
terms of the moments.
-/

namespace Moments

variable {R : Type} [Field R] {xs ys : List R} {lo hi m x : R}

/-- Moments do not depend on the order of the samples. -/
theorem ofList_perm (h : xs.Perm ys) : ofList xs = ofList ys := by
  have hmean : mean xs = mean ys := by
    unfold mean
    rw [h.sum_eq, h.length_eq]
  have hmoment : ∀ k, centralMoment k xs = centralMoment k ys := by
    intro k
    unfold centralMoment
    rw [hmean]
    exact (h.map _).sum_eq
  unfold ofList
  rw [h.length_eq, hmean, hmoment, hmoment, hmoment]

/-- The sum of a quadratic polynomial in the samples. -/
theorem sum_between : (xs.map fun x => (hi - x) * (x - lo)).sum =
    xs.length * ((hi - m) * (m - lo)) + (hi + lo - 2 * m) * (xs.map fun x => x - m).sum -
      (xs.map fun x => (x - m) ^ 2).sum := by
  induction xs with
  | nil => simp
  | cons x xs ih =>
      simp only [List.map_cons, List.sum_cons, List.length_cons, Nat.cast_add, Nat.cast_one, ih]
      ring

/-- The sum of the squares of quadratic polynomials in the deviations. -/
theorem sum_quartic (c t : R) : (xs.map fun x => ((x - m) ^ 2 - c - t * (x - m)) ^ 2).sum =
    (xs.map fun x => (x - m) ^ 4).sum - 2 * t * (xs.map fun x => (x - m) ^ 3).sum +
      (t ^ 2 - 2 * c) * (xs.map fun x => (x - m) ^ 2).sum +
      2 * c * t * (xs.map fun x => x - m).sum + xs.length * c ^ 2 := by
  induction xs with
  | nil => simp
  | cons x xs ih =>
      simp only [List.map_cons, List.sum_cons, List.length_cons, Nat.cast_add, Nat.cast_one, ih]
      ring

theorem sum_sub : (xs.map fun x => x - m).sum = xs.sum - xs.length * m := by
  induction xs with
  | nil => simp
  | cons x xs ih =>
      simp only [List.map_cons, List.sum_cons, List.length_cons, Nat.cast_add, Nat.cast_one, ih]
      ring

theorem sum_deviations [CharZero R] : (xs.map fun x => x - mean xs).sum = 0 := by
  rw [sum_sub, length_mul_mean, sub_self]

variable [LinearOrder R] [IsStrictOrderedRing R]

theorem centralMoment_two_nonneg : 0 ≤ centralMoment 2 xs := by
  apply List.sum_nonneg
  intro y hy
  obtain ⟨x, _, rfl⟩ := List.mem_map.mp hy
  positivity

/-- Only equal samples have no spread. -/
theorem centralMoment_two_eq_zero_iff : centralMoment 2 xs = 0 ↔ ∀ x ∈ xs, x = mean xs := by
  constructor
  · intro hzero x hx
    have hsquares : ∀ y ∈ xs.map fun x => (x - mean xs) ^ 2, 0 ≤ y := by
      intro y hy
      obtain ⟨x, _, rfl⟩ := List.mem_map.mp hy
      positivity
    have hall := List.all_zero_of_le_zero_le_of_sum_eq_zero hsquares hzero
      (List.mem_map_of_mem hx)
    exact sub_eq_zero.mp (pow_eq_zero_iff two_ne_zero |>.mp hall)
  · intro hall
    unfold centralMoment
    apply List.sum_eq_zero
    intro y hy
    obtain ⟨x, hx, rfl⟩ := List.mem_map.mp hy
    rw [hall x hx, sub_self]
    simp

theorem le_mean (hne : xs ≠ []) (h : ∀ x ∈ xs, lo ≤ x) : lo ≤ mean xs := by
  have hlen : (0 : R) < xs.length := by
    exact_mod_cast List.length_pos_iff.mpr hne
  have hsum := List.card_nsmul_le_sum xs lo h
  rw [nsmul_eq_mul] at hsum
  rw [mean, le_div_iff₀ hlen]
  linarith

theorem mean_le (hne : xs ≠ []) (h : ∀ x ∈ xs, x ≤ hi) : mean xs ≤ hi := by
  have hlen : (0 : R) < xs.length := by
    exact_mod_cast List.length_pos_iff.mpr hne
  have hsum := List.sum_le_card_nsmul xs hi h
  rw [nsmul_eq_mul] at hsum
  rw [mean, div_le_iff₀ hlen]
  linarith

/-- The spread of samples that lie between two bounds. -/
theorem centralMoment_two_le (h : ∀ x ∈ xs, lo ≤ x ∧ x ≤ hi) :
    centralMoment 2 xs ≤ xs.length * ((hi - mean xs) * (mean xs - lo)) := by
  have hnonneg : 0 ≤ (xs.map fun x => (hi - x) * (x - lo)).sum := by
    apply List.sum_nonneg
    intro y hy
    obtain ⟨x, hx, rfl⟩ := List.mem_map.mp hy
    obtain ⟨hlo, hhi⟩ := h x hx
    exact mul_nonneg (sub_nonneg.mpr hhi) (sub_nonneg.mpr hlo)
  rw [sum_between (m := mean xs), sum_deviations] at hnonneg
  unfold centralMoment
  linarith

/-- The third moment is bounded by the second and the fourth. -/
theorem centralMoment_three_sq_le : centralMoment 2 xs ^ 3 + xs.length * centralMoment 3 xs ^ 2 ≤
    xs.length * (centralMoment 2 xs * centralMoment 4 xs) := by
  obtain hzero | hpos := centralMoment_two_nonneg.eq_or_lt (a := (0 : R)) (b := centralMoment 2 xs)
  · have hthree : centralMoment 3 xs = 0 := by
      have hall := centralMoment_two_eq_zero_iff.mp hzero.symm
      apply List.sum_eq_zero
      intro y hy
      obtain ⟨x, hx, rfl⟩ := List.mem_map.mp hy
      have hdeviation : x - mean xs = 0 := sub_eq_zero.mpr (hall x hx)
      rw [hdeviation]
      simp
    rw [hthree, ← hzero]
    simp
  · have hne : xs ≠ [] := by
      rintro rfl
      simp [centralMoment] at hpos
    have hlen : (0 : R) < xs.length := by
      exact_mod_cast List.length_pos_iff.mpr hne
    -- the quadratic polynomial that fits the squares of the deviations best
    have hnonneg : 0 ≤ (xs.map fun x => ((x - mean xs) ^ 2 - centralMoment 2 xs / xs.length -
        centralMoment 3 xs / centralMoment 2 xs * (x - mean xs)) ^ 2).sum := by
      apply List.sum_nonneg
      intro y hy
      obtain ⟨x, _, rfl⟩ := List.mem_map.mp hy
      positivity
    rw [sum_quartic, sum_deviations] at hnonneg
    have hbound : 0 ≤ centralMoment 4 xs - centralMoment 3 xs ^ 2 / centralMoment 2 xs -
        centralMoment 2 xs ^ 2 / xs.length := by
      have hterms : centralMoment 4 xs - centralMoment 3 xs ^ 2 / centralMoment 2 xs -
          centralMoment 2 xs ^ 2 / xs.length =
          centralMoment 4 xs - 2 * (centralMoment 3 xs / centralMoment 2 xs) * centralMoment 3 xs +
            ((centralMoment 3 xs / centralMoment 2 xs) ^ 2 - 2 * (centralMoment 2 xs / xs.length)) *
              centralMoment 2 xs +
            2 * (centralMoment 2 xs / xs.length) * (centralMoment 3 xs / centralMoment 2 xs) * 0 +
            xs.length * (centralMoment 2 xs / xs.length) ^ 2 := by
        field_simp
        ring
      rw [hterms]
      exact hnonneg
    have hscaled := mul_nonneg (mul_nonneg hlen.le hpos.le) hbound
    have hexpand : (xs.length : R) * centralMoment 2 xs * (centralMoment 4 xs -
        centralMoment 3 xs ^ 2 / centralMoment 2 xs - centralMoment 2 xs ^ 2 / xs.length) =
        xs.length * (centralMoment 2 xs * centralMoment 4 xs) -
          (centralMoment 2 xs ^ 3 + xs.length * centralMoment 3 xs ^ 2) := by
      field_simp
      ring
    rw [hexpand] at hscaled
    linarith

end Moments

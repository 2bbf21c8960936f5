import ARArch.MomentBounds
import ARArch.RunningStatistics
import Mathlib.Algebra.Order.Ring.Rat

/-!
# What the running statistics can be

The online moments of samples, which `operator()(x)` never looks at again, bound one another as
those of a list of samples do.
-/

namespace ARArch

namespace RunningStatistics

/-- The statistics of samples between two bounds. -/
structure Bounded (samples : List (Sample ℚ)) (lo hi : ℚ) (s : RunningStatistics ℚ) : Prop where
  size : s.n = samples.length
  le_mean : lo ≤ s.M1
  mean_le : s.M1 ≤ hi
  nonneg : 0 ≤ s.M2
  spread : s.M2 ≤ s.n * ((hi - s.M1) * (s.M1 - lo))
  /-- Only equal samples have no variance. -/
  eq_zero_iff : s.M2 = 0 ↔ ∀ sample ∈ samples, sample.x = s.M1
  /-- The kurtosis is not less than the square of the skewness plus one. -/
  skewness : s.M2 ^ 3 + s.n * s.M3 ^ 2 ≤ s.n * (s.M2 * s.M4)

variable {samples : List (Sample ℚ)} {lo hi : ℚ} {s : RunningStatistics ℚ}

theorem bounded_of_eq_ofList (hne : samples ≠ [])
    (h : ∀ sample ∈ samples, lo ≤ sample.x ∧ sample.x ≤ hi)
    (hs : s.toMoments = Moments.ofList (samples.map Sample.x)) : Bounded samples lo hi s := by
  have hn : s.n = samples.length := by
    simpa [Moments.ofList] using congrArg Moments.n hs
  have hcount : (s.n : ℚ) = (samples.map Sample.x).length := by
    rw [hn, List.length_map, Int.cast_natCast]
  have hM1 : s.M1 = Moments.mean (samples.map Sample.x) := congrArg Moments.M1 hs
  have hM2 : s.M2 = Moments.centralMoment 2 (samples.map Sample.x) := congrArg Moments.M2 hs
  have hM3 : s.M3 = Moments.centralMoment 3 (samples.map Sample.x) := congrArg Moments.M3 hs
  have hM4 : s.M4 = Moments.centralMoment 4 (samples.map Sample.x) := congrArg Moments.M4 hs
  have hmap : samples.map Sample.x ≠ [] := by simpa using hne
  have hbounds : ∀ x ∈ samples.map Sample.x, lo ≤ x ∧ x ≤ hi := by
    intro x hx
    obtain ⟨sample, hsample, rfl⟩ := List.mem_map.mp hx
    exact h sample hsample
  constructor
  · exact hn
  · rw [hM1]
    exact Moments.le_mean hmap fun x hx => (hbounds x hx).1
  · rw [hM1]
    exact Moments.mean_le hmap fun x hx => (hbounds x hx).2
  · rw [hM2]
    exact Moments.centralMoment_two_nonneg
  · rw [hM2, hM1, hcount]
    exact Moments.centralMoment_two_le hbounds
  · rw [hM2, hM1, Moments.centralMoment_two_eq_zero_iff, List.forall_mem_map]
  · rw [hM2, hM3, hM4, hcount]
    exact Moments.centralMoment_three_sq_le

/-- The statistics of less than 2^32 samples that lie between two bounds are bounded, and they are
the same for the samples in any other order. -/
theorem feed_bounded (samples : List (Sample ℚ)) (lo hi : ℚ) (hne : samples ≠ [])
    (hlen : samples.length < 2 ^ 32)
    (h : ∀ sample ∈ samples, lo ≤ sample.x ∧ sample.x ≤ hi) :
    ∃ s, (fresh : RunningStatistics ℚ).feed uint64 samples = some s ∧ Bounded samples lo hi s ∧
      ∀ others : List (Sample ℚ), others.Perm samples →
        ∃ t, (fresh : RunningStatistics ℚ).feed uint64 others = some t ∧
          t.toMoments = s.toMoments := by
  have hbound : ∀ others : List (Sample ℚ), others.length = samples.length →
      (others.length : ℤ) ^ 2 < 2 ^ 64 := by
    intro others hothers
    have hle : (others.length : ℤ) ≤ 2 ^ 32 - 1 := by omega
    calc (others.length : ℤ) ^ 2 ≤ (2 ^ 32 - 1) ^ 2 := pow_le_pow_left₀ (by omega) hle 2
      _ < 2 ^ 64 := by decide
  obtain ⟨s, hs, hmoments⟩ := feed_fresh_eq_ofList (R := ℚ) exact_uint64 (hbound samples rfl)
  refine ⟨s, hs, bounded_of_eq_ofList hne h hmoments, ?_⟩
  intro others hperm
  obtain ⟨t, ht, hothers⟩ :=
    feed_fresh_eq_ofList (R := ℚ) exact_uint64 (hbound others hperm.length_eq)
  refine ⟨t, ht, ?_⟩
  rw [hothers, hmoments]
  exact Moments.ofList_perm (hperm.map Sample.x)

theorem feed_bounded_three : ∃ s,
    (fresh : RunningStatistics ℚ).feed uint64 [⟨1, 10⟩, ⟨2, 20⟩, ⟨6, 30⟩] = some s ∧
      Bounded [⟨1, 10⟩, ⟨2, 20⟩, ⟨6, 30⟩] 1 6 s := by
  obtain ⟨s, hs, hbounded, _⟩ := feed_bounded [⟨1, 10⟩, ⟨2, 20⟩, ⟨6, 30⟩] 1 6 (by simp)
    (by simp) (by norm_num)
  exact ⟨s, hs, hbounded⟩

end RunningStatistics

end ARArch

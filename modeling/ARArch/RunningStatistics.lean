import ARArch.CentralMoments
import Mathlib.Algebra.Field.Rat
import Mathlib.Algebra.Order.Ring.Int

/-!
# Running statistics

`RunningStatistics` takes samples one after the other and can be combined with another instance.
`Int` is a parameter here as it is there: it stands for what an integer expression of this type
gives, which for `uint64_t` is its value modulo 2^64. As that commutes with sums, differences and
products, an expression wraps once, at its end. `Real` is a field, in which a division by zero is
undefined, and the clock is read once for each sample.
-/

namespace ARArch

def uint64 (x : ℤ) : ℤ := x % 2 ^ 64

def int64 (x : ℤ) : ℤ := (x + 2 ^ 63) % 2 ^ 64 - 2 ^ 63

structure RunningStatistics (R : Type) extends Moments R where
  startTime : ℤ
  endTime : ℤ
  deriving DecidableEq

structure Sample (R : Type) where
  x : R
  /-- What the clock shows. -/
  ns : ℤ

variable {R : Type} [Field R] [DecidableEq R]

def divide (x y : R) : Option R := if y = 0 then none else some (x / y)

namespace RunningStatistics

/-- `RunningStatistics::RunningStatistics` -/
def fresh : RunningStatistics R := ⟨⟨0, 0, 0, 0, 0⟩, 0, 0⟩

/-- `RunningStatistics::operator()(x)` -/
def update (wrap : ℤ → ℤ) (s : RunningStatistics R) (sample : Sample R) :
    Option (RunningStatistics R) := do
  let n1 := s.n
  let n := wrap (s.n + 1)
  let delta := sample.x - s.M1
  let delta_n ← divide delta (n : R)
  let delta_n2 := delta_n * delta_n
  let term1 := delta * delta_n * n1
  some {
    n := n
    M1 := s.M1 + delta_n
    M4 := s.M4 + (term1 * delta_n2 * (wrap (n * n - 3 * n + 3) : ℤ) + (6 : ℤ) * delta_n2 * s.M2 -
      (4 : ℤ) * delta_n * s.M3)
    M3 := s.M3 + (term1 * delta_n * (wrap (n - 2) : ℤ) - (3 : ℤ) * delta_n * s.M2)
    M2 := s.M2 + term1
    startTime := if s.startTime ≤ 0 then sample.ns else s.startTime
    endTime := sample.ns }

/-- `operator+` -/
def add (wrap : ℤ → ℤ) (a b : RunningStatistics R) : Option (RunningStatistics R) := do
  let n := wrap (a.n + b.n)
  let delta := b.M1 - a.M1
  let delta2 := delta * delta
  let delta3 := delta * delta2
  let delta4 := delta2 * delta2
  let M1 ← divide (a.n * a.M1 + b.n * b.M1) (n : R)
  let term2 ← divide (delta2 * a.n * b.n) (n : R)
  let M2 := a.M2 + b.M2 + term2
  let term3 ← divide (delta3 * a.n * b.n * (wrap (a.n - b.n) : ℤ)) ((wrap (n * n) : ℤ) : R)
  let M3 := a.M3 + b.M3 + term3
  let term3 ← divide ((3 : ℤ) * delta * (a.n * b.M2 - b.n * a.M2)) (n : R)
  let M3 := M3 + term3
  let term4 ← divide (delta4 * a.n * b.n * (wrap (a.n * a.n - a.n * b.n + b.n * b.n) : ℤ))
    ((wrap (n * n * n) : ℤ) : R)
  let M4 := a.M4 + b.M4 + term4
  let term4 ← divide
    ((6 : ℤ) * delta2 * ((wrap (a.n * a.n) : ℤ) * b.M2 + (wrap (b.n * b.n) : ℤ) * a.M2))
    ((wrap (n * n) : ℤ) : R)
  let term4' ← divide ((4 : ℤ) * delta * (a.n * b.M3 - b.n * a.M3)) (n : R)
  let M4 := M4 + (term4 + term4')
  some { (fresh : RunningStatistics R) with n := n, M1 := M1, M2 := M2, M3 := M3, M4 := M4 }

/-- `operator+=`, which leaves the combined statistics in the left operand. -/
def addAssign (wrap : ℤ → ℤ) (a rhs : RunningStatistics R) : Option (RunningStatistics R) := do
  let combined ← add wrap a rhs
  some combined

/-- The samples given to `operator()(x)` one after the other. -/
def feed (wrap : ℤ → ℤ) (s : RunningStatistics R) : List (Sample R) → Option (RunningStatistics R)
  | [] => some s
  | sample :: samples => do
    let s ← s.update wrap sample
    s.feed wrap samples

variable {wrap : ℤ → ℤ} {bound n : ℤ} {s a b : RunningStatistics R} {sample : Sample R}
  {samples : List (Sample R)} {x y : R}

theorem divide_of_ne (h : y ≠ 0) : divide x y = some (x / y) := if_neg h

theorem divide_zero : divide x (0 : R) = none := if_pos rfl

/-- Values from 0 to the bound do not wrap. -/
def Exact (wrap : ℤ → ℤ) (bound : ℤ) : Prop := ∀ n, 0 ≤ n → n < bound → wrap n = n

theorem exact_uint64 : Exact uint64 (2 ^ 64) := fun _ h h' => Int.emod_eq_of_lt h h'

theorem exact_int64 : Exact int64 (2 ^ 63) := by
  intro n h h'
  unfold int64
  omega

/-- A sample is merged, although `n - 2` wraps at the first one. -/
theorem update_eq_merge [CharZero R] (sample : Sample R) (hwrap : Exact wrap bound) (hn : 0 ≤ s.n)
    (hbound : (s.n + 1) * (s.n + 1) < bound) :
    ∃ s', s.update wrap sample = some s' ∧
      s'.toMoments = s.toMoments.merge (Moments.ofList [sample.x]) := by
  have hsucc : wrap (s.n + 1) = s.n + 1 := hwrap _ (by omega) (by nlinarith)
  have hprod : 0 ≤ s.n * (s.n - 1) := by
    rcases hn.eq_or_lt with hzero | hpos
    · rw [← hzero, zero_mul]
    · exact Int.mul_nonneg hn (by omega)
  have hsquare : wrap ((s.n + 1) * (s.n + 1) - 3 * (s.n + 1) + 3) =
      (s.n + 1) * (s.n + 1) - 3 * (s.n + 1) + 3 := hwrap _ (by linarith) (by linarith)
  have hpred : (s.n : R) * (wrap (s.n + 1 - 2) : ℤ) = s.n * (s.n - 1) := by
    rcases hn.eq_or_lt with hzero | hpos
    · rw [← hzero, Int.cast_zero, zero_mul, zero_mul]
    · rw [hwrap (s.n + 1 - 2) (by omega) (by nlinarith)]
      push_cast
      ring
  have hne : ((s.n + 1 : ℤ) : R) ≠ 0 := Int.cast_ne_zero.mpr (by omega)
  simp only [update, hsucc, divide_of_ne hne, hsquare]
  refine ⟨_, rfl, ?_⟩
  rw [Moments.ofList_singleton, Moments.merge]
  push_cast at hne ⊢
  ext
  · rfl
  · simp only
    field_simp
    ring
  · simp only
    field_simp
    ring
  · have hterm (d e : R) : d * e * s.n * e * (wrap (s.n + 1 - 2) : ℤ) =
        d * e * e * (s.n * (s.n - 1)) := by
      rw [← hpred]
      ring
    simp only [hterm]
    field_simp
    ring
  · simp only
    field_simp
    ring

theorem feed_cons : feed wrap s (sample :: samples) =
    (s.update wrap sample).bind fun s => s.feed wrap samples := rfl

/-- The online moments are those of the samples. -/
theorem feed_eq_ofList [CharZero R] (hwrap : Exact wrap bound) {seen : List R}
    (hs : s.toMoments = Moments.ofList seen)
    (hbound : ((seen.length + samples.length : ℕ) : ℤ) ^ 2 < bound) :
    ∃ s', s.feed wrap samples = some s' ∧
      s'.toMoments = Moments.ofList (seen ++ samples.map Sample.x) := by
  induction samples generalizing s seen with
  | nil =>
    refine ⟨s, rfl, ?_⟩
    rw [hs, List.map_nil, List.append_nil]
  | cons sample samples ih =>
    have hn : s.n = seen.length := congrArg Moments.n hs
    rw [List.length_cons] at hbound
    push_cast at hbound
    have hstep : (s.n + 1) * (s.n + 1) < bound := by
      have hle : ((seen.length : ℤ) + 1) ^ 2 ≤ (seen.length + (samples.length + 1)) ^ 2 :=
        pow_le_pow_left₀ (by omega) (by omega) 2
      rw [hn, ← sq]
      exact hle.trans_lt hbound
    obtain ⟨s₁, hupdate, hs₁⟩ := update_eq_merge sample hwrap (by omega) hstep
    have hseen : s₁.toMoments = Moments.ofList (seen ++ [sample.x]) := by
      have hne : seen ++ [sample.x] ≠ [] :=
        List.append_ne_nil_of_right_ne_nil _ (List.cons_ne_nil _ _)
      rw [hs₁, hs, Moments.ofList_append hne]
    have hlen : (((seen ++ [sample.x]).length + samples.length : ℕ) : ℤ) ^ 2 < bound := by
      rw [List.length_append, List.length_singleton]
      push_cast
      linarith
    obtain ⟨s', hfeed, hs'⟩ := ih hseen hlen
    refine ⟨s', ?_, ?_⟩
    · rw [feed_cons, hupdate, Option.bind_some, hfeed]
    · rw [hs', List.map_cons, List.append_assoc, List.singleton_append]

omit [DecidableEq R] in
theorem fresh_eq_ofList : (fresh : RunningStatistics R).toMoments = Moments.ofList [] := by
  simp [fresh, Moments.ofList, Moments.mean, Moments.centralMoment]

theorem feed_fresh_eq_ofList [CharZero R] (hwrap : Exact wrap bound)
    (hbound : (samples.length : ℤ) ^ 2 < bound) :
    ∃ s, (fresh : RunningStatistics R).feed wrap samples = some s ∧
      s.toMoments = Moments.ofList (samples.map Sample.x) := by
  have hlen : ((([] : List R).length + samples.length : ℕ) : ℤ) ^ 2 < bound := by
    rwa [List.length_nil, zero_add]
  exact feed_eq_ofList hwrap fresh_eq_ofList hlen

/-- What `operator+` computes where nothing is divided by zero. -/
def combined (wrap : ℤ → ℤ) (a b : Moments R) : Moments R :=
  let n := wrap (a.n + b.n)
  let δ := b.M1 - a.M1
  { n := n
    M1 := (a.n * a.M1 + b.n * b.M1) / n
    M2 := a.M2 + b.M2 + δ ^ 2 * a.n * b.n / n
    M3 := a.M3 + b.M3 + δ ^ 3 * a.n * b.n * (wrap (a.n - b.n) : ℤ) / (wrap (n * n) : ℤ) +
      (3 : ℤ) * δ * (a.n * b.M2 - b.n * a.M2) / n
    M4 := a.M4 + b.M4 + δ ^ 4 * a.n * b.n * (wrap (a.n * a.n - a.n * b.n + b.n * b.n) : ℤ) /
        (wrap (n * n * n) : ℤ) +
      (6 : ℤ) * δ ^ 2 * ((wrap (a.n * a.n) : ℤ) * b.M2 + (wrap (b.n * b.n) : ℤ) * a.M2) /
        (wrap (n * n) : ℤ) +
      (4 : ℤ) * δ * (a.n * b.M3 - b.n * a.M3) / n }

/-- No divisor of `operator+` is zero. -/
structure Divisors (R : Type) [Field R] (wrap : ℤ → ℤ) (n : ℤ) : Prop where
  one : ((wrap n : ℤ) : R) ≠ 0
  two : ((wrap (wrap n * wrap n) : ℤ) : R) ≠ 0
  three : ((wrap (wrap n * wrap n * wrap n) : ℤ) : R) ≠ 0

theorem add_of_divisors (h : Divisors R wrap (a.n + b.n)) :
    add wrap a b = some ⟨combined wrap a.toMoments b.toMoments, 0, 0⟩ := by
  simp only [add, divide_of_ne h.one, divide_of_ne h.two, divide_of_ne h.three, combined]
  simp only [bind, Option.bind, fresh, Option.some.injEq, RunningStatistics.mk.injEq, and_true,
    Moments.mk.injEq, true_and]
  refine ⟨?_, ?_, ?_⟩ <;> ring

theorem divisors_of_add (h : (add wrap a b).isSome) : Divisors R wrap (a.n + b.n) := by
  constructor
  · intro hzero
    simp [add, hzero, divide_zero] at h
  · intro hzero
    simp [add, hzero, divide_zero] at h
  · intro hzero
    simp [add, hzero, divide_zero] at h

/-- What a difference of counts that wraps adds to the third moment. -/
def wrapError (wrap : ℤ → ℤ) (a b : Moments R) : R :=
  (b.M1 - a.M1) ^ 3 * a.n * b.n * ((wrap (a.n - b.n) - (a.n - b.n) : ℤ) : R) / (a.n + b.n) ^ 2

section Merge

variable {a b : Moments R}

omit [DecidableEq R] in
/-- The divisors of `operator+` do not wrap. -/
theorem divisors_of_exact [CharZero R] (hwrap : Exact wrap bound) (hpos : 0 < n)
    (hbound : n ^ 3 < bound) : wrap n = n ∧ wrap (n * n) = n * n ∧ wrap (n * n * n) = n * n * n ∧
      Divisors R wrap n := by
  have hle : n ≤ n * n := le_mul_of_one_le_left hpos.le hpos
  have hcube : n * n ≤ n * n * n := le_mul_of_one_le_right (by positivity) hpos
  have hbound' : n * n * n < bound := by linarith
  have hn : wrap n = n := hwrap _ hpos.le (by linarith)
  have hn2 : wrap (n * n) = n * n := hwrap _ (by positivity) (by linarith)
  have hn3 : wrap (n * n * n) = n * n * n := hwrap _ (by positivity) hbound'
  have hne : (n : R) ≠ 0 := Int.cast_ne_zero.mpr hpos.ne'
  refine ⟨hn, hn2, hn3, ?_, ?_, ?_⟩
  · rwa [hn]
  · rw [hn, hn2, Int.cast_mul]
    exact mul_ne_zero hne hne
  · rw [hn, hn3, Int.cast_mul, Int.cast_mul]
    exact mul_ne_zero (mul_ne_zero hne hne) hne

omit [DecidableEq R] in
theorem combined_eq_merge [CharZero R] (hwrap : Exact wrap bound) (ha : 0 ≤ a.n) (hb : 0 ≤ b.n)
    (hpos : 0 < a.n + b.n) (hbound : (a.n + b.n) ^ 3 < bound) :
    combined wrap a b = (a.merge b).addM3 (wrapError wrap a b) := by
  obtain ⟨hn, hn2, hn3, hdivisors⟩ := divisors_of_exact (R := R) hwrap hpos hbound
  have hab : 0 ≤ a.n * b.n := Int.mul_nonneg ha hb
  have haa : 0 ≤ a.n * a.n := Int.mul_nonneg ha ha
  have hbb : 0 ≤ b.n * b.n := Int.mul_nonneg hb hb
  have hsum : a.n * a.n + 2 * (a.n * b.n) + b.n * b.n < bound := by
    calc a.n * a.n + 2 * (a.n * b.n) + b.n * b.n = (a.n + b.n) ^ 2 := by ring
      _ ≤ (a.n + b.n) ^ 3 := pow_le_pow_right₀ hpos (by decide)
      _ < bound := hbound
  have hdiff : 0 ≤ a.n * a.n - 2 * (a.n * b.n) + b.n * b.n := by
    calc 0 ≤ (a.n - b.n) ^ 2 := sq_nonneg (a.n - b.n)
      _ = a.n * a.n - 2 * (a.n * b.n) + b.n * b.n := by ring
  have ha2 : wrap (a.n * a.n) = a.n * a.n := hwrap _ haa (by linarith)
  have hb2 : wrap (b.n * b.n) = b.n * b.n := hwrap _ hbb (by linarith)
  have hab2 : wrap (a.n * a.n - a.n * b.n + b.n * b.n) = a.n * a.n - a.n * b.n + b.n * b.n :=
    hwrap _ (by linarith) (by linarith)
  have hne : (a.n : R) + b.n ≠ 0 := by
    rw [← Int.cast_add]
    exact Int.cast_ne_zero.mpr hpos.ne'
  simp only [combined, Moments.merge, Moments.addM3, wrapError, hn, hn2, hn3, ha2, hb2, hab2]
  push_cast
  ext
  · rfl
  · rfl
  · rfl
  · simp only
    field_simp
    ring
  · simp only
    field_simp

end Merge

/-- The statistics of two lists combined are those of both. -/
theorem add_eq_feed_append (xs ys : List (Sample ℚ)) (hne : xs ++ ys ≠ [])
    (hlen : (xs ++ ys).length < 2 ^ 21) :
    ∃ a b c d, (fresh : RunningStatistics ℚ).feed int64 xs = some a ∧ fresh.feed int64 ys = some b ∧
      fresh.feed int64 (xs ++ ys) = some c ∧ add int64 a b = some d ∧
      d.toMoments = c.toMoments := by
  rw [List.length_append] at hlen
  have hsquare (n : ℕ) (hn : n < 2 ^ 21) : (n : ℤ) ^ 2 < 2 ^ 63 := by
    calc (n : ℤ) ^ 2 ≤ (2 ^ 21) ^ 2 := pow_le_pow_left₀ (by omega) (by omega) 2
      _ < 2 ^ 63 := by decide
  obtain ⟨a, hfeed_a, ha⟩ := feed_fresh_eq_ofList exact_int64 (hsquare xs.length (by omega))
  obtain ⟨b, hfeed_b, hb⟩ := feed_fresh_eq_ofList exact_int64 (hsquare ys.length (by omega))
  obtain ⟨c, hfeed_c, hc⟩ := feed_fresh_eq_ofList exact_int64
    (hsquare (xs ++ ys).length (by rwa [List.length_append]))
  have hna : a.n = xs.length := by rw [ha, Moments.ofList, List.length_map]
  have hnb : b.n = ys.length := by rw [hb, Moments.ofList, List.length_map]
  have hpos : 0 < xs.length + ys.length := by
    rw [← List.length_append]
    exact List.length_pos_iff.mpr hne
  have hcube : (a.n + b.n) ^ 3 < 2 ^ 63 := by
    calc (a.n + b.n) ^ 3 ≤ (2 ^ 21 - 1) ^ 3 := pow_le_pow_left₀ (by omega) (by omega) 3
      _ < 2 ^ 63 := by decide
  have hdiff : int64 (a.n - b.n) = a.n - b.n := by
    unfold int64
    omega
  have herror : wrapError int64 a.toMoments b.toMoments = 0 := by
    rw [wrapError, hdiff, sub_self, Int.cast_zero, mul_zero, zero_div]
  have hsum : 0 < a.n + b.n := by omega
  obtain ⟨_, _, _, hdivisors⟩ := divisors_of_exact (R := ℚ) exact_int64 hsum hcube
  refine ⟨a, b, c, _, hfeed_a, hfeed_b, hfeed_c, add_of_divisors hdivisors, ?_⟩
  rw [combined_eq_merge exact_int64 (by omega) (by omega) hsum hcube]
  rw [herror, Moments.addM3_zero, ha, hb, hc, List.map_append, Moments.ofList_append]
  rw [← List.map_append]
  exact List.map_eq_nil_iff.not.mpr hne

theorem add_of_one_and_two : ∃ a b c d,
    (fresh : RunningStatistics ℚ).feed int64 [⟨1, 10⟩] = some a ∧
      fresh.feed int64 [⟨2, 20⟩, ⟨6, 30⟩] = some b ∧
      fresh.feed int64 [⟨1, 10⟩, ⟨2, 20⟩, ⟨6, 30⟩] = some c ∧ add int64 a b = some d ∧
      d.toMoments = c.toMoments :=
  add_eq_feed_append [⟨1, 10⟩] [⟨2, 20⟩, ⟨6, 30⟩] (List.cons_ne_nil _ _) (by decide)

/-- The online moments of less than 2^32 samples. -/
theorem feed_uint64_eq_ofList (samples : List (Sample ℚ)) (hlen : samples.length < 2 ^ 32) :
    ∃ s, (fresh : RunningStatistics ℚ).feed uint64 samples = some s ∧
      s.toMoments = Moments.ofList (samples.map Sample.x) := by
  apply feed_fresh_eq_ofList exact_uint64
  have hle : (samples.length : ℤ) ≤ 2 ^ 32 - 1 := by omega
  calc (samples.length : ℤ) ^ 2 ≤ (2 ^ 32 - 1) ^ 2 := pow_le_pow_left₀ (by omega) hle 2
    _ < 2 ^ 64 := by decide

theorem feed_three : ∃ s, (fresh : RunningStatistics ℚ).feed uint64 [⟨1, 10⟩, ⟨2, 20⟩, ⟨6, 30⟩] =
    some s ∧ s.toMoments = Moments.ofList [1, 2, 6] :=
  feed_uint64_eq_ofList [⟨1, 10⟩, ⟨2, 20⟩, ⟨6, 30⟩] (by decide)

end RunningStatistics

end ARArch

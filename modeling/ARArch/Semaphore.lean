import Mathlib.Data.List.Count
import Mathlib.Tactic.Common

/-!
# Semaphores

A counting semaphore, with the log of what was done to it. It is used as a lock if there is
never more than one permit and there is one release from each acquisition to the next.
-/

inductive SemaphoreOp
  | acquire
  | release
  deriving DecidableEq

/-- A semaphore that was made with `n` permits; the latest entry of its log comes first. -/
structure Semaphore (n : ℕ) where
  permits : ℕ
  log : List SemaphoreOp
  counted : permits + log.count .acquire = n + log.count .release

namespace Semaphore

open SemaphoreOp

variable {n : ℕ}

def make (n : ℕ) : Semaphore n := ⟨n, [], rfl⟩

/-- Take a permit, if there is one. -/
def tryAcquire (s : Semaphore n) : Option (Semaphore n) :=
  if h : 0 < s.permits then
    some ⟨s.permits - 1, acquire :: s.log, by
      have hcounted := s.counted
      rw [List.count_cons_self, List.count_cons_of_ne (by decide)]
      omega⟩
  else none

def release (s : Semaphore n) : Semaphore n :=
  ⟨s.permits + 1, .release :: s.log, by
    have hcounted := s.counted
    rw [List.count_cons_self, List.count_cons_of_ne (by decide)]
    omega⟩

/-- The log of a semaphore that is used as a lock. -/
structure KeptLock (log : List SemaphoreOp) : Prop where
  /-- At no time was more released than acquired, so that of one permit one was free at most. -/
  released_le : ∀ earlier, earlier <:+ log → earlier.count .release ≤ earlier.count .acquire
  one_release : ∀ later between earlier,
    log = later ++ acquire :: (between ++ acquire :: earlier) → acquire ∉ between →
      between = [.release]

/-- Acquisitions and releases take turns, and the first is an acquisition. -/
def Alternates : List SemaphoreOp → Prop
  | [] => True
  | op :: log => Alternates log ∧ (op = .release ↔ log.head? = some acquire)

theorem Alternates.count {log : List SemaphoreOp} (h : Alternates log) :
    log.count .acquire = log.count .release + if log.head? = some acquire then 1 else 0 := by
  induction log with
  | nil => rfl
  | cons op log ih =>
      have hlog := ih h.1
      have hturn := h.2
      cases op with
      | acquire =>
          have hhead : log.head? ≠ some acquire := fun hhead => by cases hturn.mpr hhead
          rw [if_neg hhead] at hlog
          rw [List.count_cons_self, List.count_cons_of_ne (by decide), List.head?_cons, if_pos rfl]
          omega
      | release =>
          rw [if_pos (hturn.mp rfl)] at hlog
          rw [List.count_cons_self, List.count_cons_of_ne (by decide), List.head?_cons,
            if_neg (by decide)]
          omega

theorem Alternates.of_append {later log : List SemaphoreOp} (h : Alternates (later ++ log)) :
    Alternates log := by
  induction later with
  | nil => exact h
  | cons op later ih => exact ih h.1

theorem KeptLock.of_cons {op : SemaphoreOp} {log : List SemaphoreOp} (h : KeptLock (op :: log)) :
    KeptLock log where
  released_le := fun earlier hsuffix =>
    h.released_le earlier (hsuffix.trans (List.suffix_cons op log))
  one_release := fun later between earlier heq =>
    h.one_release (op :: later) between earlier (by rw [heq]; rfl)

/-- What lies between two acquisitions and is not one. -/
theorem Alternates.one_release {between earlier : List SemaphoreOp}
    (h : Alternates (acquire :: (between ++ acquire :: earlier))) (hb : acquire ∉ between) :
    between = [.release] := by
  cases between with
  | nil => cases h.2.mpr rfl
  | cons op between =>
      cases op with
      | acquire => exact absurd List.mem_cons_self hb
      | release =>
          cases between with
          | nil => rfl
          | cons op' between =>
              -- two releases in a row, unless the second is an acquisition
              have hhead : some op' = some acquire := h.1.2.mp rfl
              cases hhead
              exact absurd (List.mem_cons_of_mem _ List.mem_cons_self) hb

theorem keptLock_iff_alternates {log : List SemaphoreOp} : KeptLock log ↔ Alternates log := by
  constructor
  · intro h
    induction log with
    | nil => trivial
    | cons op log ih =>
        have hlog := ih h.of_cons
        refine ⟨hlog, ?_⟩
        cases op with
        | acquire =>
            constructor
            · intro hop
              cases hop
            · intro hhead
              obtain ⟨earlier, rfl⟩ := List.head?_eq_some_iff.mp hhead
              cases h.one_release [] [] earlier rfl List.not_mem_nil
        | release =>
            have hle := h.released_le _ List.suffix_rfl
            rw [List.count_cons_self, List.count_cons_of_ne (by decide), hlog.count] at hle
            by_cases hhead : log.head? = some acquire
            · exact ⟨fun _ => hhead, fun _ => rfl⟩
            · rw [if_neg hhead] at hle
              omega
  · intro h
    constructor
    · rintro earlier ⟨later, rfl⟩
      have := h.of_append.count
      omega
    · intro later between earlier heq hb
      subst heq
      exact h.of_append.one_release hb

variable {s s' : Semaphore 1}

theorem KeptLock.permits_le_one (h : KeptLock s.log) : s.permits ≤ 1 := by
  have hcounted := s.counted
  have hle := h.released_le _ List.suffix_rfl
  omega

theorem permits_of_alternates (h : Alternates s.log) :
    s.permits = if s.log.head? = some acquire then 0 else 1 := by
  have hcounted := s.counted
  have hcount := h.count
  split_ifs at hcount ⊢ with hhead
  · omega
  · omega

theorem keptLock_tryAcquire (h : s.tryAcquire = some s') : KeptLock s'.log ↔ KeptLock s.log := by
  unfold tryAcquire at h
  split_ifs at h with hfree
  cases h
  rw [keptLock_iff_alternates, keptLock_iff_alternates]
  constructor
  · exact And.left
  · intro hlog
    refine ⟨hlog, fun hop => (by cases hop), fun hhead => ?_⟩
    have hp := permits_of_alternates hlog
    rw [if_pos hhead] at hp
    omega

/-- A lock that is kept has no second permit. -/
theorem permits_of_keptLock_tryAcquire (hk : KeptLock s.log) (h : s.tryAcquire = some s') :
    s'.permits = 0 := by
  have hle := hk.permits_le_one
  unfold tryAcquire at h
  split_ifs at h with hfree
  cases h
  dsimp only
  omega

theorem keptLock_release : KeptLock s.release.log ↔ KeptLock s.log ∧ s.permits = 0 := by
  rw [keptLock_iff_alternates, keptLock_iff_alternates]
  constructor
  · intro h
    refine ⟨h.1, ?_⟩
    rw [permits_of_alternates h.1, if_pos (h.2.mp rfl)]
  · rintro ⟨hlog, hp⟩
    refine ⟨hlog, fun _ => ?_, fun _ => rfl⟩
    rw [permits_of_alternates hlog] at hp
    split_ifs at hp with hhead
    exact hhead

end Semaphore

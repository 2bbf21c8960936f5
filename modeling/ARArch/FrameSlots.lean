import ARArch.FrameSync
import ARArch.RingSlots

/-!
# What the device has of which frame

The frames are numbered in the order of their submission; frame `f` has the slot `f % n`. As long
as nothing fails and the swapchain is not out of date, what is queued and signalled is determined by
how far the frames have come: here by invariants of the steps of the device and of the calls that
give it work.
-/

namespace ARArch.FrameSync

open RingSlots DeviceQueues

/-- The numbers of frames whose fence is reset, whose image is acquired, whose batch is submitted,
and that are presented. -/
structure FrameCounts where
  reset : ℕ
  acquired : ℕ
  submitted : ℕ
  presented : ℕ

/-- How far the device is. A batch stands as the number of its frame, or as `none` when it is an
upload. -/
structure DeviceCounts where
  finished : ℕ
  begun : ℕ
  running : List (Option ℕ)
  queued : List (Option ℕ)
  /-- The frames whose image is not yet released, with the presentations that come first. -/
  waiting : List (ℕ × ℕ)

def batchOf (n : ℕ) : Option ℕ → Batch FrameSemaphore ℕ
  | none => {}
  | some f => frameBatch (f % n)

def acquireOf (n : ℕ) (q : ℕ × ℕ) : FrameSemaphore × ℕ := (.available (q.1 % n), q.2)

/-- The image of frame `f` was last presented before `last` presentations were made. -/
def PresentedBefore (image : ℕ → ℕ) (f last : ℕ) : Prop := ∀ a < f, image a = image f → a < last

structure InSlots (n : ℕ) (image : ℕ → ℕ) (c : FrameCounts) (g : DeviceCounts)
    (d : DeviceQueues FrameSemaphore ℕ ℕ) : Prop where
  running : d.running = g.running.map (batchOf n)
  queued : d.queued = g.queued.map (batchOf n)
  running_frames : g.running.reduceOption = List.range' g.finished (g.begun - g.finished)
  queued_frames : g.queued.reduceOption = List.range' g.begun (c.submitted - g.begun)
  finished_le : g.finished ≤ g.begun
  begun_le : g.begun ≤ c.submitted
  submitted_le : c.submitted ≤ c.acquired
  acquired_le : c.acquired ≤ c.reset
  reset_le : c.reset ≤ g.finished + n
  presented_le : d.presented ≤ c.presented
  presented_le_finished : d.presented ≤ g.finished
  finished_le_presented : g.finished ≤ d.presented + n
  acquires : d.acquires = g.waiting.map (acquireOf n)
  waiting_nodup : (g.waiting.map Prod.fst).Nodup
  waiting : ∀ q ∈ g.waiting,
    g.begun ≤ q.1 ∧ q.1 < c.acquired ∧ q.2 ≤ q.1 ∧ PresentedBefore image q.1 q.2
  released : ∀ f < c.acquired, f ∉ g.waiting.map Prod.fst → PresentedBefore image f d.presented
  image_lt : ∀ f < c.acquired, image f < n
  presents : d.presents =
    (List.range' d.presented (c.presented - d.presented)).map fun f => .complete (f % n)
  lastPresent : ∀ i, d.lastPresent i ≤ c.presented ∧
    ∀ a < c.presented, image a = i → a < d.lastPresent i
  fences : ∀ k, d.fences k = false ↔ Occupied n g.finished c.reset k
  available : ∀ k, d.semaphores (.available k) = true ↔
    ∃ f, g.begun ≤ f ∧ f < c.acquired ∧ f ∉ g.waiting.map Prod.fst ∧ f % n = k
  complete : ∀ k, d.semaphores (.complete k) = true ↔ Occupied n d.presented g.finished k

variable {n : ℕ} {image : ℕ → ℕ} {c : FrameCounts} {g : DeviceCounts}
  {d d' : DeviceQueues FrameSemaphore ℕ ℕ} {t : ℕ}

namespace InSlots

/-! ### The batches of frames -/

theorem mem_running (h : InSlots n image c g d) {f : ℕ} :
    some f ∈ g.running ↔ g.finished ≤ f ∧ f < g.begun := by
  have hle := h.finished_le
  rw [← List.reduceOption_mem_iff, h.running_frames, List.mem_range'_1]
  omega

theorem mem_queued (h : InSlots n image c g d) {f : ℕ} :
    some f ∈ g.queued ↔ g.begun ≤ f ∧ f < c.submitted := by
  have hle := h.begun_le
  rw [← List.reduceOption_mem_iff, h.queued_frames, List.mem_range'_1]
  omega

/-- A batch that the device has is an upload or that of a frame that is not finished. -/
theorem batch_cases (h : InSlots n image c g d) {b : Batch FrameSemaphore ℕ}
    (hb : b ∈ d.running ++ d.queued) :
    b = {} ∨ ∃ f, g.finished ≤ f ∧ f < c.submitted ∧ b = frameBatch (f % n) := by
  have hfb := h.finished_le
  have hbs := h.begun_le
  rw [h.running, h.queued, ← List.map_append] at hb
  obtain ⟨o, ho, rfl⟩ := List.mem_map.mp hb
  cases o with
  | none => exact Or.inl rfl
  | some f =>
      right
      obtain hr | hq := List.mem_append.mp ho
      · have hf := h.mem_running.mp hr
        exact ⟨f, hf.1, by omega, rfl⟩
      · have hf := h.mem_queued.mp hq
        exact ⟨f, by omega, hf.2, rfl⟩

theorem queued_cases (h : InSlots n image c g d) {b : Batch FrameSemaphore ℕ}
    (hb : b ∈ d.queued) :
    b = {} ∨ ∃ f, g.begun ≤ f ∧ f < c.submitted ∧ b = frameBatch (f % n) := by
  rw [h.queued] at hb
  obtain ⟨o, ho, rfl⟩ := List.mem_map.mp hb
  cases o with
  | none => exact Or.inl rfl
  | some f =>
      have hf := h.mem_queued.mp ho
      exact Or.inr ⟨f, hf.1, hf.2, rfl⟩

/-! ### Room for one more -/

/-- A frame whose batch has begun has its image, so what was presented with it before is done. -/
theorem presentedBefore_of_begun (h : InSlots n image c g d) {f : ℕ} (hf : f < g.begun) :
    PresentedBefore image f d.presented := by
  have hbs := h.begun_le
  have hsa := h.submitted_le
  apply h.released f (by omega)
  intro hmem
  obtain ⟨q, hq, rfl⟩ := List.mem_map.mp hmem
  have hle := (h.waiting q hq).1
  omega

/-- Among the frames from `finished - n` up to one that has begun, two have the same image, and the
older one of them is presented. -/
theorem finished_lt_presented (h : InSlots n image c g d) (hlt : g.finished < g.begun) :
    g.finished < d.presented + n := by
  have hbs := h.begun_le
  have hsa := h.submitted_le
  by_cases hn : n ≤ g.finished
  · obtain ⟨a, b, ha, hab, hb, heq⟩ := exists_same_image hn
      (fun f _ hf => show image f < n from h.image_lt f (by omega))
    have hdone : a < d.presented := h.presentedBefore_of_begun (by omega) a hab heq
    omega
  · omega

/-! ### The steps of the device -/

theorem release (h : InSlots n image c g d) {before behind : List (FrameSemaphore × ℕ)}
    {s : FrameSemaphore} {last : ℕ} (hacq : d.acquires = before ++ (s, last) :: behind)
    (hlast : last ≤ d.presented) :
    ∃ waiting, InSlots n image c { g with waiting := waiting } { d with
      semaphores := Function.update d.semaphores s true
      acquires := before ++ behind } := by
  obtain ⟨w₁, w, hw, rfl, hw'⟩ := List.map_eq_append_iff.mp (h.acquires.symm.trans hacq)
  obtain ⟨q, w₂, rfl, hq, rfl⟩ := List.map_eq_cons_iff.mp hw'
  obtain ⟨rfl, rfl⟩ := Prod.mk.inj hq
  have hnodup := h.waiting_nodup
  have hmem : q ∈ g.waiting := hw ▸ List.mem_append_right _ (List.mem_cons_self)
  obtain ⟨hbegun, hacquired, -, hbefore⟩ := h.waiting q hmem
  have hsplit : ∀ f, f ∈ g.waiting.map Prod.fst ↔ f = q.1 ∨ f ∈ (w₁ ++ w₂).map Prod.fst := by
    intro f
    rw [hw]
    simp only [List.map_append, List.map_cons, List.mem_append, List.mem_cons]
    tauto
  have hnot : q.1 ∉ (w₁ ++ w₂).map Prod.fst := by
    rw [hw, List.map_append, List.map_cons, List.nodup_middle, List.nodup_cons] at hnodup
    rw [List.map_append]
    exact hnodup.1
  refine ⟨w₁ ++ w₂, { h with
    acquires := (List.map_append ..).symm
    waiting_nodup := ?_
    waiting := ?_
    released := ?_
    available := ?_
    complete := ?_ }⟩
  · rw [hw, List.map_append, List.map_cons, List.nodup_middle, List.nodup_cons] at hnodup
    rw [List.map_append]
    exact hnodup.2
  · intro r hr
    apply h.waiting r
    rw [hw]
    obtain hr | hr := List.mem_append.mp hr
    · exact List.mem_append_left _ hr
    · exact List.mem_append_right _ (List.mem_cons_of_mem _ hr)
  · intro f hf hfree
    by_cases hfq : f = q.1
    · intro a ha heq
      exact (hbefore a (hfq ▸ ha) (hfq ▸ heq)).trans_le hlast
    · apply h.released f hf
      intro hmem
      obtain heq | hmem := (hsplit f).mp hmem
      · exact hfq heq
      · exact hfree hmem
  · intro k
    by_cases hk : k = q.1 % n
    · subst hk
      simp only [Function.update_self, true_iff]
      exact ⟨q.1, hbegun, hacquired, hnot, rfl⟩
    · have hne : FrameSemaphore.available k ≠ .available (q.1 % n) := by
        intro heq
        exact hk (FrameSemaphore.available.inj heq)
      simp only [Function.update_of_ne hne]
      rw [h.available k]
      constructor
      · intro ⟨f, hlo, hhi, hfree, hf⟩
        exact ⟨f, hlo, hhi, fun hmem => hfree ((hsplit f).mpr (Or.inr hmem)), hf⟩
      · intro ⟨f, hlo, hhi, hfree, hf⟩
        refine ⟨f, hlo, hhi, fun hmem => ?_, hf⟩
        obtain heq | hmem := (hsplit f).mp hmem
        · exact hk (heq ▸ hf.symm)
        · exact hfree hmem
  · intro k
    simp only [ne_eq, reduceCtorEq, not_false_eq_true, Function.update_of_ne]
    exact h.complete k

theorem start (h : InSlots n image c g d) {b : Batch FrameSemaphore ℕ}
    {rest : List (Batch FrameSemaphore ℕ)} (hqueued : d.queued = b :: rest)
    (hwait : ∀ s ∈ b.wait, d.semaphores s = true) :
    ∃ g', InSlots n image c g' { d with
      semaphores := mark b.wait false d.semaphores
      queued := rest
      running := d.running ++ [b] } := by
  obtain ⟨o, queued, ho, rfl, rfl⟩ := List.map_eq_cons_iff.mp (h.queued.symm.trans hqueued)
  have hframes := h.queued_frames
  have hfb := h.finished_le
  cases o with
  | none =>
      -- An upload waits for nothing.
      rw [ho, List.reduceOption_cons_of_none] at hframes
      exact ⟨{ g with running := g.running ++ [none], queued := queued }, { h with
        running := by rw [List.map_append, ← h.running]; rfl
        queued := rfl
        running_frames := by
          rw [List.reduceOption_append, h.running_frames]
          exact List.append_nil _
        queued_frames := hframes }⟩
  | some f =>
      rw [ho, List.reduceOption_cons_of_some] at hframes
      obtain ⟨rfl, hlt, hframes⟩ := List.range'_eq_cons_iff.mp hframes.symm
      have hsa := h.submitted_le
      have har := h.acquired_le
      have hrf := h.reset_le
      -- The semaphore is signalled for this frame and not for a later one in the same slot.
      obtain ⟨f, hlo, hhi, hfree, hmod⟩ := (h.available (g.begun % n)).mp (hwait _ rfl)
      have hf : f = g.begun := eq_of_mod_eq hmod (by omega) (by omega)
      subst hf
      refine ⟨{ g with
        begun := g.begun + 1
        running := g.running ++ [some g.begun]
        queued := queued }, { h with
        running := ?_
        queued := rfl
        running_frames := ?_
        queued_frames := ?_
        finished_le := by simp only; omega
        begun_le := by simp only; omega
        waiting := ?_
        available := ?_
        complete := ?_ }⟩
      · simp only [batchOf, frameBatch, List.map_append, ← h.running]
        rfl
      · have hcount : g.begun + 1 - g.finished = g.begun - g.finished + 1 := by omega
        rw [List.reduceOption_append, h.running_frames, hcount, List.range'_1_concat,
          Nat.add_sub_cancel' hfb]
        rfl
      · simp only
        rw [hframes, Nat.sub_sub]
      · intro q hq
        obtain ⟨hle, hrest⟩ := h.waiting q hq
        have hne : q.1 ≠ g.begun := by
          intro heq
          exact hfree (heq ▸ List.mem_map_of_mem hq)
        exact ⟨by simp only; omega, hrest⟩
      · intro k
        simp only [batchOf, frameBatch, mark]
        by_cases hk : k = g.begun % n
        · subst hk
          simp only [Function.update_self, Bool.false_eq_true, false_iff]
          intro hex
          obtain ⟨f, hlo, hhi, _, hmod⟩ := hex
          have hf : f = g.begun := eq_of_mod_eq hmod (by omega) (by omega)
          omega
        · have hne : FrameSemaphore.available k ≠ .available (g.begun % n) := by
            intro heq
            exact hk (FrameSemaphore.available.inj heq)
          rw [Function.update_of_ne hne, h.available k]
          constructor
          · intro hex
            obtain ⟨f, hlo, hhi, hfree, hmod⟩ := hex
            have hne : f ≠ g.begun := by
              intro heq
              exact hk (heq ▸ hmod.symm)
            exact ⟨f, by omega, hhi, hfree, hmod⟩
          · intro hex
            obtain ⟨f, hlo, hhi, hfree, hmod⟩ := hex
            exact ⟨f, by omega, hhi, hfree, hmod⟩
      · intro k
        simp only [batchOf, frameBatch, mark, ne_eq, reduceCtorEq, not_false_eq_true,
          Function.update_of_ne]
        exact h.complete k

/-- The semaphore that the oldest running batch signals was waited for by a presentation. -/
theorem maySignal (h : InSlots n image c g d) : d.MaySignal := by
  intro b hb s hs
  obtain ⟨rest, hrunning⟩ := List.head?_eq_some_iff.mp hb
  obtain ⟨o, running, ho, rfl, -⟩ := List.map_eq_cons_iff.mp (h.running.symm.trans hrunning)
  have hframes := h.running_frames
  cases o with
  | none => cases hs
  | some f =>
      rw [ho, List.reduceOption_cons_of_some] at hframes
      obtain ⟨rfl, hlt, -⟩ := List.range'_eq_cons_iff.mp hframes.symm
      cases hs
      have hroom := h.finished_lt_presented (by omega)
      rw [← Bool.not_eq_true, h.complete]
      exact not_occupied_next hroom

theorem finish (h : InSlots n image c g d) {b : Batch FrameSemaphore ℕ}
    {rest : List (Batch FrameSemaphore ℕ)} (hrunning : d.running = b :: rest) :
    ∃ g', InSlots n image c g' { d with
      semaphores := mark b.signal true d.semaphores
      fences := mark b.fence true d.fences
      running := rest } := by
  obtain ⟨o, running, ho, rfl, rfl⟩ := List.map_eq_cons_iff.mp (h.running.symm.trans hrunning)
  have hframes := h.running_frames
  cases o with
  | none =>
      rw [ho, List.reduceOption_cons_of_none] at hframes
      exact ⟨{ g with running := running }, { h with
        running := rfl
        running_frames := hframes }⟩
  | some f =>
      rw [ho, List.reduceOption_cons_of_some] at hframes
      obtain ⟨rfl, hlt, hframes⟩ := List.range'_eq_cons_iff.mp hframes.symm
      have hroom := h.finished_lt_presented (by omega)
      have hbs := h.begun_le
      have hsa := h.submitted_le
      have har := h.acquired_le
      have hrf := h.reset_le
      have hpf := h.presented_le_finished
      refine ⟨{ g with finished := g.finished + 1, running := running }, { h with
        running := rfl
        running_frames := ?_
        finished_le := by simp only; omega
        reset_le := by simp only; omega
        presented_le_finished := by simp only; omega
        finished_le_presented := by simp only; omega
        fences := ?_
        available := ?_
        complete := ?_ }⟩
      · simp only
        rw [hframes, Nat.sub_sub]
      · intro k
        simp only [batchOf, frameBatch, mark]
        rw [occupied_tail (by omega), ← h.fences k]
        by_cases hk : k = g.finished % n
        · subst hk
          simp only [Function.update_self, Bool.true_eq_false, ne_eq, not_true_eq_false, false_and]
        · simp only [Function.update_of_ne hk, ne_eq, hk, not_false_eq_true, true_and]
      · intro k
        simp only [batchOf, frameBatch, mark, ne_eq, reduceCtorEq,
          not_false_eq_true, Function.update_of_ne]
        exact h.available k
      · intro k
        simp only [batchOf, frameBatch, mark]
        rw [occupied_next (by omega), ← h.complete k]
        by_cases hk : k = g.finished % n
        · subst hk
          simp only [Function.update_self, true_or]
        · have hne : FrameSemaphore.complete k ≠ .complete (g.finished % n) := by
            intro heq
            exact hk (FrameSemaphore.complete.inj heq)
          simp only [Function.update_of_ne hne, hk, false_or]

theorem present_done (h : InSlots n image c g d) {s : FrameSemaphore} {rest : List FrameSemaphore}
    (hpresents : d.presents = s :: rest) (hwait : d.semaphores s = true) :
    InSlots n image c g { d with
      semaphores := Function.update d.semaphores s false
      presents := rest
      presented := d.presented + 1 } := by
  obtain ⟨f, frames, hframes, rfl, rfl⟩ := List.map_eq_cons_iff.mp (h.presents.symm.trans hpresents)
  obtain ⟨rfl, hlt, rfl⟩ := List.range'_eq_cons_iff.mp hframes
  have hfp := h.finished_le_presented
  obtain ⟨f, hlo, hhi, hmod⟩ := (h.complete (d.presented % n)).mp hwait
  exact { h with
    presented_le := by simp only; omega
    presented_le_finished := by simp only; omega
    finished_le_presented := by simp only; omega
    released := by
      intro f hf hfree a ha heq
      exact (h.released f hf hfree a ha heq).trans (Nat.lt_succ_self _)
    presents := by simp only [Nat.sub_sub]
    available := by
      intro k
      simp only [ne_eq, reduceCtorEq, not_false_eq_true, Function.update_of_ne]
      exact h.available k
    complete := by
      intro k
      rw [occupied_tail hfp, ← h.complete k]
      by_cases hk : k = d.presented % n
      · subst hk
        simp only [Function.update_self, Bool.false_eq_true, ne_eq, not_true_eq_false, false_and]
      · have hne : FrameSemaphore.complete k ≠ .complete (d.presented % n) := by
          intro heq
          exact hk (FrameSemaphore.complete.inj heq)
        simp only [Function.update_of_ne hne, ne_eq, hk, not_false_eq_true, true_and] }

theorem step (h : InSlots n image c g d) (hstep : DeviceQueues.Step d d') :
    ∃ g', InSlots n image c g' d' := by
  cases hstep with
  | release hacquires hlast =>
      obtain ⟨waiting, h⟩ := h.release hacquires hlast
      exact ⟨_, h⟩
  | start hqueued hwait => exact h.start hqueued hwait
  | finish hrunning => exact h.finish hrunning
  | present hpresents hwait => exact ⟨g, h.present_done hpresents hwait⟩

/-! ### The calls that give the device work -/

theorem reset (hn : 0 < n) (h : InSlots n image ⟨t, t, t, t⟩ g d)
    (hfence : d.fences (t % n) = true) :
    InSlots n image ⟨t + 1, t, t, t⟩ g (d.resetFence (t % n)) := by
  have hfb := h.finished_le
  have hbt : g.begun ≤ t := h.begun_le
  have hrf : t ≤ g.finished + n := h.reset_le
  have hroom : t ≠ g.finished + n := by
    intro ht
    have hfree : ¬ Occupied n g.finished t (t % n) := by
      rw [← h.fences, hfence]
      exact Bool.noConfusion
    exact hfree ⟨g.finished, le_refl _, by omega, by rw [ht, Nat.add_mod_right]⟩
  exact { h with
    acquired_le := by simp only; omega
    reset_le := by simp only; omega
    fences := by
      intro k
      simp only [resetFence]
      rw [occupied_next (by omega), ← h.fences k]
      by_cases hk : k = t % n
      · subst hk
        simp only [Function.update_self, true_or]
      · simp only [Function.update_of_ne hk, hk, false_or] }

/-- The image is handed out for frame `t`. -/
theorem acquire (h : InSlots n image ⟨t + 1, t, t, t⟩ g d) {i : ℕ} (hi : i < n) :
    ∃ g', InSlots n (Function.update image t i) ⟨t + 1, t + 1, t, t⟩ g'
      (d.acquire (.available (t % n)) i) := by
  have hbt : g.begun ≤ t := h.begun_le
  have himage : ∀ f, f < t → Function.update image t i f = image f := by
    intro f hf
    exact Function.update_of_ne (by omega) _ _
  have hbefore : ∀ f last, f < t → PresentedBefore image f last →
      PresentedBefore (Function.update image t i) f last := by
    intro f last hf hlast a ha heq
    rw [himage a (by omega), himage f hf] at heq
    exact hlast a ha heq
  have hmem : ∀ f, f ∈ (g.waiting ++ [(t, d.lastPresent i)]).map Prod.fst ↔
      f ∈ g.waiting.map Prod.fst ∨ f = t := by
    intro f
    rw [List.map_append, List.mem_append, List.map_singleton, List.mem_singleton]
  have hnew : t ∉ g.waiting.map Prod.fst := by
    intro hmem
    obtain ⟨q, hq, heq⟩ := List.mem_map.mp hmem
    have hlt : q.1 < t := (h.waiting q hq).2.1
    omega
  refine ⟨{ g with waiting := g.waiting ++ [(t, d.lastPresent i)] }, { h with
    submitted_le := Nat.le_succ t
    acquired_le := le_refl _
    acquires := ?_
    waiting_nodup := ?_
    waiting := ?_
    released := ?_
    image_lt := ?_
    lastPresent := ?_
    available := ?_ }⟩
  · simp only [DeviceQueues.acquire, List.map_append, h.acquires]
    rfl
  · simp only [List.map_append, List.map_singleton]
    exact List.Nodup.append h.waiting_nodup (List.nodup_singleton t)
      (List.disjoint_singleton.mpr hnew)
  · intro q hq
    obtain hq | hq := List.mem_append.mp hq
    · obtain ⟨hbegun, hlt, hle, hlast⟩ := h.waiting q hq
      exact ⟨hbegun, Nat.lt_succ_of_lt hlt, hle, hbefore q.1 q.2 hlt hlast⟩
    · obtain rfl := List.mem_singleton.mp hq
      obtain ⟨hle, hlast⟩ := h.lastPresent i
      refine ⟨hbt, Nat.lt_succ_self t, hle, ?_⟩
      intro a ha heq
      rw [himage a ha, Function.update_self] at heq
      exact hlast a ha heq
  · intro f hf hfree
    have hne : f ≠ t := fun heq => hfree ((hmem f).mpr (Or.inr heq))
    have hlt : f < t := by
      simp only at hf
      omega
    exact hbefore f _ hlt (h.released f hlt fun hf => hfree ((hmem f).mpr (Or.inl hf)))
  · intro f hf
    by_cases heq : f = t
    · rw [heq, Function.update_self]
      exact hi
    · have hlt : f < t := by
        simp only at hf
        omega
      rw [himage f hlt]
      exact h.image_lt f hlt
  · intro j
    obtain ⟨hle, hlast⟩ := h.lastPresent j
    refine ⟨hle, ?_⟩
    intro a ha heq
    rw [himage a ha] at heq
    exact hlast a ha heq
  · intro k
    simp only [DeviceQueues.acquire]
    rw [h.available k]
    constructor
    · intro ⟨f, hlo, hhi, hfree, hmod⟩
      simp only at hhi
      refine ⟨f, hlo, by omega, ?_, hmod⟩
      intro hf
      obtain hf | hf := (hmem f).mp hf
      · exact hfree hf
      · omega
    · intro ⟨f, hlo, hhi, hfree, hmod⟩
      have hne : f ≠ t := fun heq => hfree ((hmem f).mpr (Or.inr heq))
      exact ⟨f, hlo, by simp only; omega, fun hf => hfree ((hmem f).mpr (Or.inl hf)), hmod⟩

theorem submit_upload (h : InSlots n image c g d) : ∃ g', InSlots n image c g' (d.submit {}) := by
  refine ⟨{ g with queued := g.queued ++ [none] }, { h with
    queued := ?_
    queued_frames := ?_ }⟩
  · simp only [submit, List.map_append, h.queued]
    rfl
  · rw [List.reduceOption_append, h.queued_frames]
    exact List.append_nil _

theorem submit_frame (h : InSlots n image ⟨t + 1, t + 1, t, t⟩ g d) :
    ∃ g', InSlots n image ⟨t + 1, t + 1, t + 1, t⟩ g' (d.submit (frameBatch (t % n))) := by
  have hbt : g.begun ≤ t := h.begun_le
  refine ⟨{ g with queued := g.queued ++ [some t] }, { h with
    queued := ?_
    queued_frames := ?_
    begun_le := Nat.le_succ_of_le hbt
    submitted_le := le_refl _ }⟩
  · simp only [submit, List.map_append, h.queued]
    rfl
  · have hcount : t + 1 - g.begun = t - g.begun + 1 := by omega
    rw [List.reduceOption_append, h.queued_frames]
    simp only
    rw [hcount, List.range'_1_concat, Nat.add_sub_cancel' hbt]
    rfl

theorem present (h : InSlots n image ⟨t + 1, t + 1, t + 1, t⟩ g d) :
    InSlots n image ⟨t + 1, t + 1, t + 1, t + 1⟩ g
      (d.present (.complete (t % n)) (image t)) := by
  have hpt : d.presented ≤ t := h.presented_le
  exact { h with
    presented_le := Nat.le_succ_of_le hpt
    presents := by
      have hcount : t + 1 - d.presented = t - d.presented + 1 := by omega
      simp only [DeviceQueues.present, h.presents]
      rw [hcount, List.range'_1_concat, Nat.add_sub_cancel' hpt, List.map_append]
      rfl
    lastPresent := by
      have hcount : d.presented + d.presents.length + 1 = t + 1 := by
        rw [h.presents, List.length_map, List.length_range']
        simp only
        omega
      intro i
      simp only [DeviceQueues.present, hcount]
      by_cases hi : i = image t
      · subst hi
        rw [Function.update_self]
        exact ⟨le_refl _, fun a ha _ => ha⟩
      · rw [Function.update_of_ne hi]
        obtain ⟨hle, hlast⟩ := h.lastPresent i
        refine ⟨Nat.le_succ_of_le hle, ?_⟩
        intro a ha heq
        have hne : a ≠ t := by
          intro ht
          exact hi (ht ▸ heq.symm)
        exact hlast a (by simp only; omega) heq }

end InSlots

/-! ### Runs in which nothing is lost -/

/-- What `t` frames presented and the call that is to answer say about the frames. -/
def counts (t : ℕ) : RenderPhase → FrameCounts
  | .acquireNextImage => ⟨t + 1, t, t, t⟩
  | .submitUpload _ => ⟨t + 1, t + 1, t, t⟩
  | .waitIdle _ => ⟨t + 1, t + 1, t, t⟩
  | .queueSubmit _ => ⟨t + 1, t + 1, t, t⟩
  | .queuePresent _ _ => ⟨t + 1, t + 1, t + 1, t⟩
  | _ => ⟨t, t, t, t⟩

/-- The image that the call is about. -/
def imageOf : RenderPhase → Option ℕ
  | .submitUpload i => some i
  | .waitIdle i => some i
  | .queueSubmit i => some i
  | .queuePresent i _ => some i
  | _ => none

structure InStep (n t : ℕ) (image : ℕ → ℕ) (g : DeviceCounts) (s : FrameSync) : Prop where
  slots : InSlots n image (counts t s.phase) g s.device
  currentIndex : s.currentIndex = (counts t s.phase).submitted % n
  held : s.device.held = (imageOf s.phase).toList
  image_eq : ∀ i ∈ imageOf s.phase, image t = i
  slot : ∀ i k, s.phase = .queuePresent i k → k = t % n
  fence : s.phase = .resetFences → s.device.fences s.currentIndex = true

def Synchronised (n : ℕ) (s : FrameSync) : Prop := ∃ t image g, InStep n t image g s

variable {s u : FrameSync} {e : FrameEvent} {es : List FrameEvent} {result : VkResult} {index : ℕ}

theorem synchronised_created : Synchronised n created := by
  refine ⟨0, fun _ => 0, ⟨0, 0, [], [], []⟩, ?_, ?_, rfl, ?_, ?_, ?_⟩
  · exact {
      running := rfl
      queued := rfl
      running_frames := rfl
      queued_frames := rfl
      finished_le := le_refl _
      begun_le := le_refl _
      submitted_le := le_refl _
      acquired_le := le_refl _
      reset_le := Nat.zero_le _
      presented_le := le_refl _
      presented_le_finished := le_refl _
      finished_le_presented := Nat.zero_le _
      acquires := rfl
      waiting_nodup := List.nodup_nil
      waiting := List.forall_mem_nil _
      released := fun f hf => (Nat.not_lt_zero f hf).elim
      image_lt := fun f hf => (Nat.not_lt_zero f hf).elim
      presents := rfl
      lastPresent := fun _ => ⟨le_refl _, fun a ha => (Nat.not_lt_zero a ha).elim⟩
      fences := by
        intro k
        constructor
        · intro h
          cases h
        · intro h
          exact (not_occupied_empty h).elim
      available := by
        intro k
        constructor
        · intro h
          cases h
        · intro ⟨f, _, hf, _⟩
          exact (Nat.not_lt_zero f hf).elim
      complete := by
        intro k
        constructor
        · intro h
          cases h
        · intro h
          exact (not_occupied_empty h).elim }
  · exact (Nat.zero_mod n).symm
  · intro i hi
    cases hi
  · intro i k hk
    cases hk
  · intro hk
    cases hk

theorem InStep.device (h : InStep n t image g s) (hd : DeviceQueues.Step s.device d) :
    ∃ g', InStep n t image g' { s with device := d } := by
  obtain ⟨g', hslots⟩ := h.slots.step hd
  refine ⟨g', hslots, h.currentIndex, ?_, h.image_eq, h.slot, ?_⟩
  · exact (held_of_step hd).trans h.held
  · intro hphase
    exact fence_of_step hd (h.fence hphase)

/-- Going on with the same frames: only the phase changes. -/
theorem InStep.goto {phase : RenderPhase} (h : InStep n t image g s)
    (hcounts : counts t phase = counts t s.phase) (himage : imageOf phase = imageOf s.phase)
    (hslot : ∀ i k, phase ≠ .queuePresent i k)
    (hfence : phase = .resetFences → s.device.fences s.currentIndex = true) :
    InStep n t image g { s with phase := phase } where
  slots := hcounts ▸ h.slots
  currentIndex := hcounts ▸ h.currentIndex
  held := himage ▸ h.held
  image_eq := himage ▸ h.image_eq
  slot := fun i k hphase => (hslot i k hphase).elim
  fence := hfence

theorem next_index (hn : n < 2 ^ 32) (hpos : 0 < n) :
    VulkanRenderer.uint32 (t % n + 1) % n = (t + 1) % n := by
  have hlt := Nat.mod_lt t hpos
  rw [VulkanRenderer.uint32, Nat.mod_eq_of_lt (show t % n + 1 < 2 ^ 32 by omega), Nat.mod_add_mod]

theorem InStep.answer (hn : n < 2 ^ 32) (hpos : 0 < n) (h : InStep n t image g s)
    (hmay : s.MayAnswer n result index)
    (hfence : FrameEvent.losesFence (.answered s.phase result) = false)
    (hpresent : FrameEvent.failsToPresent (.answered s.phase result) = false) :
    Synchronised n (s.answer n result index) := by
  obtain ⟨device, currentIndex, phase⟩ := s
  cases phase with
  | between => exact hmay.elim
  | waitForFences =>
      simp only [FrameSync.answer]
      split
      · rename_i hresult
        exact ⟨t, image, g, h.goto rfl rfl (fun _ _ => by simp) fun _ => hmay hresult⟩
      · exact ⟨t, image, g, h.goto rfl rfl (fun _ _ => by simp) (fun hk => by cases hk)⟩
  | resetFences =>
      obtain rfl : currentIndex = t % n := h.currentIndex
      simp only [FrameSync.answer]
      split
      · exact ⟨t, image, g, h.slots.reset hpos (h.fence rfl), rfl, h.held, h.image_eq,
          fun i k hk => (by cases hk), fun hk => (by cases hk)⟩
      · exact ⟨t, image, g, h.goto rfl rfl (fun _ _ => by simp) (fun hk => by cases hk)⟩
  | acquireNextImage =>
      obtain rfl : currentIndex = t % n := h.currentIndex
      have himage : result.hasImage := by
        simpa only [FrameEvent.losesFence, FrameEvent.failsToAcquire, FrameEvent.failsToSubmit,
          Bool.or_false, Bool.not_eq_false'] using hfence
      simp only [FrameSync.answer, if_pos himage]
      obtain ⟨g', hslots⟩ := h.slots.acquire (hmay.2 himage).1
      refine ⟨t, Function.update image t index, g', hslots, rfl, ?_, ?_, ?_, ?_⟩
      · exact congrArg (index :: ·) h.held
      · intro i hi
        cases hi
        exact Function.update_self ..
      · intro i k hk
        cases hk
      · intro hk
        cases hk
  | submitUpload i =>
      simp only [FrameSync.answer]
      split
      · obtain ⟨g', hslots⟩ := h.slots.submit_upload
        exact ⟨t, image, g', hslots, h.currentIndex, h.held, h.image_eq,
          fun i k hk => (by cases hk), fun hk => (by cases hk)⟩
      · exact ⟨t, image, g, h.goto rfl rfl (fun _ _ => by simp) (fun hk => by cases hk)⟩
  | waitIdle i =>
      exact ⟨t, image, g, h.goto rfl rfl (fun _ _ => by simp) (fun hk => by cases hk)⟩
  | queueSubmit i =>
      obtain rfl : currentIndex = t % n := h.currentIndex
      have hresult : result = .success := by
        simpa only [FrameEvent.losesFence, FrameEvent.failsToAcquire, FrameEvent.failsToSubmit,
          Bool.false_or, decide_eq_false_iff_not, ne_eq, Decidable.not_not] using hfence
      simp only [FrameSync.answer, if_pos hresult]
      obtain ⟨g', hslots⟩ := h.slots.submit_frame
      refine ⟨t, image, g', hslots, next_index hn hpos, h.held, h.image_eq, ?_, ?_⟩
      · intro i k hk
        cases hk
        rfl
      · intro hk
        cases hk
  | queuePresent i k =>
      obtain rfl : k = t % n := h.slot i k rfl
      obtain rfl : image t = i := h.image_eq i rfl
      have himage : result.hasImage := by
        simpa only [FrameEvent.failsToPresent, Bool.not_eq_false'] using hpresent
      have hheld : device.held = [image t] := h.held
      simp only [FrameSync.answer, if_pos himage]
      refine ⟨t + 1, image, g, h.slots.present, h.currentIndex, ?_, ?_, ?_, ?_⟩
      · simp only [DeviceQueues.present, hheld]
        exact List.erase_cons_head _ _
      · intro i hi
        cases hi
      · intro i k hk
        cases hk
      · intro hk
        cases hk

theorem Synchronised.step (hn : n < 2 ^ 32) (hpos : 0 < n) (h : Synchronised n s)
    (hstep : Step n s e u) (hfence : e.losesFence = false) (hpresent : e.failsToPresent = false) :
    Synchronised n u := by
  obtain ⟨t, image, g, h⟩ := h
  cases hstep with
  | device hd =>
      obtain ⟨g', h⟩ := h.device hd
      exact ⟨t, image, g', h⟩
  | render hphase =>
      refine ⟨t, image, g, h.goto ?_ ?_ (fun _ _ => by simp) (fun hk => by cases hk)⟩
      · rw [hphase]
        rfl
      · rw [hphase]
        rfl
  | answered hmay => exact h.answer hn hpos hmay hfence hpresent

theorem Synchronised.run (hn : n < 2 ^ 32) (hpos : 0 < n) (h : Synchronised n s)
    (hrun : Run n s es u) (hfence : ∀ e ∈ es, e.losesFence = false)
    (hpresent : ∀ e ∈ es, e.failsToPresent = false) : Synchronised n u := by
  induction hrun with
  | nil => exact h
  | snoc _ hstep ih =>
      rw [List.forall_mem_append] at hfence hpresent
      have hlast := ih hfence.1 hpresent.1
      exact hlast.step hn hpos hstep (hfence.2 _ (List.mem_singleton_self _))
        (hpresent.2 _ (List.mem_singleton_self _))

end ARArch.FrameSync

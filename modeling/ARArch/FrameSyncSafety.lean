import ARArch.FrameSlots

/-!
# `render` and the rules of the device

As long as no image, submission or presentation fails, `render` follows the rules for the fences
and the semaphores, whenever the device does its part. It waits for its fence for ever exactly
after a failure between the reset of the fence and the submission that is to signal it. All this is
about runs in which the swapchain is never out of date: nothing is said of the calls behind
`destroy(true)` and `recreate()`.
-/

namespace ARArch.FrameSync

open RingSlots DeviceQueues

variable {n : ℕ} {image : ℕ → ℕ} {c : FrameCounts} {g : DeviceCounts}
  {d d' : DeviceQueues FrameSemaphore ℕ ℕ} {t k : ℕ} {s u : FrameSync} {e : FrameEvent}
  {es : List FrameEvent}

namespace InSlots

theorem mayReset (h : InSlots n image c g d) (hfree : ¬ Occupied n g.finished c.submitted k) :
    d.MayReset k := by
  intro b hb hfence
  obtain rfl | ⟨f, hlo, hhi, rfl⟩ := h.batch_cases hb
  · cases hfence
  · cases hfence
    exact hfree ⟨f, hlo, hhi, rfl⟩

/-! ### The semaphores of the images -/

theorem signals_available (h : InSlots n image c g d) :
    d.signals (.available k) = (d.semaphores (.available k)).toNat +
      (d.acquires.map Prod.fst).count (.available k) := by
  have hbatches :
      ((d.running ++ d.queued).map Batch.signal).count (some (.available k)) = 0 := by
    rw [List.count_eq_zero]
    intro hmem
    obtain ⟨b, hb, hsignal⟩ := List.mem_map.mp hmem
    obtain rfl | ⟨f, -, -, rfl⟩ := h.batch_cases hb
    · cases hsignal
    · cases hsignal
  rw [signals, hbatches, Nat.add_zero]

theorem waits_available (h : InSlots n image c g d)
    (hfree : ¬ Occupied n g.begun c.submitted k) : d.waits (.available k) = 0 := by
  rw [waits, Nat.add_eq_zero_iff, List.count_eq_zero, List.count_eq_zero]
  constructor
  · intro hmem
    obtain ⟨b, hb, hwait⟩ := List.mem_map.mp hmem
    obtain rfl | ⟨f, hlo, hhi, rfl⟩ := h.queued_cases hb
    · cases hwait
    · cases hwait
      exact hfree ⟨f, hlo, hhi, rfl⟩
  · intro hmem
    rw [h.presents] at hmem
    obtain ⟨f, -, hf⟩ := List.mem_map.mp hmem
    cases hf

theorem signals_available_eq_zero (h : InSlots n image c g d)
    (hfree : ¬ Occupied n g.begun c.acquired k) : d.signals (.available k) = 0 := by
  have hsemaphore : d.semaphores (.available k) = false := by
    rw [← Bool.not_eq_true, h.available]
    intro ⟨f, hlo, hhi, _, hmod⟩
    exact hfree ⟨f, hlo, hhi, hmod⟩
  rw [h.signals_available, hsemaphore, Bool.toNat_false, Nat.zero_add, List.count_eq_zero]
  intro hmem
  rw [h.acquires, List.map_map] at hmem
  obtain ⟨q, hq, heq⟩ := List.mem_map.mp hmem
  obtain ⟨hlo, hhi, -⟩ := h.waiting q hq
  exact hfree ⟨q.1, hlo, hhi, FrameSemaphore.available.inj heq⟩

/-- The image of a frame is there or is to come. -/
theorem signals_available_pos (h : InSlots n image c g d) {f : ℕ} (hlo : g.begun ≤ f)
    (hhi : f < c.acquired) : 0 < d.signals (.available (f % n)) := by
  rw [h.signals_available]
  by_cases hf : f ∈ g.waiting.map Prod.fst
  · obtain ⟨q, hq, rfl⟩ := List.mem_map.mp hf
    have hmem : FrameSemaphore.available (q.1 % n) ∈ d.acquires.map Prod.fst := by
      rw [h.acquires, List.map_map]
      exact List.mem_map.mpr ⟨q, hq, rfl⟩
    have hcount := List.count_pos_iff.mpr hmem
    omega
  · have hsemaphore := (h.available (f % n)).mpr ⟨f, hlo, hhi, hf, rfl⟩
    rw [hsemaphore, Bool.toNat_true]
    omega

/-! ### The semaphores of the presentations -/

theorem count_signal (l : List (Option ℕ)) :
    ((l.map (batchOf n)).map Batch.signal).count (some (.complete k)) =
      l.reduceOption.countP (· % n = k) := by
  induction l with
  | nil => rfl
  | cons o l ih =>
      cases o with
      | none =>
          rw [List.map_cons, List.map_cons, List.reduceOption_cons_of_none, ← ih]
          exact List.count_cons_of_ne (by simp [batchOf])
      | some f =>
          rw [List.map_cons, List.map_cons, List.reduceOption_cons_of_some, List.countP_cons, ← ih,
            List.count_cons]
          simp only [batchOf, frameBatch, beq_iff_eq, Option.some.injEq,
            FrameSemaphore.complete.injEq, decide_eq_true_eq]

theorem signals_complete (h : InSlots n image c g d) :
    d.signals (.complete k) = (d.semaphores (.complete k)).toNat +
      (List.range' g.finished (c.submitted - g.finished)).countP (· % n = k) := by
  have hfb := h.finished_le
  have hbs := h.begun_le
  have hframes : (g.running ++ g.queued).reduceOption =
      List.range' g.finished (c.submitted - g.finished) := by
    have hsplit : c.submitted - g.finished = g.begun - g.finished + (c.submitted - g.begun) := by
      omega
    rw [List.reduceOption_append, h.running_frames, h.queued_frames, hsplit,
      ← List.range'_append_1, Nat.add_sub_cancel' hfb]
  have hacquires : (d.acquires.map Prod.fst).count (.complete k) = 0 := by
    rw [List.count_eq_zero, h.acquires, List.map_map]
    intro hmem
    obtain ⟨q, -, hq⟩ := List.mem_map.mp hmem
    cases hq
  rw [signals, hacquires, Nat.add_zero, h.running, h.queued, ← List.map_append, count_signal,
    hframes]

theorem waits_complete (h : InSlots n image c g d) :
    d.waits (.complete k) =
      (List.range' d.presented (c.presented - d.presented)).countP (· % n = k) := by
  have hqueued : (d.queued.map Batch.wait).count (some (.complete k)) = 0 := by
    rw [List.count_eq_zero]
    intro hmem
    obtain ⟨b, hb, hwait⟩ := List.mem_map.mp hmem
    obtain rfl | ⟨f, -, -, rfl⟩ := h.queued_cases hb
    · cases hwait
    · cases hwait
  rw [waits, hqueued, Nat.zero_add, h.presents, List.count_eq_countP, List.countP_map]
  apply List.countP_congr
  intro f _
  simp only [Function.comp_apply, beq_iff_eq, FrameSemaphore.complete.injEq, decide_eq_true_eq]

/-- Each presentation has a signal of its own: those to come for the batches that are not finished,
and the one that is there when one of the finished frames in the slot is not yet presented. -/
theorem waits_lt_signals (h : InSlots n image ⟨t + 1, t + 1, t + 1, t⟩ g d) :
    d.waits (.complete (t % n)) < d.signals (.complete (t % n)) := by
  have hpt : d.presented ≤ t := h.presented_le
  have hpf := h.presented_le_finished
  have hfp := h.finished_le_presented
  have hft : g.finished ≤ t + 1 := h.finished_le.trans h.begun_le
  rw [h.waits_complete, h.signals_complete]
  simp only
  have hlast : (List.range' d.presented (t + 1 - d.presented)).countP (· % n = t % n) =
      (List.range' d.presented (t - d.presented)).countP (· % n = t % n) + 1 := by
    have hcount : t + 1 - d.presented = t - d.presented + 1 := by omega
    rw [hcount, List.range'_1_concat, List.countP_append, Nat.add_sub_cancel' hpt,
      List.countP_singleton, if_pos (decide_eq_true rfl)]
  have hsplit : (List.range' d.presented (t + 1 - d.presented)).countP (· % n = t % n) =
      (List.range' d.presented (g.finished - d.presented)).countP (· % n = t % n) +
        (List.range' g.finished (t + 1 - g.finished)).countP (· % n = t % n) := by
    have hcount : t + 1 - d.presented = g.finished - d.presented + (t + 1 - g.finished) := by
      omega
    rw [hcount, ← List.range'_append_1, List.countP_append, Nat.add_sub_cancel' hpf]
  have hthere : (List.range' d.presented (g.finished - d.presented)).countP (· % n = t % n) ≤
      (d.semaphores (.complete (t % n))).toNat := by
    by_cases hsemaphore : d.semaphores (.complete (t % n)) = true
    · rw [hsemaphore, Bool.toNat_true]
      exact count_le_one (by omega)
    · have hfree : ¬ Occupied n d.presented g.finished (t % n) :=
        fun hocc => hsemaphore ((h.complete _).mpr hocc)
      rw [count_eq_zero (by rwa [Nat.add_sub_cancel' hpf])]
      exact Nat.zero_le _
  omega

end InSlots

/-! ### The rules -/

theorem Synchronised.followsRules (h : Synchronised n s) : s.FollowsRules := by
  obtain ⟨t, image, g, h⟩ := h
  refine ⟨?_, h.slots.maySignal⟩
  obtain ⟨device, currentIndex, phase⟩ := s
  cases phase with
  | resetFences =>
      obtain rfl : currentIndex = t % n := h.currentIndex
      have hfence : device.fences (t % n) = true := h.fence rfl
      apply h.slots.mayReset
      intro hocc
      rw [(h.slots.fences (t % n)).mpr hocc] at hfence
      cases hfence
  | acquireNextImage =>
      obtain rfl : currentIndex = t % n := h.currentIndex
      have hrf : t + 1 ≤ g.finished + n := h.slots.reset_le
      have hfb := h.slots.finished_le
      have hfree : ¬ Occupied n g.begun t (t % n) := not_occupied_next (by omega)
      exact ⟨h.slots.signals_available_eq_zero hfree, h.slots.waits_available hfree⟩
  | queueSubmit i =>
      obtain rfl : currentIndex = t % n := h.currentIndex
      have hrf : t + 1 ≤ g.finished + n := h.slots.reset_le
      have hfb := h.slots.finished_le
      have hbt : g.begun ≤ t := h.slots.begun_le
      constructor
      · intro f hf
        cases hf
        have hreset : Occupied n g.finished (t + 1) (t % n) :=
          ⟨t, by omega, Nat.lt_succ_self t, rfl⟩
        have hfree : ¬ Occupied n g.finished t (t % n) := not_occupied_next (by omega)
        exact ⟨(h.slots.fences _).mpr hreset, h.slots.mayReset hfree⟩
      · intro w hw
        cases hw
        have hfree : ¬ Occupied n g.begun t (t % n) := not_occupied_next (by omega)
        have hwaits : device.waits (.available (t % n)) = 0 := h.slots.waits_available hfree
        exact hwaits.trans_lt (h.slots.signals_available_pos hbt (Nat.lt_succ_self t))
  | queuePresent i k =>
      obtain rfl : k = t % n := h.slot i k rfl
      have hheld : device.held = [i] := h.held
      refine ⟨?_, h.slots.waits_lt_signals⟩
      rw [hheld]
      exact List.mem_singleton_self i
  | _ => trivial

/-- Whatever the order in which the calls of `render` and the steps of the device are made. -/
theorem followsRules_of_run (hn : n < 2 ^ 32) (hpos : 0 < n) (hrun : Run n created es s)
    (hfence : ∀ e ∈ es, e.losesFence = false) (hpresent : ∀ e ∈ es, e.failsToPresent = false) :
    s.FollowsRules :=
  (synchronised_created.run hn hpos hrun hfence hpresent).followsRules

/-- The first call of `render`, with three images, in front of its `vkAcquireNextImageKHR`. -/
def acquiring : FrameSync :=
  { created with device := created.device.resetFence 0, phase := .acquireNextImage }

def acquiringEvents : List FrameEvent :=
  [.render, .answered .waitForFences .success, .answered .resetFences .success]

theorem run_acquiring : Run 3 created acquiringEvents acquiring := by
  have hrender : Run 3 created [.render] { created with phase := .waitForFences } :=
    Run.nil.snoc (.render rfl)
  have hwait : Run 3 created [.render, .answered .waitForFences .success]
      { created with phase := .resetFences } :=
    hrender.snoc (@Step.answered 3 _ .success 0 fun _ => rfl)
  exact hwait.snoc (@Step.answered 3 _ .success 0 trivial)

theorem followsRules_acquiring :
    Run 3 created acquiringEvents acquiring ∧ acquiring.FollowsRules :=
  ⟨run_acquiring, followsRules_of_run (by decide) (by decide) run_acquiring (by decide)
    (by decide)⟩

/-! ### Waiting for the fence -/

/-- The fence at `current_index` is reset, and no batch is to signal it. -/
structure Stuck (s : FrameSync) : Prop where
  phase : s.phase = .between ∨ s.phase = .waitForFences
  fence : s.device.fences s.currentIndex = false
  mayReset : s.device.MayReset s.currentIndex

theorem stuck_device (h : DeviceQueues.Step d d') {f : ℕ} (hfence : d.fences f = false)
    (hreset : d.MayReset f) : d'.fences f = false ∧ d'.MayReset f := by
  cases h with
  | release _ _ => exact ⟨hfence, hreset⟩
  | start hqueued hwait =>
      exact ⟨hfence, fun b hb => hreset b (mem_of_step (.start hqueued hwait) hb)⟩
  | @finish b rest hrunning =>
      have hne : b.fence ≠ some f := by
        apply hreset
        rw [hrunning]
        exact List.mem_append_left _ List.mem_cons_self
      refine ⟨(mark_of_ne hne).trans hfence, ?_⟩
      exact fun b' hb' => hreset b' (mem_of_step (.finish hrunning) hb')
  | present _ _ => exact ⟨hfence, hreset⟩

theorem Stuck.step (h : Stuck s) (hstep : Step n s e u) :
    Stuck u ∧ e ≠ .answered .waitForFences .success := by
  cases hstep with
  | device hd =>
      obtain ⟨hfence, hreset⟩ := stuck_device hd h.fence h.mayReset
      exact ⟨⟨h.phase, hfence, hreset⟩, by simp⟩
  | render _ => exact ⟨⟨Or.inr rfl, h.fence, h.mayReset⟩, by simp⟩
  | @answered result index hmay =>
      obtain ⟨device, currentIndex, phase⟩ := s
      obtain hphase | hphase := h.phase
      · obtain rfl : phase = .between := hphase
        exact hmay.elim
      · obtain rfl : phase = .waitForFences := hphase
        have hresult : result ≠ .success := by
          intro hresult
          have hfence := hmay hresult
          rw [h.fence] at hfence
          cases hfence
        simp only [FrameSync.answer, if_neg hresult]
        refine ⟨⟨Or.inl rfl, h.fence, h.mayReset⟩, ?_⟩
        intro heq
        exact hresult (FrameEvent.answered.inj heq).2

theorem Stuck.run (h : Stuck s) (hrun : Run n s es u) :
    Stuck u ∧ .answered .waitForFences .success ∉ es := by
  induction hrun with
  | nil => exact ⟨h, List.not_mem_nil⟩
  | snoc _ hstep ih =>
      obtain ⟨hstuck, hnot⟩ := ih
      obtain ⟨hstuck, hne⟩ := hstuck.step hstep
      refine ⟨hstuck, ?_⟩
      rw [List.mem_append, List.mem_singleton]
      rintro (hmem | heq)
      · exact hnot hmem
      · exact hne heq.symm

/-- A failure behind the reset of the fence and before the submission. -/
theorem Synchronised.stuck (h : Synchronised n s) (hstep : Step n s e u)
    (hlost : e.losesFence = true) : Stuck u := by
  obtain ⟨t, image, g, h⟩ := h
  have hreset : ∀ c : FrameCounts, c.submitted = t → c.reset = t + 1 →
      InSlots n image c g s.device →
      s.device.fences (t % n) = false ∧ s.device.MayReset (t % n) := by
    intro c hsubmitted hreset hslots
    have hle := hslots.reset_le
    have hfb := hslots.finished_le
    have hbs := hslots.begun_le
    have hocc : Occupied n g.finished c.reset (t % n) := ⟨t, by omega, by omega, rfl⟩
    have hfree : ¬ Occupied n g.finished c.submitted (t % n) := by
      rw [hsubmitted]
      exact not_occupied_next (by omega)
    exact ⟨(hslots.fences _).mpr hocc, hslots.mayReset hfree⟩
  cases hstep with
  | device _ => cases hlost
  | render _ => cases hlost
  | @answered result index hmay =>
      obtain ⟨device, currentIndex, phase⟩ := s
      cases phase with
      | acquireNextImage =>
          obtain rfl : currentIndex = t % n := h.currentIndex
          have hresult : ¬ result.hasImage = true := by
            simpa only [FrameEvent.losesFence, FrameEvent.failsToAcquire, FrameEvent.failsToSubmit,
              Bool.or_false, Bool.not_eq_true', Bool.not_eq_true] using hlost
          obtain ⟨hfence, hmayReset⟩ := hreset _ rfl rfl h.slots
          simp only [FrameSync.answer, if_neg hresult]
          exact ⟨Or.inl rfl, hfence, hmayReset⟩
      | queueSubmit i =>
          obtain rfl : currentIndex = t % n := h.currentIndex
          have hresult : result ≠ .success := by
            simpa only [FrameEvent.losesFence, FrameEvent.failsToAcquire, FrameEvent.failsToSubmit,
              Bool.false_or, decide_eq_true_eq] using hlost
          obtain ⟨hfence, hmayReset⟩ := hreset _ rfl rfl h.slots
          simp only [FrameSync.answer, if_neg hresult]
          exact ⟨Or.inl rfl, hfence, hmayReset⟩
      | _ => cases hlost

/-- As long as nothing fails to be presented, either no fence is lost or `render` is stuck. -/
theorem synchronised_or_stuck (hn : n < 2 ^ 32) (hpos : 0 < n) (hrun : Run n created es s)
    (hpresent : ∀ e ∈ es, e.failsToPresent = false) :
    (Synchronised n s ∧ ∀ e ∈ es, e.losesFence = false) ∨
      (Stuck s ∧ ∃ e ∈ es, e.losesFence = true) := by
  induction hrun with
  | nil => exact Or.inl ⟨synchronised_created, List.forall_mem_nil _⟩
  | @snoc es e _ _ _ hstep ih =>
      rw [List.forall_mem_append] at hpresent
      have hlast : e ∈ es ++ [e] := List.mem_append_right _ (List.mem_singleton_self e)
      obtain ⟨hsync, hkept⟩ | ⟨hstuck, e', he', hlost⟩ := ih hpresent.1
      · by_cases hlost : e.losesFence = true
        · exact Or.inr ⟨hsync.stuck hstep hlost, e, hlast, hlost⟩
        · rw [Bool.not_eq_true] at hlost
          left
          refine ⟨hsync.step hn hpos hstep hlost (hpresent.2 _ (List.mem_singleton_self _)), ?_⟩
          rw [List.forall_mem_append, List.forall_mem_singleton]
          exact ⟨hkept, hlost⟩
      · exact Or.inr ⟨(hstuck.step hstep).1, e', List.mem_append_left _ he', hlost⟩

/-! ### What the device can go on with -/

namespace InSlots

/-- The next frame to begin has its image, or waits for the oldest presentation, whose frame is
finished. -/
theorem exists_step_of_waiting (h : InSlots n image ⟨t, t, t, t⟩ g d) (hbf : g.begun = g.finished)
    (hlt : g.begun < t) {rest : List (Batch FrameSemaphore ℕ)}
    (hqueued : d.queued = frameBatch (g.begun % n) :: rest) : ∃ d', DeviceQueues.Step d d' := by
  by_cases hwaiting : g.begun ∈ g.waiting.map Prod.fst
  · obtain ⟨q, hq, hqf⟩ := List.mem_map.mp hwaiting
    obtain ⟨-, -, hle, -⟩ := h.waiting q hq
    by_cases hlast : q.2 ≤ d.presented
    · have hmem : acquireOf n q ∈ d.acquires := by
        rw [h.acquires]
        exact List.mem_map_of_mem hq
      obtain ⟨before, behind, hsplit⟩ := List.append_of_mem hmem
      exact ⟨_, .release hsplit hlast⟩
    · have hcount : t - d.presented = t - d.presented - 1 + 1 := by omega
      have hhead : d.presents = .complete (d.presented % n) ::
          (List.range' (d.presented + 1) (t - d.presented - 1)).map fun f => .complete (f % n) := by
        rw [h.presents]
        simp only
        rw [hcount, List.range'_succ, List.map_cons, Nat.add_sub_cancel]
      have hsignalled : d.semaphores (.complete (d.presented % n)) = true :=
        (h.complete _).mpr ⟨d.presented, le_refl _, by omega, rfl⟩
      exact ⟨_, .present hhead hsignalled⟩
  · have hsignalled : d.semaphores (.available (g.begun % n)) = true :=
      (h.available _).mpr ⟨g.begun, le_refl _, hlt, hwaiting, rfl⟩
    refine ⟨_, .start hqueued ?_⟩
    intro w hw
    cases hw
    exact hsignalled

/-- Either a batch runs, or the next one can begin or is an upload. -/
theorem exists_step (h : InSlots n image ⟨t, t, t, t⟩ g d) (hlt : g.finished < t) :
    ∃ d', DeviceQueues.Step d d' := by
  have hbt : g.begun ≤ t := h.begun_le
  cases hrunning : d.running with
  | cons b rest => exact ⟨_, .finish hrunning⟩
  | nil =>
      have hgrunning : g.running = [] := List.map_eq_nil_iff.mp (h.running.symm.trans hrunning)
      have hnone : g.begun - g.finished = 0 := by
        have hframes := h.running_frames
        rw [hgrunning, List.reduceOption_nil] at hframes
        exact List.range'_eq_nil_iff.mp hframes.symm
      have hbf : g.begun = g.finished := by
        have hfb := h.finished_le
        omega
      cases hqueued : g.queued with
      | nil =>
          have hframes := h.queued_frames
          rw [hqueued, List.reduceOption_nil] at hframes
          have hcount : t - g.begun = 0 := List.range'_eq_nil_iff.mp hframes.symm
          omega
      | cons o rest =>
          have hhead : d.queued = batchOf n o :: rest.map (batchOf n) := by
            rw [h.queued, hqueued, List.map_cons]
          cases o with
          | none => exact ⟨_, .start hhead (fun w hw => by cases hw)⟩
          | some f =>
              have hframes := h.queued_frames
              rw [hqueued, List.reduceOption_cons_of_some] at hframes
              obtain ⟨rfl, -, -⟩ := List.range'_eq_cons_iff.mp hframes.symm
              exact h.exists_step_of_waiting hbf (by omega) hhead

/-- The device of its own comes to signal the fence that the next frame waits for. -/
theorem signals_fence (h : InSlots n image ⟨t, t, t, t⟩ g d) :
    ∃ d', Relation.ReflTransGen DeviceQueues.Step d d' ∧ d'.fences (t % n) = true := by
  induction hwork : d.work using Nat.strong_induction_on generalizing d g with
  | _ work ih =>
      by_cases hfence : d.fences (t % n) = true
      · exact ⟨d, .refl, hfence⟩
      · rw [Bool.not_eq_true, h.fences] at hfence
        obtain ⟨f, hlo, hhi, -⟩ := hfence
        obtain ⟨d₁, hstep⟩ := h.exists_step (lt_of_le_of_lt hlo hhi)
        obtain ⟨g₁, h₁⟩ := h.step hstep
        obtain ⟨d₂, hrun, hfence⟩ := ih _ (hwork ▸ work_lt_of_step hstep) h₁ rfl
        exact ⟨d₂, hrun.head hstep, hfence⟩

end InSlots

theorem run_device (h : Relation.ReflTransGen DeviceQueues.Step s.device d) :
    ∃ es, Run n s es { s with device := d } := by
  induction h with
  | refl => exact ⟨[], .nil⟩
  | tail _ hstep ih =>
      obtain ⟨es, hrun⟩ := ih
      exact ⟨es ++ [.device], hrun.snoc (.device hstep)⟩

/-- From between two calls of `render` that are synchronised, another call gets its fence. -/
theorem Synchronised.exists_wait (h : Synchronised n s) (hphase : s.phase = .between) :
    ∃ es u, Run n s es u ∧ .answered .waitForFences .success ∈ es := by
  obtain ⟨t, image, g, h⟩ := h
  obtain ⟨device, currentIndex, phase⟩ := s
  obtain rfl : phase = .between := hphase
  obtain rfl : currentIndex = t % n := h.currentIndex
  obtain ⟨d, hdevice, hfence⟩ := h.slots.signals_fence
  obtain ⟨es, hrun⟩ := run_device (n := n) (s := ⟨device, t % n, .between⟩) hdevice
  have hrender := hrun.snoc (.render rfl)
  have hwait := hrender.snoc (@Step.answered n _ .success 0 fun _ => hfence)
  exact ⟨_, _, hwait, List.mem_append_right _ (List.mem_singleton_self _)⟩

/-- As long as the swapchain is not out of date: between two calls of `render`, the next ones wait
for ever exactly when an earlier call failed to acquire an image or to submit its commands. -/
theorem render_waits_forever_iff (hn : n < 2 ^ 32) (hpos : 0 < n) (hrun : Run n created es s)
    (hpresent : ∀ e ∈ es, e.failsToPresent = false) (hphase : s.phase = .between) :
    (∀ es' u, Run n s es' u → .answered .waitForFences .success ∉ es') ↔
      ∃ e ∈ es, e.losesFence = true := by
  obtain ⟨hsync, hkept⟩ | ⟨hstuck, hlost⟩ := synchronised_or_stuck hn hpos hrun hpresent
  · constructor
    · intro hforever
      obtain ⟨es', u, hrun', hmem⟩ := hsync.exists_wait hphase
      exact (hforever es' u hrun' hmem).elim
    · intro ⟨e, he, hlost⟩
      rw [hkept e he] at hlost
      cases hlost
  · exact ⟨fun _ => hlost, fun _ es' u hrun' => (hstuck.run hrun').2⟩

/-- A first call that fails to acquire its image. -/
theorem render_waits_forever_of_error :
    Run 3 created (acquiringEvents ++ [.answered .acquireNextImage .error])
        { acquiring with phase := .between } ∧
      ∀ es' u, Run 3 { acquiring with phase := .between } es' u →
        .answered .waitForFences .success ∉ es' := by
  have hrun : Run 3 created (acquiringEvents ++ [.answered .acquireNextImage .error])
      { acquiring with phase := .between } :=
    run_acquiring.snoc (@Step.answered 3 _ .error 0 ⟨nofun, nofun⟩)
  have hforever := render_waits_forever_iff (by decide) (by decide) hrun (by decide) rfl
  exact ⟨hrun, hforever.mpr ⟨.answered .acquireNextImage .error, by simp, rfl⟩⟩

/-! ### Waiting for an image -/

/-- The images that the program holds: those that it has lost and that of the call. -/
structure Holds (n : ℕ) (es : List FrameEvent) (s : FrameSync) : Prop where
  nodup : s.device.held.Nodup
  lt : ∀ i ∈ s.device.held, i < n
  image : ∀ i ∈ imageOf s.phase, i ∈ s.device.held
  length : s.device.held.length =
    es.countP FrameEvent.losesImage + (imageOf s.phase).toList.length

theorem countP_snoc (p : FrameEvent → Bool) (es : List FrameEvent) (e : FrameEvent) :
    (es ++ [e]).countP p = es.countP p + if p e then 1 else 0 := by
  rw [List.countP_append, List.countP_singleton]

theorem Holds.step (h : Holds n es s) (hstep : Step n s e u) : Holds n (es ++ [e]) u := by
  obtain ⟨hnodup, hlt, himage, hlength⟩ := h
  have hcount := countP_snoc FrameEvent.losesImage es e
  cases hstep with
  | device hd =>
      have hheld := held_of_step hd
      rw [← hheld] at hnodup hlt himage hlength
      exact ⟨hnodup, hlt, himage, hlength.trans (congrArg (· + _) hcount.symm)⟩
  | render hphase =>
      rw [hphase] at hlength
      exact ⟨hnodup, hlt, fun i hi => (by cases hi), hlength.trans hcount.symm⟩
  | @answered result index hmay =>
      obtain ⟨device, currentIndex, phase⟩ := s
      cases phase with
      | between => exact hmay.elim
      | waitForFences | resetFences | submitUpload i =>
          -- The program gets and loses no image.
          simp only [FrameSync.answer]
          split
          · exact ⟨hnodup, hlt, himage, hlength.trans (congrArg (· + _) hcount.symm)⟩
          · exact ⟨hnodup, hlt, himage, hlength.trans (congrArg (· + _) hcount.symm)⟩
      | waitIdle i =>
          exact ⟨hnodup, hlt, himage, hlength.trans (congrArg (· + _) hcount.symm)⟩
      | acquireNextImage =>
          simp only [FrameSync.answer]
          split
          · rename_i hresult
            obtain ⟨hindex, hfree⟩ := hmay.2 hresult
            refine ⟨List.nodup_cons.mpr ⟨hfree, hnodup⟩, ?_, ?_, ?_⟩
            · exact List.forall_mem_cons.mpr ⟨hindex, hlt⟩
            · intro i hi
              cases hi
              exact List.mem_cons_self
            · rw [hcount]
              exact congrArg (· + 1) hlength
          · exact ⟨hnodup, hlt, himage, hlength.trans hcount.symm⟩
      | queueSubmit i =>
          simp only [FrameSync.answer]
          split
          · rename_i hresult
            subst hresult
            exact ⟨hnodup, hlt, himage, hlength.trans (congrArg (· + _) hcount.symm)⟩
          · rename_i hresult
            have hevent : FrameEvent.losesImage (.answered (.queueSubmit i) result) = true := by
              rw [FrameEvent.losesImage, FrameEvent.failsToSubmit, decide_eq_true hresult]
              rfl
            rw [if_pos hevent] at hcount
            exact ⟨hnodup, hlt, fun i hi => (by cases hi), hlength.trans hcount.symm⟩
      | queuePresent i k =>
          have hmem : i ∈ device.held := himage i rfl
          simp only [FrameSync.answer]
          split
          · rename_i hresult
            have hevent : FrameEvent.losesImage (.answered (.queuePresent i k) result) = false := by
              rw [FrameEvent.losesImage, FrameEvent.failsToPresent, hresult]
              rfl
            rw [hevent] at hcount
            refine ⟨hnodup.erase i, ?_, fun i hi => (by cases hi), ?_⟩
            · intro j hj
              exact hlt j (List.mem_of_mem_erase hj)
            · simp only [DeviceQueues.present]
              rw [List.length_erase_of_mem hmem, hlength, hcount]
              rfl
          · rename_i hresult
            have hevent : FrameEvent.losesImage (.answered (.queuePresent i k) result) = true := by
              rw [FrameEvent.losesImage, FrameEvent.failsToPresent, Bool.eq_false_iff.mpr hresult]
              rfl
            rw [if_pos hevent] at hcount
            exact ⟨hnodup, hlt, fun i hi => (by cases hi), hlength.trans hcount.symm⟩

theorem holds_of_run (hrun : Run n created es s) : Holds n es s := by
  induction hrun with
  | nil => exact ⟨List.nodup_nil, List.forall_mem_nil _, fun i hi => (by cases hi), rfl⟩
  | snoc _ hstep ih => exact ih.step hstep

/-- As long as the swapchain is not out of date: the call that acquires an image waits for ever
exactly when as many images have been lost as there are. -/
theorem can_acquire_iff (hrun : Run n created es s) (hphase : s.phase = .acquireNextImage) :
    (∃ result index, result.hasImage ∧ s.MayAnswer n result index) ↔
      es.countP FrameEvent.losesImage < n := by
  have h := holds_of_run hrun
  have hlength : s.device.held.length = es.countP FrameEvent.losesImage := by
    rw [h.length, hphase]
    rfl
  rw [← hlength]
  constructor
  · intro ⟨result, index, hresult, hmay⟩
    obtain ⟨device, currentIndex, phase⟩ := s
    obtain rfl : phase = .acquireNextImage := hphase
    obtain ⟨hindex, hfree⟩ := hmay.2 hresult
    have hcons : (index :: device.held).Nodup := List.nodup_cons.mpr ⟨hfree, h.nodup⟩
    have hsub : (index :: device.held) ⊆ List.range n := by
      intro i hi
      rw [List.mem_range]
      obtain rfl | hi := List.mem_cons.mp hi
      · exact hindex
      · exact h.lt i hi
    have hle := (hcons.subperm hsub).length_le
    rw [List.length_cons, List.length_range] at hle
    exact hle
  · intro hlt
    have hfree : ∃ index < n, index ∉ s.device.held := by
      by_contra hall
      have hsub : List.range n ⊆ s.device.held := by
        intro i hi
        by_contra hnot
        exact hall ⟨i, List.mem_range.mp hi, hnot⟩
      have hle := (List.nodup_range.subperm hsub).length_le
      rw [List.length_range] at hle
      omega
    obtain ⟨index, hindex, hnot⟩ := hfree
    refine ⟨.success, index, rfl, ?_⟩
    rw [MayAnswer, hphase]
    exact ⟨nofun, fun _ => ⟨hindex, hnot⟩⟩

theorem can_acquire_first :
    ∃ result index, result.hasImage ∧ acquiring.MayAnswer 3 result index :=
  (can_acquire_iff run_acquiring rfl).mpr (by decide)

/-! ### The upload of the camera texture -/

/-- The device has no upload left, unless `render` waits for it. -/
def UploadsDone (s : FrameSync) : Prop :=
  (∃ i, s.phase = .waitIdle i) ∨ ∀ b ∈ s.device.running ++ s.device.queued, b ≠ {}

theorem UploadsDone.step (h : UploadsDone s) (hstep : Step n s e u)
    (hwait : e.failsToWait = false) : UploadsDone u := by
  cases hstep with
  | device hd =>
      obtain hphase | hdone := h
      · exact Or.inl hphase
      · exact Or.inr fun b hb => hdone b (mem_of_step hd hb)
  | render hphase =>
      obtain ⟨i, hi⟩ | hdone := h
      · rw [hphase] at hi
        cases hi
      · exact Or.inr hdone
  | @answered result index hmay =>
      obtain ⟨device, currentIndex, phase⟩ := s
      have hdone : (¬ ∃ i, phase = .waitIdle i) →
          ∀ b ∈ device.running ++ device.queued, b ≠ {} := h.resolve_left
      cases phase with
      | between => exact hmay.elim
      | waitForFences | resetFences | acquireNextImage | queuePresent =>
          simp only [FrameSync.answer]
          split
          · exact Or.inr (hdone (by simp))
          · exact Or.inr (hdone (by simp))
      | submitUpload i =>
          simp only [FrameSync.answer]
          split
          · exact Or.inl ⟨i, rfl⟩
          · exact Or.inr (hdone (by simp))
      | waitIdle i =>
          have hresult : result = .success := by
            simpa only [FrameEvent.failsToWait, ne_eq, decide_eq_false_iff_not,
              Decidable.not_not] using hwait
          obtain ⟨hqueued, hrunning⟩ := hmay hresult
          right
          simp only [FrameSync.answer]
          rw [hqueued, hrunning]
          exact List.forall_mem_nil _
      | queueSubmit i =>
          simp only [FrameSync.answer]
          split
          · right
            intro b hb
            rw [submit, ← List.append_assoc] at hb
            obtain hb | hb := List.mem_append.mp hb
            · exact hdone (by simp) b hb
            · rw [List.mem_singleton.mp hb, frameBatch]
              simp
          · exact Or.inr (hdone (by simp))

theorem uploadsDone_of_run (hrun : Run n created es s)
    (hwait : ∀ e ∈ es, e.failsToWait = false) : UploadsDone s := by
  induction hrun with
  | nil => exact Or.inr (List.forall_mem_nil _)
  | snoc _ hstep ih =>
      rw [List.forall_mem_append, List.forall_mem_singleton] at hwait
      exact (ih hwait.1).step hstep hwait.2

/-- As long as the swapchain is not out of date: whenever `render` comes to write the staging buffer
and the one time command buffer, the device has no upload that still reads them. -/
theorem upload_free_of_run {i : ℕ} (hrun : Run n created es s)
    (hwait : ∀ e ∈ es, e.failsToWait = false) (hphase : s.phase = .submitUpload i) :
    ∀ b ∈ s.device.running ++ s.device.queued, b ≠ {} := by
  obtain ⟨j, hj⟩ | hdone := uploadsDone_of_run hrun hwait
  · rw [hphase] at hj
    cases hj
  · exact hdone

theorem upload_free_first :
    Run 3 created (acquiringEvents ++ [.answered .acquireNextImage .success])
        (acquiring.answer 3 .success 0) ∧
      ∀ b ∈ (acquiring.answer 3 .success 0).device.running ++
        (acquiring.answer 3 .success 0).device.queued, b ≠ {} := by
  have hacquire : Run 3 created (acquiringEvents ++ [.answered .acquireNextImage .success])
      (acquiring.answer 3 .success 0) :=
    run_acquiring.snoc (.answered ⟨nofun, fun _ => ⟨by decide, List.not_mem_nil⟩⟩)
  exact ⟨hacquire, upload_free_of_run hacquire (by decide) rfl⟩

/-! ### The batches on the device -/

/-- There is one frame on the device and one upload at most, besides those that failures left
there. -/
structure FewBatches (es : List FrameEvent) (s : FrameSync) : Prop where
  frames : (s.device.running ++ s.device.queued).countP (· ≠ {}) ≤
    es.countP FrameEvent.skipsIdle + if s.phase.submitsFrame then 0 else 1
  uploads : (s.device.running ++ s.device.queued).countP (· = {}) ≤
    es.countP FrameEvent.failsToWait + if s.phase.waitsIdle then 1 else 0

theorem countP_submit (p : Batch FrameSemaphore ℕ → Bool) (b : Batch FrameSemaphore ℕ)
    (d : DeviceQueues FrameSemaphore ℕ ℕ) :
    ((d.submit b).running ++ (d.submit b).queued).countP p =
      (d.running ++ d.queued).countP p + if p b then 1 else 0 := by
  rw [submit, ← List.append_assoc, List.countP_append, List.countP_singleton]

theorem FewBatches.step (h : FewBatches es s) (hstep : Step n s e u) :
    FewBatches (es ++ [e]) u := by
  obtain ⟨hframes, huploads⟩ := h
  constructor
  · rw [countP_snoc]
    cases hstep with
    | device hd => exact (countP_le_of_step _ hd).trans hframes
    | render hphase =>
        rw [hphase] at hframes
        exact hframes
    | @answered result index hmay =>
        obtain ⟨device, currentIndex, phase⟩ := s
        cases phase with
        | between => exact hmay.elim
        | waitForFences | resetFences | acquireNextImage | queuePresent =>
            simp only [FrameSync.answer]
            split
            · exact hframes
            · exact hframes
        | submitUpload i =>
            by_cases hresult : result = .success
            · subst hresult
              simp only [FrameSync.answer, if_pos]
              rw [countP_submit]
              exact hframes
            · simp only [FrameSync.answer, if_neg hresult]
              rw [FrameEvent.skipsIdle, if_pos (decide_eq_true hresult)]
              exact hframes
        | waitIdle i =>
            by_cases hresult : result = .success
            · obtain ⟨hqueued, hrunning⟩ := hmay hresult
              simp only [FrameSync.answer]
              rw [hqueued, hrunning]
              exact Nat.zero_le _
            · rw [FrameEvent.skipsIdle, if_pos (decide_eq_true hresult)]
              exact hframes
        | queueSubmit i =>
            simp only [FrameSync.answer]
            split
            · rw [countP_submit]
              exact Nat.succ_le_succ hframes
            · exact hframes.trans (Nat.le_succ _)
  · rw [countP_snoc]
    cases hstep with
    | device hd => exact (countP_le_of_step _ hd).trans huploads
    | render hphase =>
        rw [hphase] at huploads
        exact huploads
    | @answered result index hmay =>
        obtain ⟨device, currentIndex, phase⟩ := s
        cases phase with
        | between => exact hmay.elim
        | waitForFences | resetFences | acquireNextImage | queuePresent =>
            simp only [FrameSync.answer]
            split
            · exact huploads
            · exact huploads
        | submitUpload i =>
            simp only [FrameSync.answer]
            split
            · rw [countP_submit]
              exact Nat.succ_le_succ huploads
            · exact huploads
        | waitIdle i =>
            by_cases hresult : result = .success
            · obtain ⟨hqueued, hrunning⟩ := hmay hresult
              simp only [FrameSync.answer]
              rw [hqueued, hrunning]
              exact Nat.zero_le _
            · rw [FrameEvent.failsToWait, if_pos (decide_eq_true hresult)]
              exact huploads
        | queueSubmit i =>
            simp only [FrameSync.answer]
            split
            · rw [countP_submit]
              exact huploads
            · exact huploads

/-- As long as the swapchain is not out of date, frames and uploads are left on the device only
behind uploads that were not submitted or not waited for: without these a frame is given to an idle
device, and its upload has at most the frame before beside it. -/
theorem batches_le_of_run (hrun : Run n created es s) :
    (s.device.running ++ s.device.queued).countP (· ≠ {}) ≤
        es.countP FrameEvent.skipsIdle + (if s.phase.submitsFrame then 0 else 1) ∧
      (s.device.running ++ s.device.queued).countP (· = {}) ≤
        es.countP FrameEvent.failsToWait + (if s.phase.waitsIdle then 1 else 0) := by
  have hfew : FewBatches es s := by
    induction hrun with
    | nil => exact ⟨Nat.zero_le _, Nat.zero_le _⟩
    | snoc _ hstep ih => exact ih.step hstep
  exact ⟨hfew.frames, hfew.uploads⟩

theorem batches_le_acquiring :
    Run 3 created acquiringEvents acquiring ∧
      (acquiring.device.running ++ acquiring.device.queued).countP (· ≠ {}) ≤ 1 :=
  ⟨run_acquiring, (batches_le_of_run run_acquiring).1⟩

end ARArch.FrameSync

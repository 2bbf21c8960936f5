import ARArch.ColorData

/-!
# Giving a frame back after rendering

A render node ends by asking for the deletion of its frame, on whichever path. The frame goes on
the path through the renderer, which clears the claim first; on the other paths the claim that the
router made is still there, and `delete_frame` leaves the frame where it is.
-/

namespace ARArch

open Atomic

/-- When the node returns its frame is gone, and `is_rendering` is as it was. -/
def GivesBack (n : RenderNode) (c : CameraId) (s : SeqNo) (w : World) (m : NodeMemory) : Prop :=
  (n.program w c s).Leaves (fun i => NodeMemory.exec i) m (fun _ m' =>
    m'.repo.frame (c, s) = none ∧ m'.isRendering = m.isRendering)

/-- The frame comes to the renderer. -/
def RenderNode.ComesToRender (w : World) (s : SeqNo) (m : NodeMemory) : RenderNode → Prop
  | standard | benchmark => NodeCall.cannotRender w s = false ∧ m.isRendering = false
  | null _ => False

/-- Nothing stops the renderer once it has the frame: the data are given, and the swapchain is not
made anew before an image has been acquired. -/
structure World.LetsRender (w : World) : Prop where
  getEnv : w.getEnv .own = true
  array : w.array .own = true
  acquireNextImage : w.vulkan .acquireNextImage ≠ .outOfDate

/-- The frame is there with its data, claimed by the renderer alone. -/
structure AwaitsRendering (r : Repository) (k : Key) (f : FrameRef) : Prop where
  found : r.getFrame k = some (some f)
  isDetecting : (r.infos f).isDetecting = false
  isTracking : (r.infos f).isTracking = false
  isRendering : (r.infos f).isRendering = true

namespace AwaitsRendering

variable {r : Repository} {k : Key} {f : FrameRef}

theorem frame (h : AwaitsRendering r k f) : r.frame k = some f :=
  (Repository.getFrame_eq_some_some.mp h.found).1

/-- Claimed, the frame stays. -/
theorem deleteFrame (h : AwaitsRendering r k f) : r.deleteFrame k = r := by
  refine Repository.deleteFrame_of_not_lets ?_
  rintro ⟨g, hg, hfree⟩
  rw [h.frame] at hg
  cases hg
  have hclaimed := (FrameInfo.unclaimed_iff _).mp hfree .renderer
  rw [FrameInfo.flag, h.isRendering] at hclaimed
  cases hclaimed

/-- Once the claim is cleared it goes. -/
theorem frame_letGo (h : AwaitsRendering r k f) : (r.letGo .renderer k f).frame k = none := by
  refine Repository.frame_letGo h.frame (fun v hv => ?_)
  cases v with
  | detector => exact h.isDetecting
  | tracker => exact h.isTracking
  | renderer => exact absurd rfl hv

end AwaitsRendering

namespace NodeCall

variable {w : World} {m : NodeMemory} {c : CameraId} {s : SeqNo} {f : FrameRef}

/-- The renderer clears its claim first, and nothing that Vulkan answers touches the repository. -/
theorem leaves_renderFrame (m : NodeMemory) :
    (renderFrame w f).Leaves (fun i => NodeMemory.exec i) m (fun _ m' =>
      m'.repo = m.repo.modifyInfo f (·.setFlag .renderer false)) := by
  have htail : IsAside (if w.vulkan .waitForFences ≠ .success then pure false
      else if w.vulkan .resetFences ≠ .success then pure false
      else if hasSwapchain w .acquireNextImage = false then pure false
      else do
        let _ ← updateCameraTexture w f
        if w.vulkan .acquireNextImage = .outOfDate then do
          perform .crash
          pure false
        else if w.vulkan .queueSubmit ≠ .success then pure false
        else pure (hasSwapchain w .queuePresent)) :=
    .ite (.pure _) (.ite (.pure _) (.ite (.pure _)
      (.bind isAside_updateCameraTexture (fun _ =>
        .ite (.bind (isAside_perform rfl) (fun _ => .pure _)) (.ite (.pure _) (.pure _))))))
  rw [renderFrame, Prog.leaves_bind_of_run (alone_setFlag m f .renderer false)]
  exact (htail _).mono (fun _ m' h => congrArg Prod.fst h)

theorem leaves_render (h : AwaitsRendering m.repo (c, s) f) :
    (render w s c).Leaves (fun i => NodeMemory.exec i) m (fun _ m' =>
      m'.repo.frame (c, s) = none ∧ m'.isRendering = false) := by
  have hget : (call (.getFrame c s)).alone m = some (some f, m) := by
    rw [alone_getFrame, h.found]
    rfl
  rw [render, Prog.leaves_bind_of_run hget]
  change (renderFrame w f >>= _).Leaves _ m _
  rw [Prog.leaves_bind]
  refine (leaves_renderFrame m).mono (fun _ m₁ h₁ => ?_)
  rw [Prog.leaves_bind_of_run (Prog.run_perform _ _ _), Prog.leaves_bind_of_run
    (alone_deleteFrame _ c s), Prog.leaves_pure]
  refine ⟨?_, rfl⟩
  change (m₁.repo.deleteFrame (c, s)).frame (c, s) = none
  rw [h₁]
  exact h.frame_letGo

/-! ### What comes to the renderer returns -/

theorem ends_updateCameraTexture (hw : w.LetsRender) (m : NodeMemory) :
    (updateCameraTexture w f).Ends (fun i => NodeMemory.exec i) m (fun _ _ => True) := by
  have hsettles : (ColorUser.updateCameraTexture f).Settles w m :=
    .inr ⟨.inl (by rw [hw.getEnv, hw.array, Bool.true_and]), .inl hw.getEnv⟩
  exact (balanced_updateCameraTexture_iff m).mpr hsettles |>.mono (fun _ _ _ => trivial)

theorem ends_renderFrame (hw : w.LetsRender) (m : NodeMemory) :
    (renderFrame w f).Ends (fun i => NodeMemory.exec i) m (fun _ _ => True) := by
  rw [renderFrame, Prog.ends_bind_of_run (alone_setFlag m f .renderer false)]
  by_cases hwait : w.vulkan .waitForFences ≠ .success
  · rw [if_pos hwait, Prog.ends_pure]
    trivial
  by_cases hreset : w.vulkan .resetFences ≠ .success
  · rw [if_neg hwait, if_pos hreset, Prog.ends_pure]
    trivial
  by_cases hacquire : hasSwapchain w .acquireNextImage = false
  · rw [if_neg hwait, if_neg hreset, if_pos hacquire, Prog.ends_pure]
    trivial
  rw [if_neg hwait, if_neg hreset, if_neg hacquire, Prog.ends_bind]
  refine (ends_updateCameraTexture hw _).mono (fun _ m₁ _ => ?_)
  rw [if_neg hw.acquireNextImage]
  split_ifs
  · exact Prog.ends_pure.mpr trivial
  · exact Prog.ends_pure.mpr trivial

theorem ends_render (hw : w.LetsRender) (h : AwaitsRendering m.repo (c, s) f) :
    (render w s c).Ends (fun i => NodeMemory.exec i) m (fun _ _ => True) := by
  have hget : (call (.getFrame c s)).alone m = some (some f, m) := by
    rw [alone_getFrame, h.found]
    rfl
  rw [render, Prog.ends_bind_of_run hget]
  change (renderFrame w f >>= _).Ends _ m _
  rw [Prog.ends_bind]
  refine (ends_renderFrame hw m).mono (fun _ m₁ _ => ?_)
  rw [Prog.ends_bind_of_run (Prog.run_perform _ _ _), Prog.ends_bind_of_run
    (alone_deleteFrame _ c s), Prog.ends_pure]
  trivial

theorem alone_exchangeRendering (m : NodeMemory) :
    (perform .exchangeRendering).alone m = some (!m.isRendering, { m with isRendering := true }) :=
  Prog.run_perform _ _ _

/-- Without coming to the renderer a node returns, and the frame is where it was. -/
theorem alone_program_of_not_comesToRender {n : RenderNode}
    (hn : ¬ n.ComesToRender w s m) (h : AwaitsRendering m.repo (c, s) f) :
    (n.program w c s).alone m = some (s, m) := by
  have hdelete : (call (.deleteFrame c s)).alone m = some ((), m) := by
    rw [alone_deleteFrame, h.deleteFrame]
  have hgiveUp : (do
      call (.deleteFrame c s)
      pure s).alone m = some (s, m) := by
    rw [alone_bind, hdelete]
    rfl
  have hbegin {rest : Bool → NodeCall SeqNo} (hrest : rest false = (do
      call (.deleteFrame c s)
      pure s)) (hc : ¬ (cannotRender w s = false ∧ m.isRendering = false)) :
      (if cannotRender w s then (do
        call (.deleteFrame c s)
        pure s) else perform .exchangeRendering >>= rest).alone m = some (s, m) := by
    by_cases hcannot : cannotRender w s = true
    · rw [if_pos hcannot, hgiveUp]
    · have hbusy : m.isRendering = true := by
        by_contra hbusy
        exact hc ⟨Bool.eq_false_of_not_eq_true hcannot, Bool.eq_false_of_not_eq_true hbusy⟩
      rw [if_neg hcannot, alone_bind, alone_exchangeRendering, hbusy]
      change (rest false).alone { m with isRendering := true } = some (s, m)
      rw [← hbusy, hrest, hgiveUp]
  cases n with
  | standard => exact hbegin rfl hn
  | benchmark => exact hbegin rfl hn
  | null mustDelete =>
      cases mustDelete with
      | false => rfl
      | true => exact hgiveUp

/-- In the renderer the frame is given back. -/
theorem leaves_program_of_comesToRender {n : RenderNode} (hn : n.ComesToRender w s m)
    (h : AwaitsRendering m.repo (c, s) f) : GivesBack n c s w m := by
  have hafter : AwaitsRendering ({ m with isRendering := true } : NodeMemory).repo (c, s) f := h
  have hrender {β : Type} (b : β) : (do
      let _ ← render w s c
      pure b).Leaves (fun i => NodeMemory.exec i) { m with isRendering := true } (fun _ m' =>
        m'.repo.frame (c, s) = none ∧ m'.isRendering = false) := by
    rw [Prog.leaves_bind]
    exact (leaves_render hafter).mono (fun _ m' h' => Prog.leaves_pure.mpr h')
  cases n with
  | standard =>
      obtain ⟨hcan, hfree⟩ := hn
      rw [GivesBack, RenderNode.program, tbbRender, hcan, if_neg Bool.false_ne_true,
        Prog.leaves_bind_of_run (alone_exchangeRendering m), hfree]
      exact hrender s
  | benchmark =>
      obtain ⟨hcan, hfree⟩ := hn
      have hget : (call (.getFrame c s)).alone { m with isRendering := true } =
          some (some f, { m with isRendering := true }) := by
        rw [alone_getFrame, hafter.found]
        rfl
      rw [GivesBack, RenderNode.program, tbbBenchmarkRender, hcan, if_neg Bool.false_ne_true,
        Prog.leaves_bind_of_run (alone_exchangeRendering m), hfree]
      exact (Prog.leaves_bind_of_run hget).mpr (hrender s)
  | null mustDelete => exact hn.elim

/-- Unless something stops the renderer the node does return. -/
theorem ends_program_of_comesToRender (hw : w.LetsRender) {n : RenderNode}
    (hn : n.ComesToRender w s m) (h : AwaitsRendering m.repo (c, s) f) :
    (n.program w c s).Ends (fun i => NodeMemory.exec i) m (fun _ m' =>
      m'.repo.frame (c, s) = none ∧ m'.isRendering = m.isRendering) := by
  suffices hend : (n.program w c s).Ends (fun i => NodeMemory.exec i) m (fun _ _ => True) from
    Prog.Leaves.ends (leaves_program_of_comesToRender hn h) hend
  have hafter : AwaitsRendering ({ m with isRendering := true } : NodeMemory).repo (c, s) f := h
  have hrender {β : Type} (b : β) : (do
      let _ ← render w s c
      pure b).Ends (fun i => NodeMemory.exec i) { m with isRendering := true }
        (fun _ _ => True) := by
    rw [Prog.ends_bind]
    exact (ends_render hw hafter).mono (fun _ _ _ => Prog.ends_pure.mpr trivial)
  cases n with
  | standard =>
      obtain ⟨hcan, hfree⟩ := hn
      rw [RenderNode.program, tbbRender, hcan, if_neg Bool.false_ne_true,
        Prog.ends_bind_of_run (alone_exchangeRendering m), hfree]
      exact hrender s
  | benchmark =>
      obtain ⟨hcan, hfree⟩ := hn
      have hget : (call (.getFrame c s)).alone { m with isRendering := true } =
          some (some f, { m with isRendering := true }) := by
        rw [alone_getFrame, hafter.found]
        rfl
      rw [RenderNode.program, tbbBenchmarkRender, hcan, if_neg Bool.false_ne_true,
        Prog.ends_bind_of_run (alone_exchangeRendering m), hfree]
      exact (Prog.ends_bind_of_run hget).mpr (hrender s)
  | null mustDelete => exact hn.elim

end NodeCall

/-- A render node gives its frame back if and only if the frame comes to the renderer. -/
theorem gives_back_iff {c : CameraId} {s : SeqNo} {f : FrameRef} {m : NodeMemory}
    (h : AwaitsRendering m.repo (c, s) f) (n : RenderNode) (w : World) :
    GivesBack n c s w m ↔ n.ComesToRender w s m := by
  constructor
  · intro hback
    by_contra hn
    have hrun := NodeCall.alone_program_of_not_comesToRender hn h
    have hgone := (hback s m hrun).1
    rw [h.frame] at hgone
    cases hgone
  · exact fun hn => NodeCall.leaves_program_of_comesToRender hn h

/-- Frame 7 under number 1 of camera 0, claimed by the renderer. -/
def framesToRender : NodeMemory where
  repo :=
    { cameras := [0]
      seqNumbers := Table.empty.assign 0 1
      cameraFrames := Table.empty.assign 0 (Table.empty.assign 1 7)
      infos := fun _ => { seqno := 1, rgbaLen := 4, isRendering := true } }

theorem framesToRender_awaits : AwaitsRendering framesToRender.repo (0, 1) 7 :=
  ⟨rfl, rfl, rfl, rfl⟩

/-- The call returns, and the frame is gone, although Vulkan refuses everything. -/
theorem gives_back_iff_refused :
    GivesBack .standard 0 1 { vulkan := fun _ => .error } framesToRender ∧
      (RenderNode.standard.program { vulkan := fun _ => .error } 0 1).Ends
        (fun i => NodeMemory.exec i) framesToRender (fun _ m' => m'.repo.frame (0, 1) = none) := by
  have hback := (gives_back_iff framesToRender_awaits .standard
    { vulkan := fun _ => .error }).mpr ⟨rfl, rfl⟩
  have hcomes : RenderNode.standard.ComesToRender { vulkan := fun _ => .error } 1
      framesToRender := ⟨rfl, rfl⟩
  have hend := NodeCall.ends_program_of_comesToRender ⟨rfl, rfl, by decide⟩ hcomes
    framesToRender_awaits
  exact ⟨hback, hend.mono (fun _ _ h => h.1)⟩

/-- It stays when the program is to terminate. -/
theorem tbbRender_keeps_frame :
    AwaitsRendering framesToRender.repo (0, 1) 7 ∧
      ¬ GivesBack .standard 0 1 { mustTerminate := true } framesToRender := by
  refine ⟨framesToRender_awaits, fun h => ?_⟩
  have hgone := (h _ _ rfl).1
  revert hgone
  decide

end ARArch

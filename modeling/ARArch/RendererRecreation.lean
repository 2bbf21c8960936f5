import ARArch.RendererCreation
import ARArch.RendererTeardown

/-!
# Runs of `render` with recreations

`recreate` brings back most of what `destroy(true)` drops, but it records no commands, so that no
state behind a recreation is renderable again. Without one, `render` keeps what `create` has set up
and uses the image that it has acquired.
-/

namespace ARArch.VulkanRenderer

open Attempt Handles

variable {a : RenderAnswers} {answers : DriverAnswers} {p : Platform} {r s t : VulkanRenderer}
  {o : Handles} {index : ℕ}

/-- A call of `render`, or `destroy(true)` and `recreate()`. -/
inductive Call
  | render (a : RenderAnswers)
  | recreate (answers : DriverAnswers)

namespace Call

def after (p : Platform) : Call → VulkanRenderer → VulkanRenderer
  | .render a, r => (VulkanRenderer.render p a r).renderer
  | .recreate answers, r => (VulkanRenderer.recreate answers (destroy p true r)).2

/-- Each call of `recreate` is a successful one. -/
def Successful (p : Platform) : Call → VulkanRenderer → Prop
  | .render _, _ => True
  | .recreate answers, r => (VulkanRenderer.recreate answers (destroy p true r)).1 = true

instance : ∀ (call : Call) (r : VulkanRenderer), Decidable (call.Successful p r)
  | .render _, _ => inferInstanceAs (Decidable True)
  | .recreate _, _ => inferInstanceAs (Decidable (_ = true))

/-- The image is one that `vkAcquireNextImageKHR` has returned. -/
def Acquired (a : RenderAnswers) (index : ℕ) : Prop :=
  (a.acquireNextImage = .success ∨ a.acquireNextImage = .suboptimal) ∧ index = a.imageIndex

/-- What the call uses is live and initialised, and so is the image. -/
def Usable (p : Platform) : Call → VulkanRenderer → Prop
  | .render a, r =>
    Renderable r ∧ ∀ index, (VulkanRenderer.render p a r).submitted = some index → Acquired a index
  | .recreate _, r => Renderable r

end Call

def after (p : Platform) (r : VulkanRenderer) (calls : List Call) : VulkanRenderer :=
  calls.foldl (fun r call => call.after p r) r

def Successful (p : Platform) : VulkanRenderer → List Call → Prop
  | _, [] => True
  | r, call :: calls => call.Successful p r ∧ Successful p (call.after p r) calls

/-- Each call of the run can use what it uses, and so can the next call of `render`. -/
def RunUsable (p : Platform) : VulkanRenderer → List Call → Prop
  | r, [] => Renderable r
  | r, call :: calls => call.Usable p r ∧ RunUsable p (call.after p r) calls

/-- The fence is there, so that `render` gets to the acquisition of an image. -/
structure Reached (a : RenderAnswers) : Prop where
  isFrame : a.isFrame = true
  waitForFences : a.waitForFences = .success
  resetFences : a.resetFences = .success

/-- `VK_ERROR_OUT_OF_DATE_KHR` from one of the two calls that return it. -/
def OutOfDate (a : RenderAnswers) : Prop :=
  Reached a ∧ (a.acquireNextImage = .outOfDate ∨
    a.acquireNextImage ≠ .error ∧ a.queueSubmit = .success ∧ a.queuePresent = .outOfDate)

def Call.Recreates : Call → Prop
  | .render a => OutOfDate a
  | .recreate _ => True

/-! ### Behind a recreation -/

theorem recreated_unrecorded : Unrecorded (recreate answers (destroy p true r)).2 :=
  (recreate_rebuilds _).2 destroyRenderPart_unrecorded

theorem not_renderable_of_unrecorded (hr : Unrecorded r) : ¬Renderable r := by
  intro hrenderable
  have hpos : 0 < r.swapchainLen := Nat.lt_of_le_of_lt (Nat.zero_le _) hrenderable.currentIndex_lt
  obtain ⟨buffer, hget, hbuffer⟩ := hrenderable.commandBuffers 0 hpos
  obtain ⟨used, hused, -⟩ := hbuffer.recorded
  rw [hr buffer (List.mem_of_getElem? hget)] at hused
  cases hused

theorem stageBuffer_rebuilds : Respects Rebuilds (stageBuffer a) := by
  have hcreate : Respects Rebuilds (vmaCreate a.createStagingBuffer
      fun h r => { r with stagingBuffer := h }) :=
    vmaCreate_rebuilds fun _ r => refl_of Rebuilds r
  intro r
  unfold stageBuffer
  dsimp only
  split
  · exact trans_of Rebuilds rebuilds_useAll (hcreate _)
  · exact rebuilds_useAll

theorem updateCameraTexture_rebuilds : Respects Rebuilds (updateCameraTexture a) := by
  refine respects_cons stageBuffer_rebuilds ?_
  refine respects_cons (respects_act fun _ => beginSingleCommand_rebuilds _) ?_
  refine respects_cons (fun _ => rebuilds_useAll) ?_
  refine respects_cons (respects_act fun _ => endSingleCommand_rebuilds _) ?_
  exact respects_nil

theorem useSubmitted_rebuilds : Rebuilds r (r.useSubmitted index) := by
  apply rebuilds_of_objects
  exact ((le_read.trans le_read).trans (le_read.trans le_read)).trans le_useAll

theorem present_unrecorded (h : Unrecorded r ∨ a.queuePresent = .outOfDate) :
    Unrecorded (present p a index r).renderer := by
  unfold present
  cases hpresent : a.queuePresent with
  | outOfDate => exact recreated_unrecorded
  | success | suboptimal | error => exact h.resolve_right (by simp [hpresent])

theorem submit_unrecorded (h : Unrecorded r ∨ a.queueSubmit = .success ∧
    a.queuePresent = .outOfDate) : Unrecorded (submit p a index r).renderer := by
  have hused : Rebuilds r ((updateCameraTexture a r).2.useSubmitted index) :=
    trans_of Rebuilds (updateCameraTexture_rebuilds r) useSubmitted_rebuilds
  unfold submit
  dsimp only
  split
  · exact present_unrecorded (h.imp hused.2 And.right)
  · next hsubmit => exact hused.2 (h.resolve_right fun hout => hsubmit hout.1)

theorem render_unrecorded (ha : OutOfDate a) : Unrecorded (render p a r).renderer := by
  obtain ⟨⟨hframe, hwait, hreset⟩, hout⟩ := ha
  simp only [render, hframe, hwait, hreset, Bool.not_true, Bool.false_eq_true, ne_eq,
    not_true_eq_false, if_false]
  cases hacquire : a.acquireNextImage with
  | success | suboptimal =>
    simp only [hacquire, reduceCtorEq, false_or, ne_eq, not_false_eq_true, true_and] at hout
    exact submit_unrecorded (.inr hout)
  | outOfDate =>
    dsimp only
    split
    · exact submit_unrecorded (.inl recreated_unrecorded)
    · exact recreated_unrecorded
  | error => simp [hacquire] at hout

theorem Call.after_unrecorded {call : Call} (hcall : call.Recreates) :
    Unrecorded (call.after p r) := by
  cases call with
  | render a => exact render_unrecorded hcall
  | recreate answers => exact recreated_unrecorded

theorem RunUsable.renderable {calls : List Call} (hrun : RunUsable p r calls) : Renderable r := by
  cases calls with
  | nil => exact hrun
  | cons call calls =>
    cases call with
    | render a => exact hrun.1.1
    | recreate answers => exact hrun.1

/-! ### Without a recreation -/

/-- The invariant of the calls of `render`. -/
structure Ready (r : VulkanRenderer) : Prop where
  renderable : Renderable r
  bounded : r.objects.Bounded

/-- What holds from before to behind a step of `render` when the renderer is ready. -/
structure Steady (r t : VulkanRenderer) : Prop where
  ready : Ready t
  swapchainLen : t.swapchainLen = r.swapchainLen
  faults : t.objects.faults = r.objects.faults

def Maintains (r t : VulkanRenderer) : Prop := Ready r → Steady r t

instance : Std.Refl Maintains := ⟨fun _ hr => ⟨hr, rfl, rfl⟩⟩

instance : IsTrans VulkanRenderer Maintains where
  trans := by
    intro r s t hrs hst hr
    have hs := hrs hr
    have ht := hst hs.ready
    exact ⟨ht.ready, ht.swapchainLen.trans hs.swapchainLen, ht.faults.trans hs.faults⟩

theorem CommandBufferUsable.of_spares {buffer : CommandBuffer}
    (hb : CommandBufferUsable o buffer) {u : Handles} (hspare : Spares o u) :
    CommandBufferUsable u buffer := by
  obtain ⟨used, hused, hlive⟩ := hb.recorded
  exact ⟨hb.handle.of_spares hspare, used, hused, fun h hh => (hlive h hh).of_spares hspare⟩

/-- `render` assigns no more than these members as long as it recreates nothing. -/
theorem Ready.assign {staging : Option Handle} (hr : Ready r) (hspare : Spares r.objects o)
    (hindex : index < r.swapchainLen) (hstaging : ∀ h, staging = some h → o.Live h) :
    Ready { r with stagingBuffer := staging, currentIndex := index, objects := o } where
  renderable := {
    handles := fun h hh => (hr.renderable.handles h hh).of_spares hspare
    currentIndex_lt := hindex
    cameraFences := hr.renderable.cameraFences.mono fun _ hf => hf.of_spares hspare
    frameAvailableSemaphores :=
      hr.renderable.frameAvailableSemaphores.mono fun _ hs => hs.of_spares hspare
    renderCompleteSemaphores :=
      hr.renderable.renderCompleteSemaphores.mono fun _ hs => hs.of_spares hspare
    commandBuffers := hr.renderable.commandBuffers.mono fun _ hb => hb.of_spares hspare
    framebuffers := hr.renderable.framebuffers.mono fun _ hf => hf.of_spares hspare
    stagingBuffer := hstaging }
  bounded := hr.bounded.of_spares hspare

/-- The single handles that `render` uses. -/
def renderHandles (r : VulkanRenderer) : List (Option Handle) :=
  [r.stagingBuffer, r.device, r.graphicsQueue, r.presentQueue, r.vmaAllocator, r.swapchain,
    r.oneTimeBuffer, r.cameraTextureImage]

theorem Renderable.harmless (hr : Renderable r) {h : Option Handle} (hh : h ∈ r.renderHandles) :
    r.objects.Harmless h := by
  obtain rfl | hmem := List.mem_cons.mp hh
  · exact hr.stagingBuffer
  · apply Usable.harmless
    exact hr.handles h (List.mem_append_left [r.cameraTextureImageView] hmem)

theorem maintains_useAll {hs : List (Option Handle)} (hmem : hs ⊆ r.renderHandles) :
    Maintains r (r.useAll hs) := by
  intro hr
  have huse : r.objects.useAll hs = r.objects :=
    useAll_of_harmless fun h hh => hr.renderable.harmless (hmem hh)
  rw [useAll, huse]
  exact ⟨hr, rfl, rfl⟩

theorem maintains_useOneTimeBuffer : Maintains r (r.use r.oneTimeBuffer) := by
  have hmem : [r.oneTimeBuffer] ⊆ r.renderHandles := by simp [renderHandles]
  exact maintains_useAll hmem

/-- A buffer that could not be created is null. -/
theorem createStagingBuffer_maintains {result : VkResult} : Respects Maintains
    (vmaCreate result fun h r => { r with stagingBuffer := h }) := by
  intro r hr
  have hallocator : r.objects.Usable r.vmaAllocator := hr.renderable.handles _ (by simp)
  have huse : r.objects.use r.vmaAllocator = r.objects := use_of_harmless hallocator.harmless
  unfold vmaCreate vkCreate use newObject
  simp only [huse]
  split
  · refine ⟨?_, rfl, rfl⟩
    apply hr.assign spares_create hr.renderable.currentIndex_lt
    intro h hh
    cases hh
    exact usable_create hr.bounded hallocator
  · refine ⟨?_, rfl, rfl⟩
    apply hr.assign (refl_of Spares _) hr.renderable.currentIndex_lt
    intro h hh
    cases hh

theorem stageBuffer_maintains : Respects Maintains (stageBuffer a) := by
  intro r
  have huse : Maintains r (r.useAll [r.vmaAllocator, r.stagingBuffer]) :=
    maintains_useAll (by simp [renderHandles])
  unfold stageBuffer
  dsimp only
  split
  · exact trans_of Maintains huse (createStagingBuffer_maintains _)
  · exact huse

theorem beginSingleCommand_maintains {c : SingleCommand} :
    Respects Maintains (beginSingleCommand c) := by
  refine respects_cons (fun _ => maintains_useOneTimeBuffer) ?_
  refine respects_cons respects_result ?_
  exact respects_nil

theorem endSingleCommand_maintains {c : SingleCommand} :
    Respects Maintains (endSingleCommand c) := by
  refine respects_cons (fun _ => maintains_useOneTimeBuffer) ?_
  refine respects_cons respects_result ?_
  refine respects_cons (fun _ => maintains_useAll (by simp [renderHandles])) ?_
  refine respects_cons respects_result ?_
  refine respects_cons respects_result ?_
  exact respects_nil

theorem updateCameraTexture_maintains : Respects Maintains (updateCameraTexture a) := by
  refine respects_cons stageBuffer_maintains ?_
  refine respects_cons (respects_act fun _ => beginSingleCommand_maintains _) ?_
  refine respects_cons (fun _ => maintains_useAll (by simp [renderHandles])) ?_
  refine respects_cons (respects_act fun _ => endSingleCommand_maintains _) ?_
  exact respects_nil

theorem useFence_of_ready (hr : Ready r) : r.useFence = r := by
  obtain ⟨fence, hread, hfence⟩ :=
    read_of_filled hr.renderable.cameraFences hr.renderable.currentIndex_lt
  have huse : r.objects.useAll [r.device, fence] = r.objects := by
    apply useAll_of_harmless
    simp only [List.forall_mem_cons]
    exact ⟨hr.renderable.harmless (by simp [renderHandles]), hfence.harmless, List.forall_mem_nil _⟩
  simp only [useFence, hread, huse]

theorem useAcquire_of_ready (hr : Ready r) : r.useAcquire = r := by
  obtain ⟨available, hread, havailable⟩ :=
    read_of_filled hr.renderable.frameAvailableSemaphores hr.renderable.currentIndex_lt
  have huse : r.objects.useAll [r.device, r.swapchain, available] = r.objects := by
    apply useAll_of_harmless
    simp only [List.forall_mem_cons]
    exact ⟨hr.renderable.harmless (by simp [renderHandles]),
      hr.renderable.harmless (by simp [renderHandles]), havailable.harmless, List.forall_mem_nil _⟩
  simp only [useAcquire, hread, huse]

theorem useSubmitted_of_ready (hr : Ready r) (hindex : index < r.swapchainLen) :
    r.useSubmitted index = r := by
  have hlt := hr.renderable.currentIndex_lt
  obtain ⟨complete, hread, hcomplete⟩ := read_of_filled hr.renderable.renderCompleteSemaphores hlt
  obtain ⟨available, hread', havailable⟩ :=
    read_of_filled hr.renderable.frameAvailableSemaphores hlt
  obtain ⟨fence, hread'', hfence⟩ := read_of_filled hr.renderable.cameraFences hlt
  obtain ⟨buffer, hget, hbuffer⟩ := hr.renderable.commandBuffers index hindex
  obtain ⟨used, hused, hlive⟩ := hbuffer.recorded
  have hreadBuffer : r.objects.read (r.commandBuffers.map CommandBuffer.handle) index =
      (buffer.handle, r.objects) := by
    simp only [Handles.read, List.getElem?_map, hget, Option.map_some]
  have huse : r.objects.useAll (r.graphicsQueue :: buffer.handle :: available :: complete ::
      fence :: used) = r.objects := by
    apply useAll_of_harmless
    simp only [List.forall_mem_cons]
    exact ⟨hr.renderable.harmless (by simp [renderHandles]), hbuffer.handle.harmless,
      havailable.harmless, hcomplete.harmless, hfence.harmless, fun h hh => (hlive h hh).harmless⟩
  simp only [useSubmitted, hread, hread', hread'', hreadBuffer, hget, Option.bind_some, hused,
    Option.getD_some, huse]

theorem useSubmitted_ready (hr : Ready r) : Ready (r.useSubmitted index) := by
  have hread : ∀ {o : Handles} {handles handles' : List (Option Handle)} {i j : ℕ},
      Spares o ((o.read handles i).2.read handles' j).2 :=
    trans_of Spares spares_read spares_read
  have hspare : Spares r.objects (r.useSubmitted index).objects :=
    trans_of Spares (trans_of Spares hread hread) spares_useAll
  exact hr.assign hspare hr.renderable.currentIndex_lt
    fun h hh => (hr.renderable.stagingBuffer h hh).of_spares hspare

/-- `current_index` stays below the length, whether its successor has wrapped or not. -/
theorem present_steady (hr : Ready r) (ha : a.queuePresent ≠ .outOfDate) :
    Steady r (present p a index r).renderer := by
  have hlt : uint32 (r.currentIndex + 1) % r.swapchainLen < r.swapchainLen :=
    Nat.mod_lt _ (Nat.lt_of_le_of_lt (Nat.zero_le _) hr.renderable.currentIndex_lt)
  obtain ⟨complete, hread, hcomplete⟩ :=
    read_of_filled hr.renderable.renderCompleteSemaphores hr.renderable.currentIndex_lt
  have huse : r.objects.useAll [r.presentQueue, r.swapchain, complete] = r.objects := by
    apply useAll_of_harmless
    simp only [List.forall_mem_cons]
    exact ⟨hr.renderable.harmless (by simp [renderHandles]),
      hr.renderable.harmless (by simp [renderHandles]), hcomplete.harmless, List.forall_mem_nil _⟩
  have hnext : Steady r
      { r with currentIndex := uint32 (r.currentIndex + 1) % r.swapchainLen } :=
    ⟨hr.assign (refl_of Spares _) hlt hr.renderable.stagingBuffer, rfl, rfl⟩
  unfold present
  simp only [hread, huse]
  cases hpresent : a.queuePresent with
  | success | suboptimal | error => exact hnext
  | outOfDate => exact absurd hpresent ha

theorem submit_ready (hr : Ready r) (ha : a.queueSubmit = .success → a.queuePresent ≠ .outOfDate) :
    Ready (submit p a index r).renderer := by
  have hused : Ready ((updateCameraTexture a r).2.useSubmitted index) :=
    useSubmitted_ready (updateCameraTexture_maintains r hr).ready
  unfold submit
  dsimp only
  split
  · next hsubmit => exact (present_steady hused (ha hsubmit)).ready
  · exact hused

/-- An image of the swapchain has commands, so that nothing destroyed is used for it. -/
theorem submit_steady (hr : Ready r) (ha : a.queueSubmit = .success → a.queuePresent ≠ .outOfDate)
    (hindex : index < r.swapchainLen) : Steady r (submit p a index r).renderer := by
  have hupload := updateCameraTexture_maintains (a := a) r hr
  have hsubmitted : (updateCameraTexture a r).2.useSubmitted index = (updateCameraTexture a r).2 :=
    useSubmitted_of_ready hupload.ready (hupload.swapchainLen ▸ hindex)
  unfold submit
  simp only [hsubmitted]
  split
  · next hsubmit =>
    have hpresent : Steady (updateCameraTexture a r).2
        (present p a index (updateCameraTexture a r).2).renderer :=
      present_steady hupload.ready (ha hsubmit)
    exact ⟨hpresent.ready, hpresent.swapchainLen.trans hupload.swapchainLen,
      hpresent.faults.trans hupload.faults⟩
  · exact hupload

theorem present_submitted : (present p a index r).submitted = some index := by
  unfold present
  cases a.queuePresent <;> rfl

theorem submit_submitted : (submit p a index r).submitted = some index := by
  unfold submit
  dsimp only
  split
  · exact present_submitted
  · rfl

/-- A call of `render` that recreates nothing gives up in front of the submission, or submits the
image that it has acquired. -/
theorem render_cases (hr : Ready r) (ha : ¬OutOfDate a) :
    (render p a r).submitted = none ∧ (render p a r).renderer = r ∨
      render p a r = submit p a a.imageIndex r ∧
        (a.acquireNextImage = .success ∨ a.acquireNextImage = .suboptimal) ∧
        (a.queueSubmit = .success → a.queuePresent ≠ .outOfDate) := by
  have hfence : r.useFence = r := useFence_of_ready hr
  have hacquire : r.useAcquire = r := useAcquire_of_ready hr
  unfold render
  simp only [hfence, hacquire]
  split
  · exact .inl ⟨rfl, rfl⟩
  split
  · exact .inl ⟨rfl, rfl⟩
  split
  · exact .inl ⟨rfl, rfl⟩
  next hframe hwait hreset =>
    have hreached : Reached a := ⟨by simpa using hframe, not_not.mp hwait, not_not.mp hreset⟩
    have hpresent : a.acquireNextImage ≠ .error → a.queueSubmit = .success →
        a.queuePresent ≠ .outOfDate :=
      fun herror hsubmit hout => ha ⟨hreached, .inr ⟨herror, hsubmit, hout⟩⟩
    cases hacquire : a.acquireNextImage with
    | success => exact .inr ⟨rfl, .inl rfl, hpresent (by simp [hacquire])⟩
    | suboptimal => exact .inr ⟨rfl, .inr rfl, hpresent (by simp [hacquire])⟩
    | outOfDate => exact absurd ⟨hreached, .inl hacquire⟩ ha
    | error => exact .inl ⟨rfl, rfl⟩

theorem render_ready (hr : Ready r) (ha : ¬OutOfDate a) : Ready (render p a r).renderer := by
  obtain ⟨-, hrenderer⟩ | ⟨hsubmit, -, hpresent⟩ := render_cases (p := p) hr ha
  · rw [hrenderer]
    exact hr
  · rw [hsubmit]
    exact submit_ready hr hpresent

theorem render_acquired (hr : Ready r) (ha : ¬OutOfDate a) {i : ℕ}
    (hi : (render p a r).submitted = some i) : Call.Acquired a i := by
  obtain ⟨hnone, -⟩ | ⟨hsubmit, hacquire, -⟩ := render_cases (p := p) hr ha
  · rw [hnone] at hi
    cases hi
  · rw [hsubmit, submit_submitted] at hi
    exact ⟨hacquire, (Option.some.inj hi).symm⟩

/-- What is renderable is enough for `render`: it uses nothing null, destroyed or out of bounds. -/
theorem render_steady (hr : Ready r) (ha : ¬OutOfDate a) (himage : a.imageIndex < r.swapchainLen) :
    Steady r (render p a r).renderer := by
  obtain ⟨-, hrenderer⟩ | ⟨hsubmit, -, hpresent⟩ := render_cases (p := p) hr ha
  · rw [hrenderer]
    exact ⟨hr, rfl, rfl⟩
  · rw [hsubmit]
    exact submit_steady hr hpresent himage

/-- The run of such calls, for images of the swapchain. -/
theorem after_steady {frames : List RenderAnswers} (hr : Ready r)
    (hframes : ∀ a ∈ frames, ¬OutOfDate a ∧ a.imageIndex < r.swapchainLen) :
    Steady r (after p r (frames.map .render)) := by
  induction frames generalizing r with
  | nil => exact ⟨hr, rfl, rfl⟩
  | cons a frames ih =>
    rw [List.forall_mem_cons] at hframes
    obtain ⟨⟨ha, himage⟩, hframes⟩ := hframes
    have hfirst := render_steady (p := p) hr ha himage
    have hrest := ih hfirst.ready fun b hb => hfirst.swapchainLen ▸ hframes b hb
    exact ⟨hrest.ready, hrest.swapchainLen.trans hfirst.swapchainLen,
      hrest.faults.trans hfirst.faults⟩

theorem runUsable_of_ready {calls : List Call} (hr : Ready r) :
    RunUsable p r calls ↔ ∀ call ∈ calls, ¬call.Recreates := by
  induction calls generalizing r with
  | nil => exact ⟨fun _ _ hcall => absurd hcall List.not_mem_nil, fun _ => hr.renderable⟩
  | cons call calls ih =>
    rw [List.forall_mem_cons]
    by_cases hcall : call.Recreates
    · constructor
      · intro hrun
        exact absurd hrun.2.renderable (not_renderable_of_unrecorded (Call.after_unrecorded hcall))
      · exact fun h => absurd hcall h.1
    · cases call with
      | recreate answers => exact absurd trivial hcall
      | render a =>
        have husable : (Call.render a).Usable p r :=
          ⟨hr.renderable, fun _ hi => render_acquired hr hcall hi⟩
        exact and_congr (iff_of_true husable hcall) (ih (render_ready hr hcall))

/-- A run stays renderable exactly when it recreates nothing, whatever `recreate` returns. A
swapchain whose length has no successor of 32 bits is not renderable to begin with. -/
theorem runUsable_iff {calls : List Call} (hcreate : (create p answers).Succeeds {} r) :
    RunUsable p r calls ↔
      uint32 answers.imageCount ≠ 2 ^ 32 - 1 ∧ ∀ call ∈ calls, ¬call.Recreates := by
  have hcompleted := create_completed hcreate
  rw [← hcompleted.renderable_iff]
  constructor
  · intro hrun
    exact ⟨hrun.renderable, (runUsable_of_ready ⟨hrun.renderable, hcompleted.bounded⟩).mp hrun⟩
  · intro ⟨hrenderable, hcalls⟩
    exact (runUsable_of_ready ⟨hrenderable, hcompleted.bounded⟩).mpr hcalls

/-- Every call of `render` and of `update_camera_texture` succeeds. -/
def renderAnswersOfSuccess (imageIndex : ℕ) : RenderAnswers where
  isFrame := true
  waitForFences := .success
  resetFences := .success
  acquireNextImage := .success
  imageIndex := imageIndex
  acquireRecreation := answersOfSuccess 3
  mapMemory := .success
  createStagingBuffer := .success
  upload := singleCommandOfSuccess
  queueSubmit := .success
  queuePresent := .success
  presentRecreation := answersOfSuccess 3

theorem created_of_success : (create ⟨false, false⟩ (answersOfSuccess 3)).Succeeds {}
    (create ⟨false, false⟩ (answersOfSuccess 3) {}).2 :=
  succeeds_iff.mpr ⟨by decide +kernel, rfl⟩

theorem rendered_twice_usable :
    RunUsable ⟨false, false⟩ (create ⟨false, false⟩ (answersOfSuccess 3) {}).2
      [.render (renderAnswersOfSuccess 0), .render (renderAnswersOfSuccess 1)] := by
  refine (runUsable_iff created_of_success).mpr ⟨by decide, ?_⟩
  simp [Call.Recreates, OutOfDate, renderAnswersOfSuccess]

/-- A resize of the surface behind the first frame. -/
theorem recreated_not_usable : ∃ r,
    (create ⟨false, false⟩ (answersOfSuccess 3)).Succeeds {} r ∧
      Successful ⟨false, false⟩ r [.render (renderAnswersOfSuccess 0),
        .recreate (answersOfSuccess 3)] ∧
      ¬RunUsable ⟨false, false⟩ r [.render (renderAnswersOfSuccess 0),
        .recreate (answersOfSuccess 3)] := by
  refine ⟨_, created_of_success, ⟨trivial, by decide +kernel, trivial⟩, ?_⟩
  intro hrun
  exact not_renderable_of_unrecorded recreated_unrecorded hrun.2.2

/-- The depth view is missing too, and the staging buffer of the first frame is destroyed. -/
example :
    let r := after ⟨false, false⟩ (create ⟨false, false⟩ (answersOfSuccess 3) {}).2
      [.render (renderAnswersOfSuccess 0), .recreate (answersOfSuccess 3)]
    r.swapchainFramebuffers.map (·.attachments.length) = [1, 1, 1] ∧
      r.stagingBuffer.any (r.objects.Dead ·) ∧ r.currentIndex = 1 := by
  decide +kernel

end ARArch.VulkanRenderer

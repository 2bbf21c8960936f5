import ARArch.DeviceQueues
import ARArch.VulkanRenderer
import Mathlib.Data.List.ReduceOption
import Mathlib.Data.Nat.ModEq

/-!
# The fences and semaphores of `render`

The calls of `VulkanRenderer::render` that order the work of the device, one step each, among the
steps that the device makes of its own. A run ends before an acquisition or a presentation that
answers `VK_ERROR_OUT_OF_DATE_KHR`, after which `render` calls `destroy(true)` and `recreate()`; so
the fences and semaphores are those of `create_command_buffers_and_pool` all along.
-/

namespace ARArch

/-- `frame_available_semaphores[i]` or `render_complete_semaphores[i]`. -/
inductive FrameSemaphore
  | available (i : ℕ)
  | complete (i : ℕ)
  deriving DecidableEq

/-- The call of `render` that is to answer next. -/
inductive RenderPhase
  | between
  | waitForFences
  | resetFences
  | acquireNextImage
  | submitUpload (image : ℕ)
  | waitIdle (image : ℕ)
  | queueSubmit (image : ℕ)
  | queuePresent (image slot : ℕ)
  deriving DecidableEq

namespace RenderPhase

def submitsFrame : RenderPhase → Bool
  | .queueSubmit _ => true
  | _ => false

def waitsIdle : RenderPhase → Bool
  | .waitIdle _ => true
  | _ => false

end RenderPhase

structure FrameSync where
  device : DeviceQueues FrameSemaphore ℕ ℕ
  currentIndex : ℕ
  phase : RenderPhase

inductive FrameEvent
  | device
  | render
  | answered (phase : RenderPhase) (result : VkResult)

def VkResult.hasImage (result : VkResult) : Bool := result = .success || result = .suboptimal

namespace FrameEvent

def failsToAcquire : FrameEvent → Bool
  | .answered .acquireNextImage result => !result.hasImage
  | _ => false

def failsToSubmit : FrameEvent → Bool
  | .answered (.queueSubmit _) result => result ≠ .success
  | _ => false

def failsToPresent : FrameEvent → Bool
  | .answered (.queuePresent _ _) result => !result.hasImage
  | _ => false

/-- `vkQueueWaitIdle` returns before the upload is done. -/
def failsToWait : FrameEvent → Bool
  | .answered (.waitIdle _) result => result ≠ .success
  | _ => false

/-- The upload is not submitted, or not waited for. -/
def skipsIdle : FrameEvent → Bool
  | .answered (.submitUpload _) result => result ≠ .success
  | .answered (.waitIdle _) result => result ≠ .success
  | _ => false

/-- The fence at `current_index` is reset, and nothing is to signal it. -/
def losesFence (e : FrameEvent) : Bool := e.failsToAcquire || e.failsToSubmit

/-- The image is acquired and not presented. -/
def losesImage (e : FrameEvent) : Bool := e.failsToSubmit || e.failsToPresent

end FrameEvent

namespace FrameSync

open RenderPhase DeviceQueues

/-- `submitInfo`, with the fence and the semaphores at `current_index`. -/
def frameBatch (slot : ℕ) : Batch FrameSemaphore ℕ where
  wait := some (.available slot)
  signal := some (.complete slot)
  fence := some slot

/-- What `render` does with the answer to its call. `uploaded` is the answer to the submission of
the one time command buffer in `end_single_command`, or a failure before it. -/
def answer (n : ℕ) (result : VkResult) (index : ℕ) (s : FrameSync) : FrameSync :=
  match s.phase with
  | .between => s
  | .waitForFences =>
    if result = .success then { s with phase := .resetFences } else { s with phase := .between }
  | .resetFences =>
    if result = .success then
      { s with device := s.device.resetFence s.currentIndex, phase := .acquireNextImage }
    else { s with phase := .between }
  | .acquireNextImage =>
    if result.hasImage then
      { s with
        device := s.device.acquire (.available s.currentIndex) index
        phase := .submitUpload index }
    else { s with phase := .between }
  | .submitUpload image =>
    if result = .success then { s with device := s.device.submit {}, phase := .waitIdle image }
    else { s with phase := .queueSubmit image }
  | .waitIdle image => { s with phase := .queueSubmit image }
  | .queueSubmit image =>
    if result = .success then
      { s with
        device := s.device.submit (frameBatch s.currentIndex)
        currentIndex := VulkanRenderer.uint32 (s.currentIndex + 1) % n
        phase := .queuePresent image s.currentIndex }
    else { s with phase := .between }
  | .queuePresent image slot =>
    if result.hasImage then
      { s with device := s.device.present (.complete slot) image, phase := .between }
    else { s with phase := .between }

/-- When the driver may give the answer in a run, the swapchain having `n` images and not being out
of date. -/
def MayAnswer (n : ℕ) (result : VkResult) (index : ℕ) (s : FrameSync) : Prop :=
  match s.phase with
  | .between => False
  | .waitForFences => result = .success → s.device.fences s.currentIndex = true
  | .acquireNextImage => result ≠ .outOfDate ∧ (result.hasImage → index < n ∧ index ∉ s.device.held)
  | .waitIdle _ => result = .success → s.device.idle
  | .queuePresent _ _ => result ≠ .outOfDate
  | _ => True

inductive Step (n : ℕ) : FrameSync → FrameEvent → FrameSync → Prop
  | device {s : FrameSync} {d : DeviceQueues FrameSemaphore ℕ ℕ}
      (h : DeviceQueues.Step s.device d) : Step n s .device { s with device := d }
  | render {s : FrameSync} (h : s.phase = .between) :
      Step n s .render { s with phase := .waitForFences }
  | answered {s : FrameSync} {result : VkResult} {index : ℕ} (h : s.MayAnswer n result index) :
      Step n s (.answered s.phase result) (s.answer n result index)

inductive Run (n : ℕ) (s : FrameSync) : List FrameEvent → FrameSync → Prop
  | nil : Run n s [] s
  | snoc {es : List FrameEvent} {e : FrameEvent} {t u : FrameSync} (h : Run n s es t)
      (he : Step n t e u) : Run n s (es ++ [e]) u

/-- Behind `create`: the fences are created signalled, the semaphores are not. -/
def created : FrameSync where
  device := {
    fences := fun _ => true
    semaphores := fun _ => false
    held := []
    acquires := []
    queued := []
    running := []
    presents := []
    presented := 0
    lastPresent := fun _ => 0 }
  currentIndex := 0
  phase := .between

/-- The rules of the calls that `render` is to make, and of the signal that comes next. -/
def FollowsRules (s : FrameSync) : Prop :=
  (match s.phase with
    | .resetFences => s.device.MayReset s.currentIndex
    | .acquireNextImage => s.device.MayAcquire (.available s.currentIndex)
    | .queueSubmit _ => s.device.MaySubmit (frameBatch s.currentIndex)
    | .queuePresent image slot => s.device.MayPresent (.complete slot) image
    | _ => True) ∧ s.device.MaySignal

/-- What the driver answers to the call, by the answers to the calls of one `render`. -/
def reply (a : RenderAnswers) (uploaded : VkResult) : RenderPhase → VkResult
  | .waitForFences => a.waitForFences
  | .resetFences => a.resetFences
  | .acquireNextImage => a.acquireNextImage
  | .submitUpload _ => uploaded
  | .waitIdle _ => a.upload.queueWaitIdle
  | .queueSubmit _ => a.queueSubmit
  | .queuePresent _ _ => a.queuePresent
  | .between => .success

def call (n : ℕ) (a : RenderAnswers) (uploaded : VkResult) (s : FrameSync) : FrameSync :=
  s.answer n (reply a uploaded s.phase) a.imageIndex

end FrameSync

namespace VulkanRenderer

open Attempt

variable {a : RenderAnswers} {p : Platform} {r t : VulkanRenderer} {index : ℕ}

/-- The slots are as many, and the same is next. -/
def SameSlots (r t : VulkanRenderer) : Prop :=
  t.currentIndex = r.currentIndex ∧ t.swapchainLen = r.swapchainLen

instance : Std.Refl SameSlots := ⟨fun _ => ⟨rfl, rfl⟩⟩

instance : IsTrans VulkanRenderer SameSlots where
  trans := by
    intro r s t ⟨hindex, hlen⟩ ⟨hindex', hlen'⟩
    exact ⟨hindex'.trans hindex, hlen'.trans hlen⟩

theorem stageBuffer_sameSlots : Respects SameSlots (stageBuffer a) := by
  intro r
  unfold stageBuffer vmaCreate vkCreate
  dsimp only
  split
  · split
    · exact ⟨rfl, rfl⟩
    · exact ⟨rfl, rfl⟩
  · exact ⟨rfl, rfl⟩

theorem beginSingleCommand_sameSlots {c : SingleCommand} :
    Respects SameSlots (beginSingleCommand c) := by
  refine respects_cons (respects_act fun _ => ⟨rfl, rfl⟩) ?_
  exact respects_cons respects_result respects_nil

theorem endSingleCommand_sameSlots {c : SingleCommand} :
    Respects SameSlots (endSingleCommand c) := by
  refine respects_cons (respects_act fun _ => ⟨rfl, rfl⟩) ?_
  refine respects_cons respects_result ?_
  refine respects_cons (respects_act fun _ => ⟨rfl, rfl⟩) ?_
  refine respects_cons respects_result ?_
  exact respects_cons respects_result respects_nil

theorem updateCameraTexture_sameSlots : Respects SameSlots (updateCameraTexture a) := by
  refine respects_cons stageBuffer_sameSlots ?_
  refine respects_cons (respects_act fun _ => beginSingleCommand_sameSlots _) ?_
  refine respects_cons (respects_act fun _ => ⟨rfl, rfl⟩) ?_
  refine respects_cons (respects_act fun _ => endSingleCommand_sameSlots _) ?_
  exact respects_nil

theorem submit_currentIndex (hpresent : a.queuePresent ≠ .outOfDate) :
    (submit p a index r).renderer.currentIndex =
      if a.queueSubmit = .success then uint32 (r.currentIndex + 1) % r.swapchainLen
      else r.currentIndex := by
  obtain ⟨hindex, hlen⟩ := updateCameraTexture_sameSlots (a := a) r
  simp only [submit]
  split
  · rw [← hindex, ← hlen]
    cases hresult : a.queuePresent with
    | outOfDate => exact (hpresent hresult).elim
    | success | suboptimal | error => simp only [present, hresult, useSubmitted]
  · exact hindex

end VulkanRenderer

namespace FrameSync

theorem call_iterate_between {n k : ℕ} {a : RenderAnswers} {uploaded : VkResult} {s : FrameSync}
    (h : s.phase = .between) : (call n a uploaded)^[k] s = s := by
  apply Function.iterate_fixed
  unfold call answer
  rw [h]

/-- From the submission of the upload on. -/
theorem call_submit {a : RenderAnswers} {p : Platform} {r : VulkanRenderer} {s : FrameSync}
    {uploaded : VkResult} {index image : ℕ} (hpresent : a.queuePresent ≠ .outOfDate)
    (hphase : s.phase = .submitUpload image) (hindex : s.currentIndex = r.currentIndex) :
    ((call r.swapchainLen a uploaded)^[4] s).phase = .between ∧
      ((call r.swapchainLen a uploaded)^[4] s).currentIndex =
        (VulkanRenderer.submit p a index r).renderer.currentIndex := by
  obtain ⟨device, currentIndex, phase⟩ := s
  obtain rfl : phase = .submitUpload image := hphase
  obtain rfl : currentIndex = r.currentIndex := hindex
  rw [VulkanRenderer.submit_currentIndex hpresent]
  by_cases hupload : uploaded = .success
  · by_cases hsubmit : a.queueSubmit = .success
    · by_cases himage : a.queuePresent.hasImage = true
      · simp [call, answer, reply, hupload, hsubmit, himage]
      · simp [call, answer, reply, hupload, hsubmit, himage]
    · simp [call, answer, reply, hupload, hsubmit]
  · by_cases hsubmit : a.queueSubmit = .success
    · by_cases himage : a.queuePresent.hasImage = true
      · simp [call, answer, reply, hupload, hsubmit, himage]
      · simp [call, answer, reply, hupload, hsubmit, himage]
    · simp [call, answer, reply, hupload, hsubmit]

/-- The calls of one `render`, as `VulkanRenderer.render` makes them. -/
theorem call_render {a : RenderAnswers} {p : Platform} {r : VulkanRenderer} {s : FrameSync}
    {uploaded : VkResult} (hframe : a.isFrame = true) (hacquire : a.acquireNextImage ≠ .outOfDate)
    (hpresent : a.queuePresent ≠ .outOfDate) (hphase : s.phase = .waitForFences)
    (hindex : s.currentIndex = r.currentIndex) :
    ((call r.swapchainLen a uploaded)^[7] s).phase = .between ∧
      ((call r.swapchainLen a uploaded)^[7] s).currentIndex =
        (VulkanRenderer.render p a r).renderer.currentIndex := by
  obtain ⟨device, currentIndex, phase⟩ := s
  obtain rfl : phase = .waitForFences := hphase
  obtain rfl : currentIndex = r.currentIndex := hindex
  let f := call r.swapchainLen a uploaded
  let s : FrameSync := ⟨device, r.currentIndex, .waitForFences⟩
  have hgiven : ∀ k m, f^[k] s = ⟨device, r.currentIndex, .between⟩ → f^[m + k] s = f^[k] s := by
    intro k m hk
    rw [Function.iterate_add_apply]
    exact call_iterate_between (congrArg FrameSync.phase hk)
  change (f^[7] s).phase = .between ∧ (f^[7] s).currentIndex = _
  by_cases hwait : a.waitForFences = .success
  · by_cases hreset : a.resetFences = .success
    · by_cases himage : a.acquireNextImage.hasImage = true
      · have hrender : VulkanRenderer.render p a r =
            VulkanRenderer.submit p a a.imageIndex r.useFence.useAcquire := by
          cases hresult : a.acquireNextImage with
          | success | suboptimal =>
              simp [VulkanRenderer.render, hframe, hwait, hreset, hresult]
          | outOfDate | error =>
              rw [hresult] at himage
              cases himage
        have hsubmit : (f^[3] s).phase = .submitUpload a.imageIndex ∧
            (f^[3] s).currentIndex = r.currentIndex := by
          simp [f, s, call, answer, reply, hwait, hreset, himage]
        rw [hrender, show 7 = 4 + 3 from rfl, Function.iterate_add_apply]
        exact call_submit (r := r.useFence.useAcquire) hpresent hsubmit.1 hsubmit.2
      · have hrender : (VulkanRenderer.render p a r).renderer.currentIndex = r.currentIndex := by
          cases hresult : a.acquireNextImage with
          | success | suboptimal =>
              rw [hresult] at himage
              exact (himage rfl).elim
          | outOfDate => exact (hacquire hresult).elim
          | error =>
              simp [VulkanRenderer.render, hframe, hwait, hreset, hresult,
                VulkanRenderer.useAcquire, VulkanRenderer.useFence]
        have hend : (f^[3] s).phase = .between ∧ (f^[3] s).currentIndex = r.currentIndex := by
          simp [f, s, call, answer, reply, hwait, hreset, himage]
        rw [hrender, show 7 = 4 + 3 from rfl, Function.iterate_add_apply,
          call_iterate_between hend.1]
        exact hend
    · have hend : f^[2] s = ⟨device, r.currentIndex, .between⟩ := by
        simp [f, s, call, answer, reply, hwait, hreset]
      rw [hgiven 2 5 hend, hend]
      simp [VulkanRenderer.render, hframe, hwait, hreset, VulkanRenderer.useFence]
  · have hend : f^[1] s = ⟨device, r.currentIndex, .between⟩ := by
      simp [f, s, call, answer, reply, hwait]
    rw [hgiven 1 6 hend, hend]
    simp [VulkanRenderer.render, hframe, hwait, VulkanRenderer.useFence]

end FrameSync

end ARArch

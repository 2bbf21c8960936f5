import ARArch.VulkanRenderer

/-!
# What the steps of the renderer leave alone

Between its creation of the device and the end of `destroy` the renderer keeps its instance, its
device and its allocator. The steps that `recreate` shares with `create` record no commands.
-/

namespace ARArch.VulkanRenderer

open Attempt

variable {a : DriverAnswers} {p : Platform} {r s t : VulkanRenderer} {o : Handles}
  {h : Option Handle} {hs : List (Option Handle)} {f : VulkanRenderer → VulkanRenderer}

def Keeps (r t : VulkanRenderer) : Prop :=
  r.objects ≤ t.objects ∧ t.vkInstance = r.vkInstance ∧ t.device = r.device ∧
    t.vmaAllocator = r.vmaAllocator

def Unrecorded (r : VulkanRenderer) : Prop := ∀ buffer ∈ r.commandBuffers, buffer.recorded = none

/-- What holds from before to behind a step that records nothing. -/
def Rebuilds (r t : VulkanRenderer) : Prop := Keeps r t ∧ (Unrecorded r → Unrecorded t)

instance : Std.Refl Keeps := ⟨fun r => ⟨le_refl r.objects, rfl, rfl, rfl⟩⟩

instance : IsTrans VulkanRenderer Keeps where
  trans := by
    intro r s t ⟨hle, hinstance, hdevice, hallocator⟩ ⟨hle', hinstance', hdevice', hallocator'⟩
    exact ⟨hle.trans hle', hinstance'.trans hinstance, hdevice'.trans hdevice,
      hallocator'.trans hallocator⟩

instance : Std.Refl Rebuilds := ⟨fun r => ⟨refl_of Keeps r, id⟩⟩

instance : IsTrans VulkanRenderer Rebuilds where
  trans := by
    intro r s t ⟨hkeep, hrec⟩ ⟨hkeep', hrec'⟩
    exact ⟨trans_of Keeps hkeep hkeep', fun hr => hrec' (hrec hr)⟩

theorem rebuilds_of_objects (ho : r.objects ≤ o) : Rebuilds r { r with objects := o } :=
  ⟨⟨ho, rfl, rfl, rfl⟩, id⟩

theorem rebuilds_use : Rebuilds r (r.use h) := rebuilds_of_objects Handles.le_use

theorem rebuilds_newObject : Rebuilds r (r.newObject h).2 :=
  rebuilds_of_objects Handles.le_create

theorem rebuilds_useAll : Rebuilds r (r.useAll hs) := rebuilds_of_objects Handles.le_useAll

theorem rebuilds_vkDestroy : Rebuilds r (r.vkDestroy h) :=
  rebuilds_of_objects (Handles.le_use.trans Handles.le_destroy)

theorem rebuilds_vmaDestroy : Rebuilds r (r.vmaDestroy h) :=
  rebuilds_of_objects (Handles.le_use.trans Handles.le_destroy)

theorem rebuilds_freeCommandBuffer : Rebuilds r (r.freeCommandBuffer h) :=
  rebuilds_of_objects (Handles.le_useAll.trans Handles.le_destroy)

theorem rebuilds_destroyDeviceAndInstance : Rebuilds r r.destroyDeviceAndInstance :=
  rebuilds_of_objects (Handles.le_destroy.trans Handles.le_destroy)

theorem rebuilds_ifPresent (hf : Rebuilds r (f r)) : Rebuilds r (ifPresent hs f r) := by
  unfold ifPresent
  split
  · exact hf
  · exact refl_of Rebuilds r

theorem vkCreate_rebuilds {result : VkResult} {owner : VulkanRenderer → Option Handle}
    {store : Handle → VulkanRenderer → VulkanRenderer} (hstore : ∀ h r, Rebuilds r (store h r)) :
    Respects Rebuilds (vkCreate result owner store) := by
  intro r
  unfold vkCreate
  by_cases hresult : result = .success
  · simp only [if_pos hresult]
    exact trans_of Rebuilds rebuilds_use (trans_of Rebuilds rebuilds_newObject (hstore _ _))
  · simp only [if_neg hresult]
    exact rebuilds_use

theorem vmaCreate_rebuilds {result : VkResult}
    {store : Option Handle → VulkanRenderer → VulkanRenderer}
    (hstore : ∀ h r, Rebuilds r (store h r)) : Respects Rebuilds (vmaCreate result store) := by
  intro r
  have hcreate : Rebuilds (store none r)
      (vkCreate result (·.vmaAllocator) (fun h => store (some h)) (store none r)).2 :=
    vkCreate_rebuilds (fun h => hstore (some h)) _
  exact trans_of Rebuilds (hstore none r) hcreate

theorem unrecorded_set {i : ℕ} (hr : Unrecorded r) :
    Unrecorded { r with commandBuffers := r.commandBuffers.set i { handle := h } } := by
  intro buffer hbuffer
  obtain hmem | rfl := List.mem_or_eq_of_mem_set hbuffer
  · exact hr buffer hmem
  · rfl

theorem unrecorded_resize {n : ℕ} (hr : Unrecorded r) :
    ∀ buffer ∈ resize r.commandBuffers n {}, buffer.recorded = none := by
  intro buffer hbuffer
  obtain hold | hnew := List.mem_append.mp hbuffer
  · exact hr buffer (List.mem_of_mem_take hold)
  · rw [List.eq_of_mem_replicate hnew]

/-! ### The steps of `create` -/

theorem createSwapchain_rebuilds : Respects Rebuilds (createSwapchain a) := by
  refine respects_cons (fun _ => rebuilds_useAll) ?_
  refine respects_cons respects_result ?_
  refine respects_cons respects_result ?_
  refine respects_cons respects_result ?_
  refine respects_cons (vkCreate_rebuilds fun _ r => refl_of Rebuilds r) ?_
  refine respects_cons (respects_act fun r => refl_of Rebuilds r) ?_
  refine respects_cons respects_result ?_
  refine respects_cons respects_check ?_
  exact respects_nil

theorem createRenderPass_rebuilds : Respects Rebuilds (createRenderPass a) :=
  vkCreate_rebuilds fun _ r => refl_of Rebuilds r

theorem getSwapchainImages_rebuilds : Rebuilds r r.getSwapchainImages := by
  apply related_foldl
  intro i _ r
  have hnew : Rebuilds r (r.newObject r.swapchain).2 := rebuilds_newObject
  exact hnew

theorem createView_rebuilds {i : ℕ} : Respects Rebuilds (createView a i) := by
  refine respects_cons (fun r => rebuilds_of_objects (Handles.le_read.trans Handles.le_use)) ?_
  apply respects_cons
  · apply respects_onFailure
    · exact vkCreate_rebuilds fun _ r => refl_of Rebuilds r
    · exact fun _ => rebuilds_destroyDeviceAndInstance
  · exact respects_nil

theorem createFramebuffer_rebuilds {i : ℕ} : Respects Rebuilds (createFramebuffer a i) := by
  refine respects_cons (fun _ => rebuilds_useAll) ?_
  refine respects_cons (vkCreate_rebuilds fun _ r => refl_of Rebuilds r) ?_
  exact respects_nil

theorem createFramebuffers_rebuilds : Respects Rebuilds (createFramebuffers a) := by
  refine respects_cons (respects_act fun r => refl_of Rebuilds r) ?_
  refine respects_cons (fun _ => rebuilds_useAll) ?_
  apply respects_cons
  · exact respects_onFailure respects_result fun _ => rebuilds_destroyDeviceAndInstance
  refine respects_cons (fun _ => getSwapchainImages_rebuilds) ?_
  refine respects_cons (respects_loop fun _ => createView_rebuilds) ?_
  refine respects_cons (respects_act fun r => refl_of Rebuilds r) ?_
  refine respects_cons (respects_loop fun _ => createFramebuffer_rebuilds) ?_
  exact respects_nil

theorem destroyFence_rebuilds : Rebuilds r (destroyFence r h) :=
  trans_of Rebuilds rebuilds_useAll rebuilds_vkDestroy

theorem clearCommandBuffers_rebuilds : Rebuilds r r.clearCommandBuffers := by
  have hfree : Rebuilds r (r.commandBuffers.foldl (fun r c => r.freeCommandBuffer c.handle) r) :=
    related_foldl fun _ _ _ => rebuilds_freeCommandBuffer
  have hclear : Rebuilds r { r.commandBuffers.foldl (fun r c => r.freeCommandBuffer c.handle) r with
      commandBuffers := [] } := ⟨hfree.1, fun _ => List.forall_mem_nil _⟩
  exact trans_of Rebuilds hclear (related_foldl fun _ _ _ => destroyFence_rebuilds)

theorem createFrameObjects_rebuilds {bi : ℕ} : Respects Rebuilds (createFrameObjects a bi) := by
  refine respects_cons (vkCreate_rebuilds fun _ r => refl_of Rebuilds r) ?_
  refine respects_cons (vkCreate_rebuilds fun _ r => refl_of Rebuilds r) ?_
  refine respects_cons (vkCreate_rebuilds fun _ r => refl_of Rebuilds r) ?_
  exact respects_nil

theorem completeCommandBuffer_rebuilds {bi : ℕ} :
    Respects Rebuilds (completeCommandBuffer a bi) := by
  intro r
  unfold completeCommandBuffer
  split
  · exact refl_of Rebuilds r
  · exact createFrameObjects_rebuilds r

theorem createCommandBuffer_rebuilds {bi : ℕ} : Respects Rebuilds (createCommandBuffer a bi) := by
  apply respects_onFailure
  · refine respects_cons (fun _ => rebuilds_use) ?_
    apply respects_cons
    · apply vkCreate_rebuilds
      intro h r
      exact ⟨refl_of Keeps r, unrecorded_set⟩
    refine respects_cons completeCommandBuffer_rebuilds ?_
    exact respects_nil
  · exact fun _ => clearCommandBuffers_rebuilds

theorem createCommandBuffersAndPool_rebuilds :
    Respects Rebuilds (createCommandBuffersAndPool a) := by
  refine respects_cons (vkCreate_rebuilds fun _ r => refl_of Rebuilds r) ?_
  apply respects_cons
  · exact fun r => ⟨refl_of Keeps r, unrecorded_resize⟩
  refine respects_cons (respects_loop fun _ => createCommandBuffer_rebuilds) ?_
  exact respects_nil

theorem createCameraTexDescriptor_rebuilds : Respects Rebuilds (createCameraTexDescriptor a) := by
  refine respects_cons (vkCreate_rebuilds fun _ r => refl_of Rebuilds r) ?_
  refine respects_cons (vkCreate_rebuilds fun _ r => refl_of Rebuilds r) ?_
  refine respects_cons (vkCreate_rebuilds fun _ r => refl_of Rebuilds r) ?_
  refine respects_cons (fun _ => rebuilds_useAll) ?_
  refine respects_cons (vkCreate_rebuilds fun _ r => refl_of Rebuilds r) ?_
  exact respects_nil

theorem updateCameraTextureView_rebuilds : Respects Rebuilds (updateCameraTextureView a) := by
  refine respects_cons (fun _ => rebuilds_ifPresent rebuilds_vkDestroy) ?_
  refine respects_cons (fun _ => rebuilds_use) ?_
  refine respects_cons (vkCreate_rebuilds fun _ r => refl_of Rebuilds r) ?_
  refine respects_cons (fun _ => rebuilds_useAll) ?_
  exact respects_nil

theorem createCameraTexture_rebuilds : Respects Rebuilds (createCameraTexture a) := by
  apply respects_cons
  · intro r
    exact rebuilds_ifPresent rebuilds_vmaDestroy
  refine respects_cons (vmaCreate_rebuilds fun _ r => refl_of Rebuilds r) ?_
  refine respects_cons updateCameraTextureView_rebuilds ?_
  exact respects_nil

theorem loadShader_rebuilds {shader : Shader} : Rebuilds r (loadShader shader r).2 := by
  unfold loadShader
  split
  · dsimp only
    split
    · exact trans_of Rebuilds rebuilds_use rebuilds_newObject
    · exact rebuilds_use
  · exact refl_of Rebuilds r

theorem createPipelineLayout_rebuilds : Respects Rebuilds (createPipelineLayout a) := by
  refine respects_cons (fun _ => rebuilds_use) ?_
  refine respects_cons (vkCreate_rebuilds fun _ r => refl_of Rebuilds r) ?_
  exact respects_nil

theorem createGraphicsPipeline_rebuilds {vertex fragment : Handle} :
    Respects Rebuilds (createGraphicsPipeline a vertex fragment) := by
  refine respects_cons (fun _ => rebuilds_useAll) ?_
  refine respects_cons (vkCreate_rebuilds fun _ r => refl_of Rebuilds r) ?_
  exact respects_nil

theorem createPipeline_rebuilds : Respects Rebuilds (createPipeline a) := by
  intro r
  unfold createPipeline
  have hvertex : Rebuilds r (loadShader a.vertexShader r).2 := loadShader_rebuilds
  match hv : loadShader a.vertexShader r with
  | (none, s) =>
    rw [hv] at hvertex
    exact hvertex
  | (some vertex, s) =>
    rw [hv] at hvertex
    have hfragment : Rebuilds s (loadShader a.fragmentShader s).2 := loadShader_rebuilds
    match hf : loadShader a.fragmentShader s with
    | (none, t) =>
      rw [hf] at hfragment
      simp only [hf]
      exact trans_of Rebuilds hvertex (trans_of Rebuilds hfragment rebuilds_vkDestroy)
    | (some fragment, t) =>
      rw [hf] at hfragment
      simp only [hf]
      have hbuilt : Respects Rebuilds
          (.all [createPipelineLayout a, createGraphicsPipeline a vertex fragment]) :=
        respects_cons createPipelineLayout_rebuilds
          (respects_cons createGraphicsPipeline_rebuilds respects_nil)
      have hall := trans_of Rebuilds (trans_of Rebuilds hvertex hfragment) (hbuilt t)
      exact trans_of Rebuilds hall (trans_of Rebuilds rebuilds_vkDestroy rebuilds_vkDestroy)

theorem recreate_rebuilds : Respects Rebuilds (recreate a) := by
  refine respects_cons createSwapchain_rebuilds ?_
  refine respects_cons createRenderPass_rebuilds ?_
  refine respects_cons createFramebuffers_rebuilds ?_
  refine respects_cons createCommandBuffersAndPool_rebuilds ?_
  refine respects_cons createCameraTexDescriptor_rebuilds ?_
  refine respects_cons createCameraTexture_rebuilds ?_
  refine respects_cons createPipeline_rebuilds ?_
  exact respects_nil

theorem createDepthBuffer_rebuilds : Respects Rebuilds (createDepthBuffer a) := by
  apply respects_onFailure
  · refine respects_cons respects_result ?_
    refine respects_cons (vmaCreate_rebuilds fun _ r => refl_of Rebuilds r) ?_
    refine respects_cons (fun _ => rebuilds_use) ?_
    refine respects_cons (vkCreate_rebuilds fun _ r => refl_of Rebuilds r) ?_
    exact respects_nil
  · exact fun r => refl_of Rebuilds r

theorem beginSingleCommand_rebuilds {c : SingleCommand} :
    Respects Rebuilds (beginSingleCommand c) := by
  refine respects_cons (fun _ => rebuilds_use) ?_
  refine respects_cons respects_result ?_
  exact respects_nil

theorem endSingleCommand_rebuilds {c : SingleCommand} :
    Respects Rebuilds (endSingleCommand c) := by
  refine respects_cons (fun _ => rebuilds_use) ?_
  refine respects_cons respects_result ?_
  refine respects_cons (fun _ => rebuilds_useAll) ?_
  refine respects_cons respects_result ?_
  refine respects_cons respects_result ?_
  exact respects_nil

theorem copyVertices_rebuilds {staging : Handle} : Respects Rebuilds (copyVertices a staging) := by
  refine respects_cons (vmaCreate_rebuilds fun _ r => refl_of Rebuilds r) ?_
  refine respects_cons beginSingleCommand_rebuilds ?_
  refine respects_cons (fun _ => rebuilds_useAll) ?_
  refine respects_cons endSingleCommand_rebuilds ?_
  refine respects_cons (fun _ => rebuilds_vmaDestroy) ?_
  exact respects_nil

theorem createCameraVertexBuffer_rebuilds : Respects Rebuilds (createCameraVertexBuffer a) := by
  intro r
  unfold createCameraVertexBuffer
  dsimp only
  split
  · exact trans_of Rebuilds rebuilds_use (trans_of Rebuilds rebuilds_newObject
      (copyVertices_rebuilds _))
  · exact rebuilds_use

theorem recordCommands_keeps {bi : ℕ} : Respects Keeps (recordCommands a bi) := by
  refine respects_cons ?_ ?_
  · exact fun r => (rebuilds_of_objects (Handles.le_read.trans Handles.le_use)).1
  refine respects_cons respects_result ?_
  refine respects_cons ?_ respects_nil
  intro r
  exact ⟨Handles.le_read.trans Handles.le_useAll, rfl, rfl, rfl⟩

theorem recordDefaultCommands_keeps : Respects Keeps (recordDefaultCommands a) :=
  respects_loop fun _ => recordCommands_keeps

/-- Behind the allocator every step of `create` keeps it, the device and the instance. -/
theorem renderSteps_keeps :
    ∀ step ∈ (renderSteps a).tail, Respects Keeps step := by
  have hmono : ∀ f : Attempt VulkanRenderer, Respects Rebuilds f → Respects Keeps f :=
    fun f hf => hf.mono fun _ _ hrebuild => hrebuild.1
  intro step hstep
  simp only [renderSteps, List.tail_cons, List.mem_cons, List.not_mem_nil, or_false] at hstep
  obtain rfl | rfl | rfl | rfl | rfl | rfl | rfl | rfl | rfl | rfl := hstep
  · exact hmono _ createSwapchain_rebuilds
  · exact hmono _ createDepthBuffer_rebuilds
  · exact hmono _ createRenderPass_rebuilds
  · exact hmono _ createFramebuffers_rebuilds
  · exact hmono _ createCommandBuffersAndPool_rebuilds
  · exact hmono _ createCameraTexDescriptor_rebuilds
  · exact hmono _ createCameraTexture_rebuilds
  · exact hmono _ createCameraVertexBuffer_rebuilds
  · exact hmono _ createPipeline_rebuilds
  · exact recordDefaultCommands_keeps

/-! ### The parts of `destroy` -/

theorem destroyFramebufferAt_rebuilds {i : ℕ} : Rebuilds r (r.destroyFramebufferAt i) := by
  have hdestroy : ∀ (handles : List (Option Handle)) (r : VulkanRenderer),
      Rebuilds r ({ r with objects := (r.objects.read handles i).2 }.vkDestroy
        (r.objects.read handles i).1) := by
    intro handles r
    exact trans_of Rebuilds (rebuilds_of_objects Handles.le_read) rebuilds_vkDestroy
  exact trans_of Rebuilds (trans_of Rebuilds (hdestroy _ _) (hdestroy _ _)) (hdestroy _ _)

theorem destroyFramebuffer_rebuilds : Rebuilds r r.destroyFramebuffer := by
  have hloop : Rebuilds r ((List.range r.swapchainLen).foldl destroyFramebufferAt r) :=
    related_foldl fun _ _ _ => destroyFramebufferAt_rebuilds
  exact hloop

theorem freeCommandBuffers_rebuilds : Rebuilds r r.freeCommandBuffers :=
  related_foldl fun _ _ _ => rebuilds_ifPresent rebuilds_freeCommandBuffer

theorem freeOneTimeBuffer_rebuilds : Rebuilds r r.freeOneTimeBuffer := by
  have hfree : Rebuilds r
      (ifPresent [r.device, r.oneTimeBuffer] (freeCommandBuffer r.oneTimeBuffer) r) :=
    rebuilds_ifPresent rebuilds_freeCommandBuffer
  exact ⟨hfree.1, fun _ => List.forall_mem_nil _⟩

theorem destroyHandles_rebuilds : Rebuilds r r.destroyHandles := by
  apply related_foldl
  intro step hstep r
  simp only [destroyHandleSteps, List.mem_cons, List.not_mem_nil, or_false] at hstep
  obtain rfl | rfl | rfl | rfl | rfl | rfl | rfl | rfl | rfl | rfl | rfl := hstep
  · exact rebuilds_use
  · exact rebuilds_ifPresent (trans_of Rebuilds rebuilds_use rebuilds_vkDestroy)
  · exact rebuilds_ifPresent rebuilds_vkDestroy
  · exact freeCommandBuffers_rebuilds
  · exact rebuilds_ifPresent rebuilds_vmaDestroy
  · exact freeOneTimeBuffer_rebuilds
  · exact rebuilds_ifPresent rebuilds_vkDestroy
  · exact rebuilds_ifPresent rebuilds_vkDestroy
  · exact rebuilds_ifPresent rebuilds_vkDestroy
  · exact rebuilds_ifPresent rebuilds_vkDestroy
  · exact rebuilds_ifPresent rebuilds_vkDestroy

theorem destroySwapchain_rebuilds : Rebuilds r r.destroySwapchain :=
  rebuilds_ifPresent (trans_of Rebuilds rebuilds_use rebuilds_vkDestroy)

theorem destroyCommandPool_rebuilds : Rebuilds r r.destroyCommandPool :=
  rebuilds_ifPresent rebuilds_vkDestroy

theorem clearCommandBuffers_unrecorded : Unrecorded r.clearCommandBuffers := by
  have hfences : ∀ (fences : List (Option Handle)) (s : VulkanRenderer),
      Rebuilds s (fences.foldl destroyFence s) :=
    fun fences s => related_foldl fun _ _ _ => destroyFence_rebuilds
  exact (hfences _ _).2 (List.forall_mem_nil _)

/-- The part of `destroy` behind `clear_command_buffers`. -/
theorem destroyFrames_rebuilds :
    Rebuilds r r.destroyFramebuffer.destroySwapchain.destroyCommandPool := by
  have hswapchain : Rebuilds r r.destroyFramebuffer.destroySwapchain :=
    trans_of Rebuilds destroyFramebuffer_rebuilds destroySwapchain_rebuilds
  exact trans_of Rebuilds hswapchain destroyCommandPool_rebuilds

theorem destroyRenderPart_rebuilds : Rebuilds r r.destroyRenderPart := by
  have hclear : Rebuilds r r.destroyHandles.clearCommandBuffers :=
    trans_of Rebuilds destroyHandles_rebuilds clearCommandBuffers_rebuilds
  exact trans_of Rebuilds hclear destroyFrames_rebuilds

theorem destroyRenderPart_unrecorded : Unrecorded r.destroyRenderPart :=
  destroyFrames_rebuilds.2 clearCommandBuffers_unrecorded

end ARArch.VulkanRenderer

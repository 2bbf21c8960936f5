import ARArch.RendererSteps

/-!
# The renderer behind a successful `create`

Each step that succeeds adds its own handles and destroys no older object, so that all of them live
behind the last step; the commands of each swapchain image are recorded then.
-/

namespace ARArch.VulkanRenderer

open Attempt Handles

variable {a : DriverAnswers} {p : Platform} {r s t : VulkanRenderer} {o : Handles}
  {handles : List (Option Handle)} {i n : ℕ}

/-- A framebuffer that lives with all that the render pass declares. -/
structure FramebufferUsable (objects : Handles) (framebuffer : Framebuffer) : Prop where
  handle : objects.Usable framebuffer.handle
  attachments_length : framebuffer.attachments.length = renderPassAttachments
  attachments : ∀ h ∈ framebuffer.attachments, objects.Usable h

/-- A command buffer that lives with all that its recorded commands use. -/
structure CommandBufferUsable (objects : Handles) (buffer : CommandBuffer) : Prop where
  handle : objects.Usable buffer.handle
  recorded : ∃ used, buffer.recorded = some used ∧ ∀ h ∈ used, objects.Usable h

/-- What the next call of `render` uses is live and initialised as behind `create`. -/
structure Renderable (r : VulkanRenderer) : Prop where
  handles : ∀ h ∈ [r.device, r.graphicsQueue, r.presentQueue, r.vmaAllocator, r.swapchain,
    r.oneTimeBuffer, r.cameraTextureImage, r.cameraTextureImageView], r.objects.Usable h
  currentIndex_lt : r.currentIndex < r.swapchainLen
  cameraFences : Filled r.objects.Usable r.cameraFences r.swapchainLen
  frameAvailableSemaphores : Filled r.objects.Usable r.frameAvailableSemaphores r.swapchainLen
  renderCompleteSemaphores : Filled r.objects.Usable r.renderCompleteSemaphores r.swapchainLen
  commandBuffers : Filled (CommandBufferUsable r.objects) r.commandBuffers r.swapchainLen
  framebuffers : Filled (FramebufferUsable r.objects) r.swapchainFramebuffers r.swapchainLen
  stagingBuffer : ∀ h, r.stagingBuffer = some h → r.objects.Live h

/-! ### The calls of the driver -/

theorem length_resize {α : Type} {xs : List α} {null : α} : (resize xs n null).length = n := by
  rw [resize, List.length_append, List.length_take, List.length_replicate]
  omega

/-- The object that a successful call creates, and what it inherits from its owner. -/
theorem created_of_vkCreate {result : VkResult} {owner : VulkanRenderer → Option Handle}
    {store : Handle → VulkanRenderer → VulkanRenderer}
    (hcreate : (vkCreate result owner store).Succeeds r t)
    (hframe : ∀ o, owner { r with objects := o } = owner r) (hr : r.objects.Bounded)
    (howner : r.objects.Usable (owner r)) : ∃ h o,
      t = store h { r with objects := o } ∧ Spares r.objects o ∧ o.Live h ∧
        r.objects.Inherits h (owner r) := by
  unfold Succeeds vkCreate at hcreate
  dsimp only at hcreate
  split at hcreate
  · have huse : Spares r.objects (r.use (owner r)).objects := spares_use
    have howner' : owner (r.use (owner r)) = owner r := hframe _
    obtain ⟨-, rfl⟩ := Prod.mk.inj hcreate
    refine ⟨_, _, rfl, trans_of Spares huse spares_create, ?_, ?_⟩
    · rw [howner']
      exact usable_create (hr.of_spares huse) (howner.of_spares huse)
    · rw [howner']
      intro id hid hlt
      have hnext : (r.use (owner r)).objects.next = r.objects.next := use_next
      exact inherits_create id hid (hnext ▸ hlt)
  · cases hcreate

theorem succeeds_vkCreate {result : VkResult} {owner : VulkanRenderer → Option Handle}
    {store : Handle → VulkanRenderer → VulkanRenderer}
    (hcreate : (vkCreate result owner store).Succeeds r t)
    (hframe : ∀ o, owner { r with objects := o } = owner r) (hr : r.objects.Bounded)
    (howner : r.objects.Usable (owner r)) : ∃ h o,
      t = store h { r with objects := o } ∧ Spares r.objects o ∧ o.Live h := by
  obtain ⟨h, o, ht, hspare, hlive, -⟩ := created_of_vkCreate hcreate hframe hr howner
  exact ⟨h, o, ht, hspare, hlive⟩

theorem created_of_vmaCreate {result : VkResult}
    {store : Option Handle → VulkanRenderer → VulkanRenderer}
    (hcreate : (vmaCreate result store).Succeeds r t)
    (hstore : ∀ r, (store none r).objects = r.objects ∧
      (store none r).vmaAllocator = r.vmaAllocator)
    (hr : r.objects.Bounded) (howner : r.objects.Usable r.vmaAllocator) : ∃ h o,
      t = store (some h) { store none r with objects := o } ∧ Spares r.objects o ∧ o.Live h ∧
        r.objects.Inherits h r.vmaAllocator := by
  obtain ⟨hobjects, hallocator⟩ := hstore r
  have hr' : (store none r).objects.Bounded := by rwa [hobjects]
  have howner' : (store none r).objects.Usable (store none r).vmaAllocator := by
    rwa [hobjects, hallocator]
  obtain ⟨h, o, rfl, hspare, hlive, hinherit⟩ :=
    created_of_vkCreate hcreate (fun _ => rfl) hr' howner'
  rw [hobjects] at hspare
  rw [hobjects, hallocator] at hinherit
  exact ⟨h, o, rfl, hspare, hlive, hinherit⟩

theorem filled_set_of_spares {h : Handle} {u : Handles} (hfilled : Filled o.Usable handles i)
    (hspare : Spares o u) (hi : i < handles.length) (hlive : u.Live h) :
    Filled u.Usable (handles.set i (some h)) (i + 1) :=
  Filled.set (hfilled.mono fun _ ho => ho.of_spares hspare) hi ⟨h, rfl, hlive⟩

theorem ifPresent_of_none {h : Option Handle} {f : VulkanRenderer → VulkanRenderer}
    (hnone : h = none) : ifPresent [h] f r = r := by
  subst hnone
  rfl

/-! ### The steps -/

theorem createSwapchain_spec (hs : (createSwapchain a).Succeeds r t) (hr : r.objects.Bounded)
    (hdevice : r.objects.Usable r.device) : ∃ h o,
      t = { r with swapchain := some h, swapchainLen := uint32 a.imageCount, objects := o } ∧
        Spares r.objects o ∧ o.Live h ∧ 0 < uint32 a.imageCount := by
  simp only [createSwapchain, succeeds_all_cons, succeeds_all_nil, succeeds_act,
    succeeds_result, succeeds_check] at hs
  obtain ⟨_, rfl, _, ⟨-, rfl⟩, _, ⟨-, rfl⟩, _, ⟨-, rfl⟩, u, hcreate, _, rfl, _, ⟨-, rfl⟩, _,
    ⟨hpos, rfl⟩, rfl⟩ := hs
  have huse : Spares r.objects (r.useAll [r.vkInstance, r.surface]).objects := spares_useAll
  obtain ⟨h, o, rfl, hspare, hlive⟩ := succeeds_vkCreate hcreate (fun _ => rfl)
    (hr.of_spares huse) (hdevice.of_spares huse)
  exact ⟨h, o, rfl, trans_of Spares huse hspare, hlive, of_decide_eq_true hpos⟩

theorem createRenderPass_spec (hs : (createRenderPass a).Succeeds r t) (hr : r.objects.Bounded)
    (hdevice : r.objects.Usable r.device) : ∃ h o,
      t = { r with renderPass := some h, objects := o } ∧ Spares r.objects o ∧ o.Live h :=
  succeeds_vkCreate hs (fun _ => rfl) hr hdevice

theorem createDepthBuffer_spec (hs : (createDepthBuffer a).Succeeds r t) (hr : r.objects.Bounded)
    (hdevice : r.objects.Usable r.device) (hallocator : r.objects.Usable r.vmaAllocator) :
    ∃ image view o, t = { r with
        depthImage := some image, depthImageView := some view, objects := o } ∧
      Spares r.objects o ∧ o.Live view := by
  simp only [createDepthBuffer, succeeds_onFailure, succeeds_all_cons, succeeds_all_nil,
    succeeds_act, succeeds_result] at hs
  obtain ⟨_, ⟨-, rfl⟩, u, himage, _, rfl, v, hview, rfl⟩ := hs
  obtain ⟨image, o, rfl, hspare, -⟩ :=
    created_of_vmaCreate himage (fun _ => ⟨rfl, rfl⟩) hr hallocator
  have huse : Spares r.objects (o.use (some image)) := trans_of Spares hspare spares_use
  obtain ⟨view, u, rfl, hspare', hlive⟩ := succeeds_vkCreate hview (fun _ => rfl)
    (hr.of_spares huse) (hdevice.of_spares huse)
  exact ⟨image, view, u, rfl, trans_of Spares huse hspare', hlive⟩

theorem getSwapchainImages_spec (hs : r.getSwapchainImages = t) : ∃ images o,
    t = { r with swapchainImages := images, objects := o } ∧ Spares r.objects o := by
  subst hs
  refine List.foldlRecOn (motive := fun t => ∃ images o,
    t = { r with swapchainImages := images, objects := o } ∧ Spares r.objects o)
    (List.range r.swapchainLen) getSwapchainImage ?_ ?_
  · exact ⟨_, _, rfl, refl_of Spares _⟩
  · rintro _ ⟨images, o, rfl, hspare⟩ i -
    have hcreate : Spares o (o.create r.swapchain).2 := spares_create
    exact ⟨_, _, rfl, trans_of Spares hspare hcreate⟩

theorem createViews_spec (hs : (upTo (createView a) n).Succeeds r t) (hr : r.objects.Bounded)
    (hdevice : r.objects.Usable r.device) (hlen : r.swapchainViews.length = n) : ∃ views o,
      t = { r with swapchainViews := views, objects := o } ∧ Spares r.objects o ∧
        views.length = n ∧ Filled o.Usable views n := by
  apply upTo_induction (I := fun i u => ∃ views o,
    u = { r with swapchainViews := views, objects := o } ∧ Spares r.objects o ∧
      views.length = n ∧ Filled o.Usable views i) _ _ hs
  · exact ⟨_, _, rfl, refl_of Spares _, hlen, .zero⟩
  · rintro i _ v hi ⟨views, o, rfl, hspare, hlen, hfilled⟩ hview
    simp only [createView, succeeds_onFailure, succeeds_all_cons, succeeds_all_nil,
      succeeds_act] at hview
    obtain ⟨_, rfl, _, hcreate, rfl⟩ := hview
    have huse : Spares r.objects
        ((o.read r.swapchainImages i).2.use (o.read r.swapchainImages i).1) :=
      trans_of Spares hspare (trans_of Spares spares_read spares_use)
    obtain ⟨h, u, rfl, hspare', hlive⟩ := succeeds_vkCreate hcreate (fun _ => rfl)
      (hr.of_spares huse) (hdevice.of_spares huse)
    have hall : Spares o u := trans_of Spares (trans_of Spares spares_read spares_use) hspare'
    refine ⟨views.set i (some h), u, rfl, trans_of Spares hspare hall, ?_, ?_⟩
    · rw [List.length_set, hlen]
    · exact filled_set_of_spares hfilled hall (by omega) hlive

theorem framebufferAttachments_usable (hdepth : r.objects.Usable r.depthImageView)
    (hviews : Filled r.objects.Usable r.swapchainViews n) (hi : i < n) :
    (r.framebufferAttachments i).length = renderPassAttachments ∧
      ∀ h ∈ r.framebufferAttachments i, r.objects.Usable h := by
  obtain ⟨view, hget, hview⟩ := hviews i hi
  obtain ⟨depth, hsome, hlive⟩ := hdepth
  have hattachments : r.framebufferAttachments i = [view, some depth] := by
    simp [framebufferAttachments, hget, hsome]
  rw [hattachments]
  refine ⟨rfl, ?_⟩
  intro h hh
  obtain rfl | rfl : h = view ∨ h = some depth := by simpa using hh
  · exact hview
  · exact ⟨depth, rfl, hlive⟩

theorem FramebufferUsable.of_spares {u : Handles} {framebuffer : Framebuffer}
    (hf : FramebufferUsable o framebuffer) (hspare : Spares o u) :
    FramebufferUsable u framebuffer where
  handle := hf.handle.of_spares hspare
  attachments_length := hf.attachments_length
  attachments h hh := (hf.attachments h hh).of_spares hspare

theorem createFramebufferLoop_spec (hs : (upTo (createFramebuffer a) n).Succeeds r t)
    (hr : r.objects.Bounded) (hdevice : r.objects.Usable r.device)
    (hdepth : r.objects.Usable r.depthImageView)
    (hviews : Filled r.objects.Usable r.swapchainViews n)
    (hlen : r.swapchainFramebuffers.length = n) : ∃ framebuffers o,
      t = { r with swapchainFramebuffers := framebuffers, objects := o } ∧ Spares r.objects o ∧
        framebuffers.length = n ∧ Filled (FramebufferUsable o) framebuffers n := by
  apply upTo_induction (I := fun i u => ∃ framebuffers o,
    u = { r with swapchainFramebuffers := framebuffers, objects := o } ∧ Spares r.objects o ∧
      framebuffers.length = n ∧ Filled (FramebufferUsable o) framebuffers i) _ _ hs
  · exact ⟨_, _, rfl, refl_of Spares _, hlen, .zero⟩
  · rintro i _ v hi ⟨framebuffers, o, rfl, hspare, hlen, hfilled⟩ hcreate
    simp only [createFramebuffer, succeeds_all_cons, succeeds_all_nil, succeeds_act] at hcreate
    obtain ⟨_, rfl, _, hcreate, rfl⟩ := hcreate
    have huse : Spares o (o.useAll (r.renderPass :: r.framebufferAttachments i)) := spares_useAll
    have huse' := trans_of Spares hspare huse
    obtain ⟨h, u, rfl, hspare', hlive⟩ := succeeds_vkCreate hcreate (fun _ => rfl)
      (hr.of_spares huse') (hdevice.of_spares huse')
    have hnew : Spares o u := trans_of Spares huse hspare'
    have hall : Spares r.objects u := trans_of Spares hspare hnew
    obtain ⟨htwo, hattachments⟩ := framebufferAttachments_usable hdepth hviews hi
    refine ⟨framebuffers.set i { handle := some h, attachments := r.framebufferAttachments i }, u,
      rfl, hall, ?_, ?_⟩
    · rw [List.length_set, hlen]
    · apply Filled.set (hfilled.mono fun _ hf => hf.of_spares hnew) (by omega)
      exact ⟨⟨h, rfl, hlive⟩, htwo, fun h hh => (hattachments h hh).of_spares hall⟩

theorem createFramebuffers_spec (hs : (createFramebuffers a).Succeeds r t) (hr : r.objects.Bounded)
    (hdevice : r.objects.Usable r.device) (hdepth : r.objects.Usable r.depthImageView)
    (hn : r.swapchainLen = n) : ∃ images views framebuffers o,
      t = { r with
        swapchainImages := images, swapchainViews := views, swapchainFramebuffers := framebuffers
        objects := o } ∧ Spares r.objects o ∧ Filled (FramebufferUsable o) framebuffers n := by
  subst hn
  simp only [createFramebuffers, succeeds_onFailure, succeeds_all_cons, succeeds_all_nil,
    succeeds_act, succeeds_result] at hs
  obtain ⟨_, rfl, _, rfl, _, ⟨-, rfl⟩, _, himages, v, hviews, _, rfl, w, hframebuffers, rfl⟩ := hs
  have huse : Spares r.objects (r.useAll [r.vkInstance, r.device, r.swapchain]).objects :=
    spares_useAll
  obtain ⟨images, o, rfl, hspare⟩ := getSwapchainImages_spec himages
  have himages' : Spares r.objects o := trans_of Spares huse hspare
  obtain ⟨views, o, rfl, hspare, -, hviews⟩ := createViews_spec hviews (hr.of_spares himages')
    (hdevice.of_spares himages') length_resize
  have hviews' : Spares r.objects o := trans_of Spares himages' hspare
  obtain ⟨framebuffers, o, rfl, hspare, -, hframebuffers⟩ := createFramebufferLoop_spec
    hframebuffers (hr.of_spares hviews') (hdevice.of_spares hviews') (hdepth.of_spares hviews')
    hviews length_resize
  exact ⟨images, views, framebuffers, o, rfl, trans_of Spares hviews' hspare, hframebuffers⟩

theorem createCameraTexDescriptor_spec (hs : (createCameraTexDescriptor a).Succeeds r t)
    (hr : r.objects.Bounded) (hdevice : r.objects.Usable r.device) :
    ∃ sampler layout pool set o, t = { r with
        cameraTextureSampler := some sampler, descriptorSetLayout := some layout
        descriptorPool := some pool, cameraTexDescriptorSet := some set, objects := o } ∧
      Spares r.objects o ∧ o.Live set := by
  simp only [createCameraTexDescriptor, succeeds_all_cons, succeeds_all_nil, succeeds_act] at hs
  obtain ⟨_, hsampler, _, hlayout, _, hpool, _, rfl, _, hset, rfl⟩ := hs
  obtain ⟨sampler, o, rfl, hspare, -⟩ := succeeds_vkCreate hsampler (fun _ => rfl) hr hdevice
  obtain ⟨layout, o, rfl, hspare', -⟩ := succeeds_vkCreate hlayout (fun _ => rfl)
    (hr.of_spares hspare) (hdevice.of_spares hspare)
  have hspare := trans_of Spares hspare hspare'
  obtain ⟨pool, o, rfl, hspare', hpool⟩ := succeeds_vkCreate hpool (fun _ => rfl)
    (hr.of_spares hspare) (hdevice.of_spares hspare)
  have hspare := trans_of Spares hspare hspare'
  have huse : Spares o (o.useAll [r.device, some layout]) := spares_useAll
  have hspare := trans_of Spares hspare huse
  obtain ⟨set, o, rfl, hspare', hset⟩ := succeeds_vkCreate hset (fun _ => rfl)
    (hr.of_spares hspare) ⟨pool, rfl, hpool.of_spares huse⟩
  exact ⟨sampler, layout, pool, set, o, rfl, trans_of Spares hspare hspare', hset⟩

theorem createCameraTexture_spec (hs : (createCameraTexture a).Succeeds r t)
    (hr : r.objects.Bounded) (hdevice : r.objects.Usable r.device)
    (hallocator : r.objects.Usable r.vmaAllocator) (himage : r.cameraTextureImage = none)
    (hview : r.cameraTextureImageView = none) : ∃ image view o,
      t = { r with
        cameraTextureImage := some image, cameraTextureImageView := some view, objects := o } ∧
      Spares r.objects o ∧ o.Live image ∧ o.Live view := by
  simp only [createCameraTexture, updateCameraTextureView, succeeds_all_cons, succeeds_all_nil,
    succeeds_act] at hs
  obtain ⟨_, rfl, _, hcreate, _, ⟨_, rfl, _, rfl, _, hcreate', _, rfl, rfl⟩, rfl⟩ := hs
  rw [ifPresent_of_none himage] at hcreate
  obtain ⟨image, o, rfl, hspare, himage, -⟩ :=
    created_of_vmaCreate hcreate (fun _ => ⟨rfl, rfl⟩) hr hallocator
  rw [ifPresent_of_none hview] at hcreate'
  have huse : Spares o (o.use (some image)) := spares_use
  have hspare := trans_of Spares hspare huse
  obtain ⟨view, u, rfl, hspare', hview⟩ := succeeds_vkCreate hcreate' (fun _ => rfl)
    (hr.of_spares hspare) (hdevice.of_spares hspare)
  have hdescribe : Spares u (u.useAll [r.device, some view, r.cameraTextureSampler,
      r.cameraTexDescriptorSet]) := spares_useAll
  refine ⟨image, view, _, rfl, trans_of Spares hspare (trans_of Spares hspare' hdescribe), ?_, ?_⟩
  · exact ((himage.of_spares huse).of_spares hspare').of_spares hdescribe
  · exact hview.of_spares hdescribe

theorem beginSingleCommand_spec {c : SingleCommand} (hs : (beginSingleCommand c).Succeeds r t) :
    ∃ o, t = { r with objects := o } ∧ Spares r.objects o := by
  simp only [beginSingleCommand, succeeds_all_cons, succeeds_all_nil, succeeds_act,
    succeeds_result] at hs
  obtain ⟨_, rfl, _, ⟨-, rfl⟩, rfl⟩ := hs
  exact ⟨_, rfl, spares_use⟩

theorem endSingleCommand_spec {c : SingleCommand} (hs : (endSingleCommand c).Succeeds r t) :
    ∃ o, t = { r with objects := o } ∧ Spares r.objects o := by
  simp only [endSingleCommand, succeeds_all_cons, succeeds_all_nil, succeeds_act,
    succeeds_result] at hs
  obtain ⟨_, rfl, _, ⟨-, rfl⟩, _, rfl, _, ⟨-, rfl⟩, _, ⟨-, rfl⟩, rfl⟩ := hs
  exact ⟨_, rfl, trans_of Spares spares_use spares_useAll⟩

theorem copyVertices_spec {staging : Handle} {allocated : Handles}
    (hs : (copyVertices a staging).Succeeds r t) (hr : r.objects.Bounded)
    (hallocated : Spares allocated r.objects) (hallocator : allocated.Usable r.vmaAllocator)
    (hnew : allocated.next ≤ staging.id) (hold : staging.id < r.objects.next) : ∃ buffer o,
      t = { r with cameraVertexBuffer := some buffer, objects := o } ∧ Spares allocated o ∧
        o.Live buffer := by
  simp only [copyVertices, succeeds_all_cons, succeeds_all_nil, succeeds_act] at hs
  obtain ⟨_, hcreate, _, hbegin, _, rfl, _, hend, _, rfl, rfl⟩ := hs
  obtain ⟨buffer, o, rfl, hspare, hlive, hinherit⟩ := created_of_vmaCreate hcreate
    (fun _ => ⟨rfl, rfl⟩) hr (hallocator.of_spares hallocated)
  obtain ⟨o₁, rfl, hspareBegin⟩ := beginSingleCommand_spec hbegin
  obtain ⟨o₂, rfl, hspareEnd⟩ := endSingleCommand_spec hend
  have hcopy : Spares o (o₂.use r.vmaAllocator) := trans_of Spares hspareBegin
    (trans_of Spares spares_useAll (trans_of Spares hspareEnd spares_use))
  have hall : Spares r.objects (o₂.use r.vmaAllocator) := trans_of Spares hspare hcopy
  have hlt : staging.id < (o₂.use r.vmaAllocator).next := by
    have hle := hall.next_le
    omega
  refine ⟨buffer, _, rfl, (trans_of Spares hallocated hall).destroy hnew hlt, ?_⟩
  exact (hlive.of_spares hcopy).destroy (hinherit.not_mem hallocator hnew hold)

theorem createCameraVertexBuffer_spec (hs : (createCameraVertexBuffer a).Succeeds r t)
    (hr : r.objects.Bounded) (hallocator : r.objects.Usable r.vmaAllocator) : ∃ buffer o,
      t = { r with cameraVertexBuffer := some buffer, objects := o } ∧ Spares r.objects o ∧
        o.Live buffer := by
  unfold Succeeds createCameraVertexBuffer at hs
  dsimp only at hs
  split at hs
  · have huse : Spares r.objects (r.objects.use r.vmaAllocator) := spares_use
    have hspare : Spares r.objects ((r.objects.use r.vmaAllocator).create r.vmaAllocator).2 :=
      trans_of Spares huse spares_create
    obtain ⟨buffer, o, rfl, hall, hlive⟩ := copyVertices_spec (t := t) hs (hr.of_spares hspare)
      hspare hallocator huse.next_le (Nat.lt_succ_self _)
    exact ⟨buffer, o, rfl, hall, hlive⟩
  · cases hs

theorem loadShader_spec {shader : Shader} {h : Handle} (hs : loadShader shader r = (some h, t)) :
    ∃ o, t = { r with objects := o } ∧ Spares r.objects o ∧ r.objects.next ≤ h.id ∧
      h.id < o.next := by
  unfold loadShader at hs
  dsimp only at hs
  split at hs
  · split at hs
    · have huse : Spares r.objects (r.objects.use r.device) := spares_use
      cases hs
      exact ⟨_, rfl, trans_of Spares huse spares_create, huse.next_le, Nat.lt_succ_self _⟩
    · cases hs
  · cases hs

/-- Both shader modules go behind the pipeline. -/
theorem live_destroyShaders {h vertex fragment : Handle} {device : Option Handle}
    (hlive : o.Live h) (hvertex : vertex.id ∉ h.lineage) (hfragment : fragment.id ∉ h.lineage) :
    (((((o.use device).destroy (some fragment))).use device).destroy (some vertex)).Live h := by
  have hfirst := (hlive.of_spares (spares_use (o := device))).destroy hfragment
  exact (hfirst.of_spares spares_use).destroy hvertex

theorem spares_destroyShaders {u : Handles} {vertex fragment : Handle} {device : Option Handle}
    (hspare : Spares u o) (hvertex : u.next ≤ vertex.id ∧ vertex.id < o.next)
    (hfragment : u.next ≤ fragment.id ∧ fragment.id < o.next) :
    Spares u (((((o.use device).destroy (some fragment))).use device).destroy (some vertex)) := by
  have hnext : (o.use device).next = o.next := use_next
  have hfirst := (trans_of Spares hspare (spares_use (o := device))).destroy hfragment.1
    (by rw [hnext]; exact hfragment.2)
  apply (trans_of Spares hfirst spares_use).destroy hvertex.1
  rw [use_next]
  exact hnext ▸ hvertex.2

theorem createPipelineObjects_spec {vertex fragment : Handle} (hs : (Attempt.all
      [createPipelineLayout a, createGraphicsPipeline a vertex fragment]).Succeeds r t)
    (hr : r.objects.Bounded) (hdevice : r.objects.Usable r.device) :
    ∃ layout pipeline o, t = { r with
        pipelineLayout := some layout, pipeline := some pipeline, objects := o } ∧
      Spares r.objects o ∧ o.Live layout ∧ r.objects.Inherits layout r.device ∧
      o.Live pipeline ∧ r.objects.Inherits pipeline r.device := by
  simp only [createPipelineLayout, createGraphicsPipeline, succeeds_all_cons, succeeds_all_nil,
    succeeds_act] at hs
  obtain ⟨_, ⟨_, rfl, _, hlayout, rfl⟩, _, ⟨_, rfl, _, hpipeline, rfl⟩, rfl⟩ := hs
  have huse : Spares r.objects (r.objects.use r.descriptorSetLayout) := spares_use
  obtain ⟨layout, o, rfl, hspare, hlive, hinherit⟩ := created_of_vkCreate hlayout (fun _ => rfl)
    (hr.of_spares huse) (hdevice.of_spares huse)
  have hspare := trans_of Spares huse hspare
  have huse' : Spares o (o.useAll [some vertex, some fragment, some layout, r.renderPass]) :=
    spares_useAll
  have hboth := trans_of Spares hspare huse'
  obtain ⟨pipeline, u, rfl, hspare', hlive', hinherit'⟩ := created_of_vkCreate hpipeline
    (fun _ => rfl) (hr.of_spares hboth) (hdevice.of_spares hboth)
  refine ⟨layout, pipeline, u, rfl, trans_of Spares hboth hspare', ?_, ?_, hlive', ?_⟩
  · exact (hlive.of_spares huse').of_spares hspare'
  · exact hinherit.mono huse.next_le
  · exact hinherit'.mono hboth.next_le

theorem createPipeline_spec (hs : (createPipeline a).Succeeds r t) (hr : r.objects.Bounded)
    (hdevice : r.objects.Usable r.device) : ∃ layout pipeline o, t = { r with
        pipelineLayout := some layout, pipeline := some pipeline, objects := o } ∧
      Spares r.objects o ∧ o.Live layout ∧ o.Live pipeline := by
  unfold Succeeds createPipeline at hs
  match hvertex : loadShader a.vertexShader r with
  | (none, u) =>
    rw [hvertex] at hs
    cases hs
  | (some vertex, u) =>
    obtain ⟨o₁, rfl, hspare₁, hnew₁, hold₁⟩ := loadShader_spec hvertex
    match hfragment : loadShader a.fragmentShader { r with objects := o₁ } with
    | (none, v) =>
      simp only [hvertex, hfragment] at hs
      cases hs
    | (some fragment, v) =>
      obtain ⟨o₂, rfl, hspare₂, hnew₂, hold₂⟩ := loadShader_spec hfragment
      simp only [hvertex, hfragment] at hs
      obtain ⟨htrue, rfl⟩ := Prod.mk.inj hs
      have hspare := trans_of Spares hspare₁ hspare₂
      obtain ⟨layout, pipeline, o, hbuilt, hspare', hlayout, hinherit, hpipeline, hinherit'⟩ :=
        createPipelineObjects_spec (succeeds_iff.mpr ⟨htrue, rfl⟩) (hr.of_spares hspare)
          (hdevice.of_spares hspare)
      rw [hbuilt]
      have hvertexOld : vertex.id < o₂.next := Nat.lt_of_lt_of_le hold₁ hspare₂.next_le
      have hfragmentNew : r.objects.next ≤ fragment.id := Nat.le_trans hspare₁.next_le hnew₂
      refine ⟨layout, pipeline, _, rfl, ?_, ?_, ?_⟩
      · have hle := hspare'.next_le
        apply spares_destroyShaders (trans_of Spares hspare hspare') ⟨hnew₁, ?_⟩
          ⟨hfragmentNew, ?_⟩
        · exact Nat.lt_of_lt_of_le hvertexOld hle
        · exact Nat.lt_of_lt_of_le hold₂ hle
      · exact live_destroyShaders hlayout (hinherit.not_mem hdevice hnew₁ hvertexOld)
          (hinherit.not_mem hdevice hfragmentNew hold₂)
      · exact live_destroyShaders hpipeline (hinherit'.not_mem hdevice hnew₁ hvertexOld)
          (hinherit'.not_mem hdevice hfragmentNew hold₂)

/-! ### The command buffers -/

/-- What the loop of `create_command_buffers_and_pool` has created in front of its turn `i`. -/
structure BuffersCreated (r : VulkanRenderer) (i : ℕ) (buffers : List CommandBuffer)
    (fences available complete : List (Option Handle)) (oneTime : Option Handle)
    (o : Handles) : Prop where
  spares : Spares r.objects o
  buffers_length : buffers.length = r.commandBuffers.length
  fences_length : fences.length = r.cameraFences.length
  available_length : available.length = r.frameAvailableSemaphores.length
  complete_length : complete.length = r.renderCompleteSemaphores.length
  buffers : Filled (fun buffer => o.Usable buffer.handle) buffers i
  fences : Filled o.Usable fences (min i r.swapchainLen)
  available : Filled o.Usable available (min i r.swapchainLen)
  complete : Filled o.Usable complete (min i r.swapchainLen)
  oneTime : r.swapchainLen < i → o.Usable oneTime

theorem createFrameObjects_spec (hs : (createFrameObjects a i).Succeeds r t)
    (hr : r.objects.Bounded) (hdevice : r.objects.Usable r.device) : ∃ fence available complete o,
      t = { r with
        cameraFences := r.cameraFences.set i (some fence)
        frameAvailableSemaphores := r.frameAvailableSemaphores.set i (some available)
        renderCompleteSemaphores := r.renderCompleteSemaphores.set i (some complete)
        objects := o } ∧ Spares r.objects o ∧ o.Live fence ∧ o.Live available ∧
          o.Live complete := by
  simp only [createFrameObjects, succeeds_all_cons, succeeds_all_nil] at hs
  obtain ⟨_, hfence, _, havailable, _, hcomplete, rfl⟩ := hs
  obtain ⟨fence, o₁, rfl, hspare₁, hfence⟩ := succeeds_vkCreate hfence (fun _ => rfl) hr hdevice
  obtain ⟨available, o₂, rfl, hspare₂, havailable⟩ := succeeds_vkCreate havailable (fun _ => rfl)
    (hr.of_spares hspare₁) (hdevice.of_spares hspare₁)
  have hboth := trans_of Spares hspare₁ hspare₂
  obtain ⟨complete, o₃, rfl, hspare₃, hcomplete⟩ := succeeds_vkCreate hcomplete (fun _ => rfl)
    (hr.of_spares hboth) (hdevice.of_spares hboth)
  refine ⟨fence, available, complete, o₃, rfl, trans_of Spares hboth hspare₃, ?_, ?_, hcomplete⟩
  · exact (hfence.of_spares hspare₂).of_spares hspare₃
  · exact havailable.of_spares hspare₃

/-- The renderer in front of turn `i`. -/
def withBuffers (r : VulkanRenderer) (buffers : List CommandBuffer)
    (fences available complete : List (Option Handle)) (oneTime : Option Handle) (o : Handles) :
    VulkanRenderer :=
  { r with
    commandBuffers := buffers, cameraFences := fences, frameAvailableSemaphores := available
    renderCompleteSemaphores := complete, oneTimeBuffer := oneTime, objects := o }

theorem createCommandBuffer_step {buffers : List CommandBuffer}
    {fences available complete : List (Option Handle)} {oneTime : Option Handle}
    (hs : (createCommandBuffer a i).Succeeds
      (withBuffers r buffers fences available complete oneTime o) t)
    (hr : r.objects.Bounded) (hdevice : r.objects.Usable r.device)
    (hpool : r.objects.Usable r.commandPool) (hi : i < r.commandBuffers.length)
    (hlen : i ≤ r.swapchainLen) (hfences : r.cameraFences.length = r.swapchainLen)
    (havailable : r.frameAvailableSemaphores.length = r.swapchainLen)
    (hcomplete : r.renderCompleteSemaphores.length = r.swapchainLen)
    (hinv : BuffersCreated r i buffers fences available complete oneTime o) :
    ∃ buffers fences available complete oneTime o,
      t = withBuffers r buffers fences available complete oneTime o ∧
        BuffersCreated r (i + 1) buffers fences available complete oneTime o := by
  simp only [createCommandBuffer, succeeds_onFailure, succeeds_all_cons, succeeds_all_nil,
    succeeds_act] at hs
  obtain ⟨_, rfl, _, hallocate, v, hrest, rfl⟩ := hs
  have huse : Spares o (o.use r.device) := spares_use
  have huse' := trans_of Spares hinv.spares huse
  obtain ⟨h, o₁, rfl, hspare, hlive⟩ := succeeds_vkCreate hallocate (fun _ => rfl)
    (hr.of_spares huse') (hpool.of_spares huse')
  have hnew : Spares o o₁ := trans_of Spares huse hspare
  have hall : Spares r.objects o₁ := trans_of Spares hinv.spares hnew
  have hbuffers : Filled (fun buffer => o₁.Usable buffer.handle)
      (buffers.set i { handle := some h }) (i + 1) := by
    apply Filled.set (hinv.buffers.mono fun _ hb => hb.of_spares hnew)
    · rw [hinv.buffers_length]
      exact hi
    · exact ⟨h, rfl, hlive⟩
  unfold Succeeds completeCommandBuffer at hrest
  split at hrest
  case isTrue hlast =>
    have hlast : i = r.swapchainLen := hlast
    have hget : ((buffers.set i { handle := some h })[i]?).bind CommandBuffer.handle = some h := by
      rw [List.getElem?_set_self (by rw [hinv.buffers_length]; exact hi)]
      rfl
    have hmin : min (i + 1) r.swapchainLen = min i r.swapchainLen := by omega
    obtain ⟨-, rfl⟩ := Prod.mk.inj hrest
    refine ⟨buffers.set i { handle := some h }, fences, available, complete, some h, o₁, ?_, ?_⟩
    · exact congrArg (fun oneTime => withBuffers r (buffers.set i { handle := some h }) fences
        available complete oneTime o₁) hget
    · refine ⟨hall, ?_, hinv.fences_length, hinv.available_length, hinv.complete_length, hbuffers,
        ?_, ?_, ?_, fun _ => ⟨h, rfl, hlive⟩⟩
      · rw [List.length_set, hinv.buffers_length]
      · rw [hmin]
        exact hinv.fences.mono fun _ hf => hf.of_spares hnew
      · rw [hmin]
        exact hinv.available.mono fun _ hf => hf.of_spares hnew
      · rw [hmin]
        exact hinv.complete.mono fun _ hf => hf.of_spares hnew
  case isFalse hlast =>
    have hlt : i < r.swapchainLen := Nat.lt_of_le_of_ne hlen hlast
    have hmin : min i r.swapchainLen = i := by omega
    have hmin' : min (i + 1) r.swapchainLen = i + 1 := by omega
    obtain ⟨fence, avail, compl, o₂, rfl, hspare₂, hfence, havail, hcompl⟩ :=
      createFrameObjects_spec hrest (hr.of_spares hall) (hdevice.of_spares hall)
    have hnew₂ : Spares o o₂ := trans_of Spares hnew hspare₂
    refine ⟨buffers.set i { handle := some h }, fences.set i (some fence),
      available.set i (some avail), complete.set i (some compl), oneTime, o₂, rfl, ?_⟩
    refine ⟨trans_of Spares hall hspare₂, ?_, ?_, ?_, ?_, ?_, ?_, ?_, ?_, ?_⟩
    · rw [List.length_set, hinv.buffers_length]
    · rw [List.length_set, hinv.fences_length]
    · rw [List.length_set, hinv.available_length]
    · rw [List.length_set, hinv.complete_length]
    · exact hbuffers.mono fun _ hb => hb.of_spares hspare₂
    · rw [hmin']
      exact filled_set_of_spares (hmin ▸ hinv.fences) hnew₂ (by rw [hinv.fences_length]; omega)
        hfence
    · rw [hmin']
      exact filled_set_of_spares (hmin ▸ hinv.available) hnew₂
        (by rw [hinv.available_length]; omega) havail
    · rw [hmin']
      exact filled_set_of_spares (hmin ▸ hinv.complete) hnew₂
        (by rw [hinv.complete_length]; omega) hcompl
    · omega

theorem uint32_le : uint32 n ≤ n := Nat.mod_le n (2 ^ 32)

/-- The loop, from a state whose vectors have their sizes. -/
theorem createCommandBufferLoop_spec (hs : (upTo (createCommandBuffer a) n).Succeeds r t)
    (hr : r.objects.Bounded) (hdevice : r.objects.Usable r.device)
    (hpool : r.objects.Usable r.commandPool) (hbuffers : r.commandBuffers.length = n)
    (hlen : n ≤ r.swapchainLen + 1) (hfences : r.cameraFences.length = r.swapchainLen)
    (havailable : r.frameAvailableSemaphores.length = r.swapchainLen)
    (hcomplete : r.renderCompleteSemaphores.length = r.swapchainLen) :
    ∃ buffers fences available complete oneTime o,
      t = withBuffers r buffers fences available complete oneTime o ∧
        BuffersCreated r n buffers fences available complete oneTime o := by
  apply upTo_induction (I := fun i u => ∃ buffers fences available complete oneTime o,
    u = withBuffers r buffers fences available complete oneTime o ∧
      BuffersCreated r i buffers fences available complete oneTime o) _ _ hs
  · refine ⟨r.commandBuffers, r.cameraFences, r.frameAvailableSemaphores,
      r.renderCompleteSemaphores, r.oneTimeBuffer, r.objects, rfl, ?_⟩
    refine ⟨refl_of Spares _, rfl, rfl, rfl, rfl, .zero, ?_, ?_, ?_, by omega⟩
    all_goals
      rw [Nat.zero_min]
      exact .zero
  · rintro i _ v hi ⟨buffers, fences, available, complete, oneTime, o, rfl, hinv⟩ hstep
    exact createCommandBuffer_step hstep hr hdevice hpool (by omega) (by omega) hfences havailable
      hcomplete hinv

theorem createCommandBuffersAndPool_spec (hs : (createCommandBuffersAndPool a).Succeeds r t)
    (hr : r.objects.Bounded) (hdevice : r.objects.Usable r.device) (hn : r.swapchainLen = n) :
    ∃ pool buffers fences available complete oneTime o,
      t = withBuffers { r with commandPool := some pool } buffers fences available complete
        oneTime o ∧
      Spares r.objects o ∧ buffers.length = uint32 (n + 1) ∧ (n < buffers.length →
        Filled (fun buffer => o.Usable buffer.handle) buffers n ∧
        Filled o.Usable fences n ∧ Filled o.Usable available n ∧ Filled o.Usable complete n ∧
        o.Usable oneTime) := by
  subst hn
  simp only [createCommandBuffersAndPool, succeeds_all_cons, succeeds_all_nil, succeeds_act] at hs
  obtain ⟨_, hpool, _, rfl, _, hloop, rfl⟩ := hs
  obtain ⟨pool, o, rfl, hspare, hlive⟩ := succeeds_vkCreate hpool (fun _ => rfl) hr hdevice
  obtain ⟨buffers, fences, available, complete, oneTime, u, rfl, hcreated⟩ :=
    createCommandBufferLoop_spec hloop (hr.of_spares hspare) (hdevice.of_spares hspare)
      ⟨pool, rfl, hlive⟩ length_resize uint32_le length_resize length_resize length_resize
  have hlen : buffers.length = uint32 (r.swapchainLen + 1) :=
    hcreated.buffers_length.trans length_resize
  refine ⟨pool, buffers, fences, available, complete, oneTime, u, rfl,
    trans_of Spares hspare hcreated.spares, hlen, ?_⟩
  intro hlt
  rw [hlen] at hlt
  have hmin : r.swapchainLen ≤ min (uint32 (r.swapchainLen + 1)) r.swapchainLen :=
    Nat.le_min.mpr ⟨Nat.le_of_lt hlt, Nat.le_refl _⟩
  exact ⟨hcreated.buffers.of_le (Nat.le_of_lt hlt), hcreated.fences.of_le hmin,
    hcreated.available.of_le hmin, hcreated.complete.of_le hmin, hcreated.oneTime hlt⟩

/-! ### The recorded commands -/

/-- The turns in front of `i` have recorded their buffers, the others are as they were. -/
structure Recorded (old : List CommandBuffer) (used : ℕ → List (Option Handle)) (i : ℕ)
    (buffers : List CommandBuffer) : Prop where
  length : buffers.length = old.length
  below : ∀ j < i, buffers[j]? = (old[j]?).map
    fun buffer => { buffer with recorded := some (used j) }
  above : ∀ j, i ≤ j → buffers[j]? = old[j]?

variable {buffers old : List CommandBuffer} {used : ℕ → List (Option Handle)}

theorem Recorded.modify (hrecorded : Recorded old used i buffers) :
    Recorded old used (i + 1) (buffers.modify i fun buffer =>
      { buffer with recorded := some (used i) }) where
  length := by rw [List.length_modify, hrecorded.length]
  below := by
    intro j hj
    by_cases hij : i = j
    · subst hij
      rw [List.getElem?_modify_eq, hrecorded.above i (Nat.le_refl i)]
      rfl
    · rw [List.getElem?_modify_ne _ _ hij]
      exact hrecorded.below j (by omega)
  above := by
    intro j hj
    rw [List.getElem?_modify_ne _ _ (by omega)]
    exact hrecorded.above j (by omega)

theorem Recorded.filled (hrecorded : Recorded old used n buffers)
    (hold : Filled (fun buffer => o.Usable buffer.handle) old n)
    (hused : ∀ i < n, ∀ h ∈ used i, o.Usable h) : Filled (CommandBufferUsable o) buffers n := by
  intro i hi
  obtain ⟨buffer, hget, hhandle⟩ := hold i hi
  refine ⟨{ buffer with recorded := some (used i) }, ?_, hhandle, _, rfl, hused i hi⟩
  rw [hrecorded.below i hi, hget]
  rfl

theorem recordDefaultCommands_spec (hs : (recordDefaultCommands a).Succeeds r t)
    (hn : r.swapchainLen = n) (hold : r.commandBuffers = old)
    (hused : r.recordedHandles = used) : ∃ buffers o,
      t = { r with commandBuffers := buffers, objects := o } ∧ Spares r.objects o ∧
        Recorded old used n buffers := by
  subst hn hold hused
  apply upTo_induction (I := fun i u => ∃ buffers o,
    u = { r with commandBuffers := buffers, objects := o } ∧ Spares r.objects o ∧
      Recorded r.commandBuffers r.recordedHandles i buffers) _ _ hs
  · exact ⟨r.commandBuffers, r.objects, rfl, refl_of Spares _, rfl, by omega, fun _ _ => rfl⟩
  · rintro i _ v - ⟨buffers, o, rfl, hspare, hrecorded⟩ hstep
    simp only [recordCommands, succeeds_all_cons, succeeds_all_nil, succeeds_act,
      succeeds_result] at hstep
    obtain ⟨_, rfl, _, ⟨-, rfl⟩, _, rfl, rfl⟩ := hstep
    refine ⟨buffers.modify i fun buffer =>
      { buffer with recorded := some (r.recordedHandles i) }, _, rfl, ?_, ?_⟩
    · exact trans_of Spares hspare (trans_of Spares (trans_of Spares spares_read spares_use)
        (trans_of Spares spares_read spares_useAll))
    · exact hrecorded.modify

/-! ### The steps up to the device -/

theorem setupDebugCallback_spec : ∃ report o,
    setupDebugCallback p a r = { r with debugReport := report, objects := o } ∧
      Spares r.objects o := by
  have huse : Spares r.objects (r.objects.use r.vkInstance) := spares_use
  have hcreate : Spares r.objects ((r.objects.use r.vkInstance).create r.vkInstance).2 :=
    trans_of Spares huse spares_create
  unfold setupDebugCallback vkCreate
  split
  · dsimp only
    split
    · exact ⟨_, _, rfl, hcreate⟩
    · exact ⟨_, _, rfl, huse⟩
  · exact ⟨_, _, rfl, refl_of Spares _⟩

theorem createInstance_spec (hs : (createInstance p a).Succeeds r t) (hr : r.objects.Bounded) :
    ∃ i report o, t = { r with vkInstance := some i, debugReport := report, objects := o } ∧
      Spares r.objects o ∧ o.Live i := by
  simp only [createInstance, succeeds_all_cons, succeeds_all_nil, succeeds_act] at hs
  obtain ⟨u, hcreate, _, rfl, rfl⟩ := hs
  unfold Succeeds vkCreate at hcreate
  dsimp only at hcreate
  split at hcreate
  · obtain ⟨-, rfl⟩ := Prod.mk.inj hcreate
    obtain ⟨report, o, hreport, hspare⟩ := setupDebugCallback_spec (p := p) (a := a) (r := { r with
      vkInstance := some (r.objects.create none).1, objects := (r.objects.create none).2 })
    have hcreate : Spares r.objects (r.objects.create none).2 := spares_create
    have hlive : o.Live (r.objects.create none).1 := (live_create_none hr).of_spares hspare
    exact ⟨_, report, o, hreport, trans_of Spares hcreate hspare, hlive⟩
  · cases hcreate

theorem createSurface_spec (hs : (createSurface a).Succeeds r t) (hr : r.objects.Bounded)
    (hinstance : r.objects.Usable r.vkInstance) :
    ∃ surface o, t = { r with surface := some surface, objects := o } ∧ Spares r.objects o := by
  simp only [createSurface, succeeds_onFailure, succeeds_all_cons, succeeds_all_nil,
    succeeds_result] at hs
  obtain ⟨_, ⟨-, rfl⟩, _, hcreate, rfl⟩ := hs
  obtain ⟨surface, o, rfl, hspare, -⟩ := succeeds_vkCreate hcreate (fun _ => rfl) hr hinstance
  exact ⟨surface, o, rfl, hspare⟩

theorem getPhysicalDevice_spec (hs : (getPhysicalDevice a).Succeeds r t) :
    ∃ o, t = { r with objects := o } ∧ Spares r.objects o := by
  simp only [getPhysicalDevice, succeeds_onFailure, succeeds_all_cons, succeeds_all_nil,
    succeeds_act, succeeds_result, succeeds_check] at hs
  obtain ⟨_, rfl, _, ⟨-, rfl⟩, _, ⟨-, rfl⟩, _, ⟨-, rfl⟩, rfl⟩ := hs
  exact ⟨_, rfl, spares_use⟩

theorem getDeviceQueue_spec {found : Bool} {store : Option Handle → VulkanRenderer → VulkanRenderer}
    (hs : getDeviceQueue found store r = t) (hr : r.objects.Bounded)
    (hdevice : r.objects.Usable r.device) : ∃ queue o,
      t = store queue { r with objects := o } ∧ Spares r.objects o ∧
        ∀ h, queue = some h → o.Live h := by
  have huse : Spares r.objects (r.objects.use r.device) := spares_use
  subst hs
  unfold getDeviceQueue
  dsimp only
  split
  · refine ⟨_, _, rfl, trans_of Spares huse spares_create, ?_⟩
    intro h hh
    cases hh
    exact usable_create (hr.of_spares huse) (hdevice.of_spares huse)
  · exact ⟨none, _, rfl, huse, fun h hh => by cases hh⟩

theorem createLogicalDevice_spec (hs : (createLogicalDevice a).Succeeds r t)
    (hr : r.objects.Bounded) (hinstance : r.objects.Usable r.vkInstance) :
    ∃ device graphics present o, t = { r with
        device := some device, graphicsQueue := some graphics, presentQueue := some present
        objects := o } ∧ Spares r.objects o ∧ o.Live device ∧ o.Live graphics ∧
      o.Live present := by
  simp only [createLogicalDevice, getQueues, succeeds_all_cons, succeeds_all_nil, succeeds_act,
    succeeds_check, Bool.and_eq_true, Option.isSome_iff_exists] at hs
  obtain ⟨_, hcreate, _, ⟨u, hgraphics, v, hpresent, w, ⟨⟨hsome, hsome'⟩, rfl⟩, rfl⟩, rfl⟩ := hs
  obtain ⟨device, o₁, rfl, hspare₁, hdevice⟩ :=
    succeeds_vkCreate hcreate (fun _ => rfl) hr hinstance
  obtain ⟨graphics, o₂, rfl, hspare₂, hlive₂⟩ := getDeviceQueue_spec hgraphics
    (hr.of_spares hspare₁) ⟨device, rfl, hdevice⟩
  have hboth := trans_of Spares hspare₁ hspare₂
  obtain ⟨present, o₃, rfl, hspare₃, hlive₃⟩ := getDeviceQueue_spec hpresent
    (hr.of_spares hboth) ⟨device, rfl, hdevice.of_spares hspare₂⟩
  obtain ⟨graphics, rfl⟩ := hsome
  obtain ⟨present, rfl⟩ := hsome'
  refine ⟨device, graphics, present, o₃, rfl, trans_of Spares hboth hspare₃, ?_, ?_, ?_⟩
  · exact (hdevice.of_spares hspare₂).of_spares hspare₃
  · exact (hlive₂ graphics rfl).of_spares hspare₃
  · exact hlive₃ present rfl

theorem createAllocator_spec (hs : (createAllocator a).Succeeds r t) (hr : r.objects.Bounded)
    (hdevice : r.objects.Usable r.device) : ∃ allocator o,
      t = { r with vmaAllocator := some allocator, objects := o } ∧ Spares r.objects o ∧
        o.Live allocator := by
  simp only [createAllocator, succeeds_all_cons, succeeds_all_nil, succeeds_result] at hs
  obtain ⟨_, hcreate, _, ⟨-, rfl⟩, rfl⟩ := hs
  exact succeeds_vkCreate hcreate (fun _ => rfl) hr hdevice

/-! ### The whole of `create` -/

theorem deviceSteps_spec (hs : (Attempt.all (deviceSteps p a)).Succeeds {} t) :
    ∃ i report surface device graphics present o, t = {
        vkInstance := some i, debugReport := report, surface := some surface
        device := some device, graphicsQueue := some graphics, presentQueue := some present
        objects := o } ∧ o.Bounded ∧ o.Live device ∧ o.Live graphics ∧ o.Live present := by
  have hempty : Handles.Bounded {} := by
    intro id hid
    cases hid
  simp only [deviceSteps, succeeds_onFailure, succeeds_all_cons, succeeds_all_nil,
    succeeds_result] at hs
  obtain ⟨_, ⟨-, rfl⟩, _, hinstance, _, hsurface, _, hphysical, _, hfamilies, _, hdevice, rfl⟩ := hs
  obtain ⟨i, report, o₁, rfl, hspare₁, hlive⟩ := createInstance_spec hinstance hempty
  have hbounded₁ := hempty.of_spares hspare₁
  obtain ⟨surface, o₂, rfl, hspare₂⟩ := createSurface_spec hsurface hbounded₁ ⟨i, rfl, hlive⟩
  obtain ⟨o₃, rfl, hspare₃⟩ := getPhysicalDevice_spec hphysical
  obtain ⟨-, rfl⟩ := succeeds_result.mp hfamilies
  have hspare := trans_of Spares hspare₂ hspare₃
  obtain ⟨device, graphics, present, o₄, rfl, hspare₄, hlives⟩ := createLogicalDevice_spec hdevice
    (hbounded₁.of_spares hspare) ⟨i, rfl, hlive.of_spares hspare⟩
  exact ⟨i, report, surface, device, graphics, present, o₄, rfl,
    (hbounded₁.of_spares hspare).of_spares hspare₄, hlives⟩

/-- What the commands for the image `i` use behind a successful `create`. -/
def usedHandles (framebuffers : List Framebuffer) (pass layout set pipeline vertices : Handle)
    (i : ℕ) : List (Option Handle) :=
  [some pass, (framebuffers[i]?).bind Framebuffer.handle, some layout, some set, some pipeline,
    some vertices]

theorem usedHandles_usable {pass layout set pipeline vertices : Handle}
    {framebuffers : List Framebuffer} (hpass : o.Live pass)
    (hframebuffers : Filled (FramebufferUsable o) framebuffers n) (hlayout : o.Live layout)
    (hset : o.Live set) (hpipeline : o.Live pipeline) (hvertices : o.Live vertices) :
    ∀ i < n, ∀ h ∈ usedHandles framebuffers pass layout set pipeline vertices i, o.Usable h := by
  intro i hi h hh
  obtain ⟨framebuffer, hget, hframebuffer⟩ := hframebuffers i hi
  simp only [usedHandles, hget, Option.bind_some, List.mem_cons, List.not_mem_nil, or_false] at hh
  obtain rfl | rfl | rfl | rfl | rfl | rfl := hh
  · exact ⟨pass, rfl, hpass⟩
  · exact hframebuffer.handle
  · exact ⟨layout, rfl, hlayout⟩
  · exact ⟨set, rfl, hset⟩
  · exact ⟨pipeline, rfl, hpipeline⟩
  · exact ⟨vertices, rfl, hvertices⟩

/-- What the steps behind the device leave in the renderer; only a swapchain whose length has no
successor of 32 bits is without command buffers. -/
structure Completed (a : DriverAnswers) (t : VulkanRenderer) : Prop where
  bounded : t.objects.Bounded
  swapchainLen : t.swapchainLen = uint32 a.imageCount
  swapchainLen_pos : 0 < t.swapchainLen
  commandBuffers_length : t.commandBuffers.length = uint32 (t.swapchainLen + 1)
  renderable : t.swapchainLen < t.commandBuffers.length → Renderable t

/-- The renderer is put together from what the steps have said about its members. -/
theorem renderable_of {device graphics present oneTime : Option Handle}
    {allocator swapchain texture view : Handle} {fences available complete : List (Option Handle)}
    {framebuffers : List Framebuffer}
    (hobjects : t.objects = o) (hlen : t.swapchainLen = n) (hindex : t.currentIndex < n)
    (hstaging : t.stagingBuffer = none) (htDevice : t.device = device)
    (htGraphics : t.graphicsQueue = graphics) (htPresent : t.presentQueue = present)
    (htAllocator : t.vmaAllocator = some allocator) (htSwapchain : t.swapchain = some swapchain)
    (htOneTime : t.oneTimeBuffer = oneTime) (htTexture : t.cameraTextureImage = some texture)
    (htView : t.cameraTextureImageView = some view) (htFences : t.cameraFences = fences)
    (htAvailable : t.frameAvailableSemaphores = available)
    (htComplete : t.renderCompleteSemaphores = complete) (htBuffers : t.commandBuffers = buffers)
    (htFramebuffers : t.swapchainFramebuffers = framebuffers)
    (hdevice : o.Usable device) (hgraphics : o.Usable graphics) (hpresent : o.Usable present)
    (hallocator : o.Live allocator) (hswapchain : o.Live swapchain) (honeTime : o.Usable oneTime)
    (htexture : o.Live texture) (hview : o.Live view) (hfences : Filled o.Usable fences n)
    (havailable : Filled o.Usable available n) (hcomplete : Filled o.Usable complete n)
    (hbuffers : Filled (CommandBufferUsable o) buffers n)
    (hframebuffers : Filled (FramebufferUsable o) framebuffers n) : Renderable t := by
  subst hobjects hlen htDevice htGraphics htPresent htOneTime htFences htAvailable htComplete
    htBuffers htFramebuffers
  refine ⟨?_, hindex, hfences, havailable, hcomplete, hbuffers, hframebuffers, ?_⟩
  · intro h hh
    simp only [List.mem_cons, List.not_mem_nil, or_false] at hh
    obtain rfl | rfl | rfl | rfl | rfl | rfl | rfl | rfl := hh
    · exact hdevice
    · exact hgraphics
    · exact hpresent
    · exact ⟨allocator, htAllocator, hallocator⟩
    · exact ⟨swapchain, htSwapchain, hswapchain⟩
    · exact honeTime
    · exact ⟨texture, htTexture, htexture⟩
    · exact ⟨view, htView, hview⟩
  · intro h hh
    rw [hstaging] at hh
    cases hh

theorem renderSteps_spec (hs : (Attempt.all (renderSteps a)).Succeeds r t)
    (hr : r.objects.Bounded) (hdevice : r.objects.Usable r.device)
    (hgraphics : r.objects.Usable r.graphicsQueue) (hpresent : r.objects.Usable r.presentQueue)
    (hindex : r.currentIndex = 0) (hstaging : r.stagingBuffer = none)
    (himage : r.cameraTextureImage = none) (hview : r.cameraTextureImageView = none) :
    Completed a t := by
  simp only [renderSteps, succeeds_all_cons, succeeds_all_nil] at hs
  obtain ⟨_, hallocator, _, hswapchain, _, hdepth, _, hpass, _, hframebuffers, _, hbuffers, _,
    hdescriptor, _, htexture, _, hvertices, _, hpipeline, _, hrecord, rfl⟩ := hs
  obtain ⟨allocator, o₁, rfl, hspare₁, hallocator⟩ := createAllocator_spec hallocator hr hdevice
  have hr := hr.of_spares hspare₁
  have hdevice := hdevice.of_spares hspare₁
  obtain ⟨swapchain, o₂, rfl, hspare₂, hswapchain, hpos⟩ := createSwapchain_spec hswapchain hr
    hdevice
  have hr := hr.of_spares hspare₂
  have hdevice := hdevice.of_spares hspare₂
  have hallocator := hallocator.of_spares hspare₂
  obtain ⟨image, depth, o₃, rfl, hspare₃, hdepth⟩ := createDepthBuffer_spec hdepth hr hdevice
    ⟨_, rfl, hallocator⟩
  have hr := hr.of_spares hspare₃
  have hdevice := hdevice.of_spares hspare₃
  have hallocator := hallocator.of_spares hspare₃
  obtain ⟨pass, o₄, rfl, hspare₄, hpass⟩ := createRenderPass_spec hpass hr hdevice
  have hr := hr.of_spares hspare₄
  have hdevice := hdevice.of_spares hspare₄
  have hallocator := hallocator.of_spares hspare₄
  obtain ⟨images, views, framebuffers, o₅, rfl, hspare₅, hframebuffers⟩ :=
    createFramebuffers_spec (n := uint32 a.imageCount) hframebuffers hr hdevice
      ⟨_, rfl, hdepth.of_spares hspare₄⟩ rfl
  have hr := hr.of_spares hspare₅
  have hdevice := hdevice.of_spares hspare₅
  have hallocator := hallocator.of_spares hspare₅
  obtain ⟨pool, buffers, fences, available, complete, oneTime, o₆, rfl, hspare₆, hlen, hfilled⟩ :=
    createCommandBuffersAndPool_spec (n := uint32 a.imageCount) hbuffers hr hdevice rfl
  have hr := hr.of_spares hspare₆
  have hdevice := hdevice.of_spares hspare₆
  have hallocator := hallocator.of_spares hspare₆
  obtain ⟨sampler, setLayout, setPool, set, o₇, rfl, hspare₇, hset⟩ :=
    createCameraTexDescriptor_spec hdescriptor hr hdevice
  have hr := hr.of_spares hspare₇
  have hdevice := hdevice.of_spares hspare₇
  have hallocator := hallocator.of_spares hspare₇
  obtain ⟨texture, textureView, o₈, rfl, hspare₈, htexture, htextureView⟩ :=
    createCameraTexture_spec htexture hr hdevice ⟨_, rfl, hallocator⟩ himage hview
  have hr := hr.of_spares hspare₈
  have hdevice := hdevice.of_spares hspare₈
  have hallocator := hallocator.of_spares hspare₈
  obtain ⟨vertices, o₉, rfl, hspare₉, hvertices⟩ := createCameraVertexBuffer_spec hvertices hr
    ⟨_, rfl, hallocator⟩
  have hr := hr.of_spares hspare₉
  have hdevice := hdevice.of_spares hspare₉
  obtain ⟨layout, pipeline, o₁₀, rfl, hspare₁₀, hlayout, hpipeline⟩ :=
    createPipeline_spec hpipeline hr hdevice
  have hr := hr.of_spares hspare₁₀
  have hdevice := hdevice.of_spares hspare₁₀
  obtain ⟨recorded, o₁₁, rfl, hspare₁₁, hrecorded⟩ := recordDefaultCommands_spec
    (n := uint32 a.imageCount) hrecord rfl (rfl : _ = buffers)
    (rfl : _ = usedHandles framebuffers pass layout set pipeline vertices)
  have hlen' : recorded.length = buffers.length := hrecorded.length
  refine ⟨hr.of_spares hspare₁₁, rfl, hpos, hlen'.trans hlen, ?_⟩
  intro hlt
  have hlt' : uint32 a.imageCount < buffers.length := Nat.lt_of_lt_of_eq hlt hlen'
  have hbuffers := hfilled hlt'
  -- All that was created lives behind the last step.
  have htail₉ : Spares o₉ o₁₁ := trans_of Spares hspare₁₀ hspare₁₁
  have htail₈ : Spares o₈ o₁₁ := trans_of Spares hspare₉ htail₉
  have htail₇ : Spares o₇ o₁₁ := trans_of Spares hspare₈ htail₈
  have htail₆ : Spares o₆ o₁₁ := trans_of Spares hspare₇ htail₇
  have htail₅ : Spares o₅ o₁₁ := trans_of Spares hspare₆ htail₆
  have htail₄ : Spares o₄ o₁₁ := trans_of Spares hspare₅ htail₅
  have htail₂ : Spares o₂ o₁₁ := trans_of Spares hspare₃ (trans_of Spares hspare₄ htail₄)
  have htail : Spares r.objects o₁₁ := trans_of Spares hspare₁ (trans_of Spares hspare₂ htail₂)
  have hframebuffers' : Filled (FramebufferUsable o₁₁) framebuffers (uint32 a.imageCount) :=
    hframebuffers.mono fun _ hf => hf.of_spares htail₅
  have hused := usedHandles_usable (hpass.of_spares htail₄) hframebuffers'
    (hlayout.of_spares hspare₁₁) (hset.of_spares htail₇) (hpipeline.of_spares hspare₁₁)
    (hvertices.of_spares htail₉)
  have hrecorded' := hrecorded.filled (hbuffers.1.mono fun _ hb => hb.of_spares htail₆) hused
  have hindex' : r.currentIndex < uint32 a.imageCount := hindex ▸ hpos
  exact renderable_of rfl rfl hindex' hstaging rfl rfl rfl rfl rfl rfl rfl rfl rfl rfl rfl rfl rfl
    (hdevice.of_spares hspare₁₁) (hgraphics.of_spares htail) (hpresent.of_spares htail)
    (hallocator.of_spares htail₈) (hswapchain.of_spares htail₂)
    (hbuffers.2.2.2.2.of_spares htail₆) (htexture.of_spares htail₈) (htextureView.of_spares htail₈)
    (hbuffers.2.1.mono fun _ hf => hf.of_spares htail₆)
    (hbuffers.2.2.1.mono fun _ ha => ha.of_spares htail₆)
    (hbuffers.2.2.2.1.mono fun _ hc => hc.of_spares htail₆) hrecorded' hframebuffers'

theorem create_completed (hs : (create p a).Succeeds {} t) : Completed a t := by
  rw [create, createSteps, all_append, succeeds_andThen] at hs
  obtain ⟨u, hdevice, hrender⟩ := hs
  obtain ⟨i, report, surface, device, graphics, present, o, rfl, hbounded, hlive, hgraphics,
    hpresent⟩ := deviceSteps_spec hdevice
  exact renderSteps_spec (succeeds_all_map_onFailure.mp hrender) hbounded ⟨device, rfl, hlive⟩
    ⟨graphics, rfl, hgraphics⟩ ⟨present, rfl, hpresent⟩ rfl rfl rfl rfl

theorem Completed.renderable_iff (hcompleted : Completed a t) :
    Renderable t ↔ uint32 a.imageCount ≠ 2 ^ 32 - 1 := by
  have hlen := hcompleted.commandBuffers_length
  have hpos := hcompleted.swapchainLen_pos
  have hlt : t.swapchainLen < 2 ^ 32 := by
    rw [hcompleted.swapchainLen]
    exact Nat.mod_lt _ (Nat.two_pow_pos 32)
  rw [← hcompleted.swapchainLen]
  constructor
  · intro hrenderable hmax
    obtain ⟨buffer, hget, -⟩ := hrenderable.commandBuffers 0 hpos
    have hzero : t.commandBuffers.length = 0 := by
      rw [hlen, hmax]
      rfl
    rw [List.eq_nil_of_length_eq_zero hzero] at hget
    cases hget
  · intro hmax
    apply hcompleted.renderable
    have hmod : uint32 (t.swapchainLen + 1) = t.swapchainLen + 1 := Nat.mod_eq_of_lt (by omega)
    omega

end ARArch.VulkanRenderer

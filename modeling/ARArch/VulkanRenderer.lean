import ARArch.Attempts
import ARArch.Handles
import ARArch.VulkanTools
import Mathlib.Algebra.Group.Nat.Defs

/-!
# The Vulkan renderer

The handles of `VulkanRenderer`, what `create`, `recreate`, `destroy` and `render` do with them, and
the answers of the driver. A call that fails leaves the handle it was to create as it is, except
for buffers and images of the allocator, which `vk_mem_alloc.h` sets to null first.
-/

namespace ARArch

structure Framebuffer where
  handle : Option Handle := none
  attachments : List (Option Handle) := []

structure CommandBuffer where
  handle : Option Handle := none
  /-- What the recorded commands use, once they are recorded. -/
  recorded : Option (List (Option Handle)) := none

/-- `none` is `VK_NULL_HANDLE`, but for `debug_report`, which has no initial value. -/
structure VulkanRenderer where
  objects : Handles := {}
  vkInstance : Option Handle := none
  debugReport : Option Handle := none
  surface : Option Handle := none
  device : Option Handle := none
  graphicsQueue : Option Handle := none
  presentQueue : Option Handle := none
  vmaAllocator : Option Handle := none
  swapchain : Option Handle := none
  swapchainLen : ℕ := 0
  currentIndex : ℕ := 0
  renderPass : Option Handle := none
  descriptorSetLayout : Option Handle := none
  cameraTexDescriptorSet : Option Handle := none
  descriptorPool : Option Handle := none
  pipelineLayout : Option Handle := none
  pipeline : Option Handle := none
  depthImage : Option Handle := none
  depthImageView : Option Handle := none
  swapchainImages : List (Option Handle) := []
  swapchainViews : List (Option Handle) := []
  swapchainFramebuffers : List Framebuffer := []
  commandPool : Option Handle := none
  commandBuffers : List CommandBuffer := []
  oneTimeBuffer : Option Handle := none
  cameraFences : List (Option Handle) := []
  frameAvailableSemaphores : List (Option Handle) := []
  renderCompleteSemaphores : List (Option Handle) := []
  stagingBuffer : Option Handle := none
  cameraTextureSampler : Option Handle := none
  cameraTextureImage : Option Handle := none
  cameraTextureImageView : Option Handle := none
  cameraVertexBuffer : Option Handle := none

structure DeviceQueueFamily where
  queueCount : ℕ
  graphicsAndCompute : Bool

structure SingleCommand where
  beginBuffer : VkResult
  endBuffer : VkResult
  queueSubmit : VkResult
  queueWaitIdle : VkResult

structure Shader where
  isRead : Bool
  createModule : VkResult

structure DriverAnswers where
  isAssetDir : Bool
  createInstance : VkResult
  createDebugReportFunction : Bool
  createDebugReport : VkResult
  createSurfaceFunction : Bool
  createSurface : VkResult
  enumerateCount : VkResult
  deviceCount : ℕ
  enumerateDevices : VkResult
  devicesWritten : ℕ
  deviceFormats : ℕ
  queueFamilies : List DeviceQueueFamily
  createDevice : VkResult
  graphicsQueue : Bool
  presentQueue : Bool
  initAllocator : VkResult
  surfaceCapabilities : VkResult
  surfaceFormats : ℕ
  matchingFormat : Bool
  createSwapchain : VkResult
  imageCount : ℕ
  sampledImages : Bool
  depthFormat : Bool
  createDepthImage : VkResult
  createDepthView : VkResult
  createRenderPass : VkResult
  getSwapchainImages : VkResult
  createView : ℕ → VkResult
  createFramebuffer : ℕ → VkResult
  createCommandPool : VkResult
  allocateCommandBuffer : ℕ → VkResult
  createFence : ℕ → VkResult
  createFrameAvailable : ℕ → VkResult
  createRenderComplete : ℕ → VkResult
  createSampler : VkResult
  createSetLayout : VkResult
  createDescriptorPool : VkResult
  allocateDescriptorSet : VkResult
  createTextureImage : VkResult
  createTextureView : VkResult
  createStagingVertexBuffer : VkResult
  createVertexBuffer : VkResult
  vertexCopy : SingleCommand
  vertexShader : Shader
  fragmentShader : Shader
  createPipelineLayout : VkResult
  createPipeline : VkResult
  beginRecording : ℕ → VkResult

structure RenderAnswers where
  isFrame : Bool
  waitForFences : VkResult
  resetFences : VkResult
  acquireNextImage : VkResult
  imageIndex : ℕ
  acquireRecreation : DriverAnswers
  mapMemory : VkResult
  createStagingBuffer : VkResult
  upload : SingleCommand
  queueSubmit : VkResult
  queuePresent : VkResult
  presentRecreation : DriverAnswers

/-- How the program was built, and whether the loader knows `vkDestroyDebugReportCallbackEXT`. -/
structure Platform where
  debug : Bool
  destroyDebugReportFunction : Bool

namespace VulkanRenderer

/-- `.attachmentCount` of `create_render_pass`. -/
def renderPassAttachments : ℕ := 2

def uint32 (n : ℕ) : ℕ := n % 2 ^ 32

def resize {α : Type} (handles : List α) (n : ℕ) (null : α) : List α :=
  handles.take n ++ List.replicate (n - handles.length) null

def use (h : Option Handle) (r : VulkanRenderer) : VulkanRenderer :=
  { r with objects := r.objects.use h }

def useAll (handles : List (Option Handle)) (r : VulkanRenderer) : VulkanRenderer :=
  { r with objects := r.objects.useAll handles }

/-- `vkDestroy…(device, h, nullptr)`. -/
def vkDestroy (h : Option Handle) (r : VulkanRenderer) : VulkanRenderer :=
  { r with objects := (r.objects.use r.device).destroy h }

def vmaDestroy (h : Option Handle) (r : VulkanRenderer) : VulkanRenderer :=
  { r with objects := (r.objects.use r.vmaAllocator).destroy h }

def freeCommandBuffer (h : Option Handle) (r : VulkanRenderer) : VulkanRenderer :=
  { r with objects := (r.objects.useAll [r.device, r.commandPool]).destroy h }

/-- `vkDestroyInstance(instance, nullptr)`; the member keeps its value. -/
def vkDestroyInstance (r : VulkanRenderer) : VulkanRenderer :=
  { r with objects := r.objects.destroy r.vkInstance }

def destroyInstance (r : VulkanRenderer) : VulkanRenderer :=
  { r.vkDestroyInstance with vkInstance := none }

def destroyDeviceAndInstance (r : VulkanRenderer) : VulkanRenderer :=
  { r with objects := (r.objects.destroy r.device).destroy r.vkInstance }

def newObject (owner : Option Handle) (r : VulkanRenderer) : Handle × VulkanRenderer :=
  ((r.objects.create owner).1, { r with objects := (r.objects.create owner).2 })

def ifPresent (handles : List (Option Handle)) (f : VulkanRenderer → VulkanRenderer)
    (r : VulkanRenderer) : VulkanRenderer :=
  if handles.all Option.isSome then f r else r

/-- A call `vkCreate…(owner, …, &member)`, which stores what it creates. -/
def vkCreate (result : VkResult) (owner : VulkanRenderer → Option Handle)
    (store : Handle → VulkanRenderer → VulkanRenderer) : Attempt VulkanRenderer := fun r =>
  let r := r.use (owner r)
  if result = .success then
    let created := r.newObject (owner r)
    (true, store created.1 created.2)
  else (false, r)

def vmaCreate (result : VkResult) (store : Option Handle → VulkanRenderer → VulkanRenderer) :
    Attempt VulkanRenderer := fun r =>
  vkCreate result (·.vmaAllocator) (fun h => store (some h)) (store none r)

/-! ### `create` up to the device -/

/-- A failure of `setup_debug_callback` is not a failure of `create_instance`. -/
def setupDebugCallback (p : Platform) (a : DriverAnswers) (r : VulkanRenderer) : VulkanRenderer :=
  if p.debug && a.createDebugReportFunction then
    (vkCreate a.createDebugReport (·.vkInstance) (fun h r => { r with debugReport := some h }) r).2
  else r

def createInstance (p : Platform) (a : DriverAnswers) : Attempt VulkanRenderer := .all [
  vkCreate a.createInstance (fun _ => none) (fun h r => { r with vkInstance := some h }),
  .act (setupDebugCallback p a)]

def createSurface (a : DriverAnswers) : Attempt VulkanRenderer := .all [
  .result a.createSurfaceFunction,
  (vkCreate a.createSurface (·.vkInstance) (fun h r => { r with surface := some h })).onFailure
    vkDestroyInstance]

def getPhysicalDevice (a : DriverAnswers) : Attempt VulkanRenderer := .all [
  .act (fun r => r.use r.vkInstance),
  (Attempt.result (a.enumerateCount = .success && a.deviceCount ≠ 0)).onFailure vkDestroyInstance,
  (Attempt.result (a.enumerateDevices = .success && a.devicesWritten ≠ 0)).onFailure
    vkDestroyInstance,
  (Attempt.check fun r => r.surface.isNone || a.deviceFormats ≠ 0).onFailure vkDestroyInstance]

def getQueueFamilies (a : DriverAnswers) : Attempt VulkanRenderer :=
  .result (a.queueFamilies.any fun family => family.queueCount ≠ 0 && family.graphicsAndCompute)

/-- `vkGetDeviceQueue`, which may leave a null handle. -/
def getDeviceQueue (found : Bool) (store : Option Handle → VulkanRenderer → VulkanRenderer)
    (r : VulkanRenderer) : VulkanRenderer :=
  let r := r.use r.device
  if found then
    let queue := r.newObject r.device
    store (some queue.1) queue.2
  else store none r

def getQueues (a : DriverAnswers) : Attempt VulkanRenderer := .all [
  .act (getDeviceQueue a.graphicsQueue fun h r => { r with graphicsQueue := h }),
  .act (getDeviceQueue a.presentQueue fun h r => { r with presentQueue := h }),
  .check fun r => r.graphicsQueue.isSome && r.presentQueue.isSome]

def createLogicalDevice (a : DriverAnswers) : Attempt VulkanRenderer := .all [
  vkCreate a.createDevice (·.vkInstance) (fun h r => { r with device := some h }),
  getQueues a]

/-- `vmaCreateAllocator` stores the allocator before it initialises it. -/
def createAllocator (a : DriverAnswers) : Attempt VulkanRenderer := .all [
  vkCreate .success (·.device) (fun h r => { r with vmaAllocator := some h }),
  .result (a.initAllocator = .success)]

/-! ### What `recreate` shares with `create` -/

def createSwapchain (a : DriverAnswers) : Attempt VulkanRenderer := .all [
  .act (fun r => r.useAll [r.vkInstance, r.surface]),
  .result (a.surfaceCapabilities = .success),
  .result (a.surfaceFormats ≠ 0),
  .result a.matchingFormat,
  vkCreate a.createSwapchain (·.device) (fun h r => { r with swapchain := some h }),
  .act (fun r => { r with swapchainLen := uint32 a.imageCount }),
  .result a.sampledImages,
  .check fun r => 0 < r.swapchainLen]

def createRenderPass (a : DriverAnswers) : Attempt VulkanRenderer :=
  vkCreate a.createRenderPass (·.device) (fun h r => { r with renderPass := some h })

/-- An image of the swapchain belongs to it. -/
def getSwapchainImage (r : VulkanRenderer) (i : ℕ) : VulkanRenderer :=
  let image := r.newObject r.swapchain
  { image.2 with swapchainImages := r.swapchainImages.set i (some image.1) }

def getSwapchainImages (r : VulkanRenderer) : VulkanRenderer :=
  (List.range r.swapchainLen).foldl getSwapchainImage r

def createView (a : DriverAnswers) (i : ℕ) : Attempt VulkanRenderer := .all [
  .act (fun r =>
    let image := r.objects.read r.swapchainImages i
    { r with objects := image.2.use image.1 }),
  (vkCreate (a.createView i) (·.device)
    (fun h r => { r with swapchainViews := r.swapchainViews.set i (some h) })).onFailure
      destroyDeviceAndInstance]

/-- The views that a framebuffer is created with; without a depth view it is one. -/
def framebufferAttachments (r : VulkanRenderer) (i : ℕ) : List (Option Handle) :=
  let view := (r.swapchainViews[i]?).join
  if r.depthImageView.isNone then [view] else [view, r.depthImageView]

def createFramebuffer (a : DriverAnswers) (i : ℕ) : Attempt VulkanRenderer := .all [
  .act (fun r => r.useAll (r.renderPass :: r.framebufferAttachments i)),
  vkCreate (a.createFramebuffer i) (·.device) (fun h r =>
    let framebuffer := { handle := some h, attachments := r.framebufferAttachments i }
    { r with swapchainFramebuffers := r.swapchainFramebuffers.set i framebuffer })]

def createFramebuffers (a : DriverAnswers) : Attempt VulkanRenderer := .all [
  .act (fun r => { r with
    swapchainImages := resize r.swapchainImages r.swapchainLen none
    swapchainViews := resize r.swapchainViews r.swapchainLen none }),
  .act (fun r => r.useAll [r.vkInstance, r.device, r.swapchain]),
  (Attempt.result (a.getSwapchainImages = .success)).onFailure destroyDeviceAndInstance,
  .act getSwapchainImages,
  .loop (·.swapchainLen) (createView a),
  .act (fun r => { r with
    swapchainFramebuffers := resize r.swapchainFramebuffers r.swapchainLen {} }),
  .loop (·.swapchainLen) (createFramebuffer a)]

def destroyFence (r : VulkanRenderer) (fence : Option Handle) : VulkanRenderer :=
  (r.useAll [r.device, fence]).vkDestroy fence

def clearCommandBuffers (r : VulkanRenderer) : VulkanRenderer :=
  let r := r.commandBuffers.foldl (fun r buffer => r.freeCommandBuffer buffer.handle) r
  let r := { r with commandBuffers := [] }
  let r := r.cameraFences.foldl destroyFence r
  { r with cameraFences := [] }

def createFrameObjects (a : DriverAnswers) (bi : ℕ) : Attempt VulkanRenderer := .all [
  vkCreate (a.createFence bi) (·.device)
    (fun h r => { r with cameraFences := r.cameraFences.set bi (some h) }),
  vkCreate (a.createFrameAvailable bi) (·.device)
    (fun h r => { r with frameAvailableSemaphores := r.frameAvailableSemaphores.set bi (some h) }),
  vkCreate (a.createRenderComplete bi) (·.device)
    (fun h r => { r with renderCompleteSemaphores := r.renderCompleteSemaphores.set bi (some h) })]

/-- The last command buffer is the one time buffer, the others come with a fence and semaphores. -/
def completeCommandBuffer (a : DriverAnswers) (bi : ℕ) : Attempt VulkanRenderer := fun r =>
  if bi = r.swapchainLen then
    (true, { r with oneTimeBuffer := (r.commandBuffers[bi]?).bind CommandBuffer.handle })
  else createFrameObjects a bi r

def createCommandBuffer (a : DriverAnswers) (bi : ℕ) : Attempt VulkanRenderer :=
  Attempt.onFailure (.all [
    .act (fun r => r.use r.device),
    vkCreate (a.allocateCommandBuffer bi) (·.commandPool)
      (fun h r => { r with commandBuffers := r.commandBuffers.set bi { handle := some h } }),
    completeCommandBuffer a bi]) clearCommandBuffers

def createCommandBuffersAndPool (a : DriverAnswers) : Attempt VulkanRenderer := .all [
  vkCreate a.createCommandPool (·.device) (fun h r => { r with commandPool := some h }),
  .act (fun r => { r with
    commandBuffers := resize r.commandBuffers (uint32 (r.swapchainLen + 1)) {}
    cameraFences := resize r.cameraFences r.swapchainLen none
    frameAvailableSemaphores := resize r.frameAvailableSemaphores r.swapchainLen none
    renderCompleteSemaphores := resize r.renderCompleteSemaphores r.swapchainLen none }),
  .loop (fun r => uint32 (r.swapchainLen + 1)) (createCommandBuffer a)]

def createCameraTexDescriptor (a : DriverAnswers) : Attempt VulkanRenderer := .all [
  vkCreate a.createSampler (·.device) (fun h r => { r with cameraTextureSampler := some h }),
  vkCreate a.createSetLayout (·.device) (fun h r => { r with descriptorSetLayout := some h }),
  vkCreate a.createDescriptorPool (·.device) (fun h r => { r with descriptorPool := some h }),
  .act (fun r => r.useAll [r.device, r.descriptorSetLayout]),
  vkCreate a.allocateDescriptorSet (·.descriptorPool)
    (fun h r => { r with cameraTexDescriptorSet := some h })]

def updateCameraTextureView (a : DriverAnswers) : Attempt VulkanRenderer := .all [
  .act (fun r => ifPresent [r.cameraTextureImageView] (vkDestroy r.cameraTextureImageView) r),
  .act (fun r => r.use r.cameraTextureImage),
  vkCreate a.createTextureView (·.device) (fun h r => { r with cameraTextureImageView := some h }),
  .act (fun r => r.useAll [r.device, r.cameraTextureImageView, r.cameraTextureSampler,
    r.cameraTexDescriptorSet])]

def createCameraTexture (a : DriverAnswers) : Attempt VulkanRenderer := .all [
  .act (fun r => { ifPresent [r.cameraTextureImage] (vmaDestroy r.cameraTextureImage) r with
    cameraTextureImage := none }),
  vmaCreate a.createTextureImage (fun h r => { r with cameraTextureImage := h }),
  updateCameraTextureView a]

/-- The shader module, if the shader is found and accepted. -/
def loadShader (shader : Shader) (r : VulkanRenderer) : Option Handle × VulkanRenderer :=
  if shader.isRead then
    let r := r.use r.device
    if shader.createModule = .success then
      let created := r.newObject r.device
      (some created.1, created.2)
    else (none, r)
  else (none, r)

def createPipelineLayout (a : DriverAnswers) : Attempt VulkanRenderer := .all [
  .act (fun r => r.use r.descriptorSetLayout),
  vkCreate a.createPipelineLayout (·.device) (fun h r => { r with pipelineLayout := some h })]

def createGraphicsPipeline (a : DriverAnswers) (vertex fragment : Handle) :
    Attempt VulkanRenderer := .all [
  .act (fun r => r.useAll [some vertex, some fragment, r.pipelineLayout, r.renderPass]),
  vkCreate a.createPipeline (·.device) (fun h r => { r with pipeline := some h })]

/-- Both shader modules are destroyed on every path behind their creation. -/
def createPipeline (a : DriverAnswers) : Attempt VulkanRenderer := fun r =>
  match loadShader a.vertexShader r with
  | (none, r) => (false, r)
  | (some vertex, r) =>
    match loadShader a.fragmentShader r with
    | (none, r) => (false, r.vkDestroy vertex)
    | (some fragment, r) =>
      let built :=
        Attempt.all [createPipelineLayout a, createGraphicsPipeline a vertex fragment] r
      (built.1, (built.2.vkDestroy fragment).vkDestroy vertex)

/-! ### The rest of `create` -/

def createDepthBuffer (a : DriverAnswers) : Attempt VulkanRenderer :=
  Attempt.onFailure (.all [
    .result a.depthFormat,
    vmaCreate a.createDepthImage (fun h r => { r with depthImage := h }),
    .act (fun r => r.use r.depthImage),
    vkCreate a.createDepthView (·.device) (fun h r => { r with depthImageView := some h })])
    (fun r => { r with depthImageView := none })

def beginSingleCommand (c : SingleCommand) : Attempt VulkanRenderer := .all [
  .act (fun r => r.use r.oneTimeBuffer),
  .result (c.beginBuffer = .success)]

def endSingleCommand (c : SingleCommand) : Attempt VulkanRenderer := .all [
  .act (fun r => r.use r.oneTimeBuffer),
  .result (c.endBuffer = .success),
  .act (fun r => r.useAll [r.graphicsQueue, r.oneTimeBuffer]),
  .result (c.queueSubmit = .success),
  .result (c.queueWaitIdle = .success)]

/-- `create_camera_vertex_buffer` behind the creation of the staging vertex buffer. -/
def copyVertices (a : DriverAnswers) (staging : Handle) : Attempt VulkanRenderer := .all [
  vmaCreate a.createVertexBuffer (fun h r => { r with cameraVertexBuffer := h }),
  beginSingleCommand a.vertexCopy,
  .act (fun r => r.useAll [r.oneTimeBuffer, some staging, r.cameraVertexBuffer]),
  endSingleCommand a.vertexCopy,
  .act (vmaDestroy staging)]

def createCameraVertexBuffer (a : DriverAnswers) : Attempt VulkanRenderer := fun r =>
  let r := r.use r.vmaAllocator
  if a.createStagingVertexBuffer = .success then
    let staging := r.newObject r.vmaAllocator
    copyVertices a staging.1 staging.2
  else (false, r)

def recordedHandles (r : VulkanRenderer) (bi : ℕ) : List (Option Handle) :=
  [r.renderPass, (r.swapchainFramebuffers[bi]?).bind Framebuffer.handle, r.pipelineLayout,
    r.cameraTexDescriptorSet, r.pipeline, r.cameraVertexBuffer]

def recordCommands (a : DriverAnswers) (bi : ℕ) : Attempt VulkanRenderer := .all [
  .act (fun r =>
    let buffer := r.objects.read (r.commandBuffers.map CommandBuffer.handle) bi
    { r with objects := buffer.2.use buffer.1 }),
  .result (a.beginRecording bi = .success),
  .act (fun r =>
    let framebuffer := r.objects.read (r.swapchainFramebuffers.map Framebuffer.handle) bi
    { r with
      objects := framebuffer.2.useAll (r.recordedHandles bi)
      commandBuffers := r.commandBuffers.modify bi
        fun buffer => { buffer with recorded := some (r.recordedHandles bi) } })]

def recordDefaultCommands (a : DriverAnswers) : Attempt VulkanRenderer :=
  .loop (·.swapchainLen) (recordCommands a)

/-! ### `destroy` -/

def destroyFramebufferAt (r : VulkanRenderer) (i : ℕ) : VulkanRenderer :=
  let image := r.objects.read r.swapchainImages i
  let r := { r with objects := image.2 }.vkDestroy image.1
  let view := r.objects.read r.swapchainViews i
  let r := { r with objects := view.2 }.vkDestroy view.1
  let framebuffer := r.objects.read (r.swapchainFramebuffers.map Framebuffer.handle) i
  { r with objects := framebuffer.2 }.vkDestroy framebuffer.1

def destroyFramebuffer (r : VulkanRenderer) : VulkanRenderer :=
  let r := (List.range r.swapchainLen).foldl destroyFramebufferAt r
  { r with swapchainImages := [], swapchainViews := [], swapchainFramebuffers := [] }

def freeDescriptorSet (r : VulkanRenderer) : VulkanRenderer :=
  { ifPresent [r.device, r.descriptorPool, r.cameraTexDescriptorSet]
      (fun r => (r.use r.descriptorPool).vkDestroy r.cameraTexDescriptorSet) r with
    cameraTexDescriptorSet := none }

def destroyDescriptorPool (r : VulkanRenderer) : VulkanRenderer :=
  { ifPresent [r.device, r.descriptorPool] (vkDestroy r.descriptorPool) r with
    descriptorPool := none }

def freeCommandBuffers (r : VulkanRenderer) : VulkanRenderer :=
  r.commandBuffers.foldl
    (fun r buffer => ifPresent [r.device, buffer.handle] (freeCommandBuffer buffer.handle) r) r

/-- The member keeps its value. -/
def destroyStagingBuffer (r : VulkanRenderer) : VulkanRenderer :=
  ifPresent [r.vmaAllocator, r.stagingBuffer] (vmaDestroy r.stagingBuffer) r

def freeOneTimeBuffer (r : VulkanRenderer) : VulkanRenderer :=
  { ifPresent [r.device, r.oneTimeBuffer] (freeCommandBuffer r.oneTimeBuffer) r with
    oneTimeBuffer := none, commandBuffers := [] }

def destroyPipelineLayout (r : VulkanRenderer) : VulkanRenderer :=
  { ifPresent [r.device, r.pipelineLayout] (vkDestroy r.pipelineLayout) r with
    pipelineLayout := none }

def destroyPipeline (r : VulkanRenderer) : VulkanRenderer :=
  { ifPresent [r.device, r.pipeline] (vkDestroy r.pipeline) r with pipeline := none }

def destroySampler (r : VulkanRenderer) : VulkanRenderer :=
  { ifPresent [r.device, r.cameraTextureSampler] (vkDestroy r.cameraTextureSampler) r with
    cameraTextureSampler := none }

def destroyDepthView (r : VulkanRenderer) : VulkanRenderer :=
  { ifPresent [r.device, r.depthImageView] (vkDestroy r.depthImageView) r with
    depthImageView := none }

def destroyDepthImage (r : VulkanRenderer) : VulkanRenderer :=
  { ifPresent [r.device, r.depthImage] (vkDestroy r.depthImage) r with depthImage := none }

def destroySwapchain (r : VulkanRenderer) : VulkanRenderer :=
  { ifPresent [r.device, r.swapchain]
      (fun r => (r.use r.vkInstance).vkDestroy r.swapchain) r with swapchain := none }

def destroyCommandPool (r : VulkanRenderer) : VulkanRenderer :=
  { ifPresent [r.device, r.commandPool] (vkDestroy r.commandPool) r with commandPool := none }

/-- `destroy` up to its call of `clear_command_buffers`. -/
def destroyHandleSteps : List (VulkanRenderer → VulkanRenderer) := [
  fun r => r.use r.device, freeDescriptorSet, destroyDescriptorPool, freeCommandBuffers,
  destroyStagingBuffer, freeOneTimeBuffer, destroyPipelineLayout, destroyPipeline, destroySampler,
  destroyDepthView, destroyDepthImage]

def destroyHandles (r : VulkanRenderer) : VulkanRenderer :=
  destroyHandleSteps.foldl (fun r step => step r) r

/-- `destroy` up to `if (! isRenderOnly)`; the loop over the cleared views does nothing. -/
def destroyRenderPart (r : VulkanRenderer) : VulkanRenderer :=
  r.destroyHandles.clearCommandBuffers.destroyFramebuffer.destroySwapchain.destroyCommandPool

def destroyDebugReport (p : Platform) (r : VulkanRenderer) : VulkanRenderer :=
  if p.debug then
    let r := r.use r.vkInstance
    if r.vkInstance.isSome && p.destroyDebugReportFunction then
      match r.debugReport with
      | none => { r with objects := r.objects.log .indeterminate }
      | some h => { r with objects := (r.objects.use r.vkInstance).destroy (some h) }
    else r
  else r

def destroyDevice (r : VulkanRenderer) : VulkanRenderer :=
  { r with objects := r.objects.destroy r.device, device := none }

def destroyAllocator (r : VulkanRenderer) : VulkanRenderer :=
  { r with objects := r.objects.destroy r.vmaAllocator, vmaAllocator := none }

def destroy (p : Platform) (isRenderOnly : Bool) (r : VulkanRenderer) : VulkanRenderer :=
  let r := destroyRenderPart r
  if isRenderOnly then r
  else destroyAllocator (destroyInstance (destroyDevice (destroyDebugReport p r)))

/-! ### The whole of `create`, `recreate` and `render` -/

/-- The steps up to the device, whose clean-up differs. -/
def deviceSteps (p : Platform) (a : DriverAnswers) : List (Attempt VulkanRenderer) := [
  .result a.isAssetDir,
  createInstance p a,
  createSurface a,
  getPhysicalDevice a,
  (getQueueFamilies a).onFailure destroyInstance,
  (createLogicalDevice a).onFailure destroyInstance]

/-- The steps behind the device, each with `destroy()` behind a failure. -/
def renderSteps (a : DriverAnswers) : List (Attempt VulkanRenderer) := [
  createAllocator a,
  createSwapchain a,
  createDepthBuffer a,
  createRenderPass a,
  createFramebuffers a,
  createCommandBuffersAndPool a,
  createCameraTexDescriptor a,
  createCameraTexture a,
  createCameraVertexBuffer a,
  createPipeline a,
  recordDefaultCommands a]

def createSteps (p : Platform) (a : DriverAnswers) : List (Attempt VulkanRenderer) :=
  deviceSteps p a ++ (renderSteps a).map fun step => step.onFailure (destroy p false)

def create (p : Platform) (a : DriverAnswers) : Attempt VulkanRenderer := .all (createSteps p a)

def recreate (a : DriverAnswers) : Attempt VulkanRenderer := .all [
  createSwapchain a,
  createRenderPass a,
  createFramebuffers a,
  createCommandBuffersAndPool a,
  createCameraTexDescriptor a,
  createCameraTexture a,
  createPipeline a]

/-- The staging buffer of `update_camera_texture`, created when it is not there or not mapped. -/
def stageBuffer (a : RenderAnswers) : Attempt VulkanRenderer := fun r =>
  let r := r.useAll [r.vmaAllocator, r.stagingBuffer]
  if r.stagingBuffer.isNone || a.mapMemory ≠ .success then
    vmaCreate a.createStagingBuffer (fun h r => { r with stagingBuffer := h }) r
  else (true, r)

def useUpload (r : VulkanRenderer) : VulkanRenderer :=
  r.useAll [r.oneTimeBuffer, r.stagingBuffer, r.cameraTextureImage]

/-- `update_camera_texture`; the results of the one time command are not looked at. -/
def updateCameraTexture (a : RenderAnswers) : Attempt VulkanRenderer := .all [
  stageBuffer a,
  .act (fun r => (beginSingleCommand a.upload r).2),
  .act useUpload,
  .act (fun r => (endSingleCommand a.upload r).2)]

/-- What `render` returns, and the image index of the commands it has submitted. -/
structure Rendered where
  result : Bool
  submitted : Option ℕ
  renderer : VulkanRenderer

/-- What is submitted for the image `index`. The references to the fence and the semaphores are
those to the elements at `current_index`. -/
def useSubmitted (r : VulkanRenderer) (index : ℕ) : VulkanRenderer :=
  let complete := r.objects.read r.renderCompleteSemaphores r.currentIndex
  let buffer := complete.2.read (r.commandBuffers.map CommandBuffer.handle) index
  let available := buffer.2.read r.frameAvailableSemaphores r.currentIndex
  let fence := available.2.read r.cameraFences r.currentIndex
  let recorded := ((r.commandBuffers[index]?).bind CommandBuffer.recorded).getD []
  { r with
    objects := fence.2.useAll
      (r.graphicsQueue :: buffer.1 :: available.1 :: complete.1 :: fence.1 :: recorded) }

def present (p : Platform) (a : RenderAnswers) (index : ℕ) (r : VulkanRenderer) : Rendered :=
  let complete := r.objects.read r.renderCompleteSemaphores r.currentIndex
  let r := { r with
    objects := complete.2.useAll [r.presentQueue, r.swapchain, complete.1]
    currentIndex := uint32 (r.currentIndex + 1) % r.swapchainLen }
  match a.queuePresent with
  | .success => ⟨true, some index, r⟩
  | .suboptimal => ⟨true, some index, r⟩
  | .outOfDate =>
    let recreated := recreate a.presentRecreation (destroy p true r)
    ⟨recreated.1, some index, recreated.2⟩
  | .error => ⟨false, some index, r⟩

def submit (p : Platform) (a : RenderAnswers) (index : ℕ) (r : VulkanRenderer) : Rendered :=
  let r := ((updateCameraTexture a r).2).useSubmitted index
  if a.queueSubmit = .success then present p a index r else ⟨false, some index, r⟩

def useFence (r : VulkanRenderer) : VulkanRenderer :=
  let fence := r.objects.read r.cameraFences r.currentIndex
  { r with objects := fence.2.useAll [r.device, fence.1] }

def useAcquire (r : VulkanRenderer) : VulkanRenderer :=
  let available := r.objects.read r.frameAvailableSemaphores r.currentIndex
  { r with objects := available.2.useAll [r.device, r.swapchain, available.1] }

def noImage : ℕ := 2 ^ 32 - 1

def render (p : Platform) (a : RenderAnswers) (r : VulkanRenderer) : Rendered :=
  if !a.isFrame then ⟨false, none, r⟩
  else if a.waitForFences ≠ .success then ⟨false, none, r.useFence⟩
  else if a.resetFences ≠ .success then ⟨false, none, r.useFence⟩
  else
    let r := r.useFence.useAcquire
    match a.acquireNextImage with
    | .success => submit p a a.imageIndex r
    | .suboptimal => submit p a a.imageIndex r
    | .outOfDate =>
      let recreated := recreate a.acquireRecreation (destroy p true r)
      -- The index is still that of no image.
      if recreated.1 then submit p a noImage recreated.2 else ⟨false, none, recreated.2⟩
    | .error => ⟨false, none, r⟩

/-- The destructor. -/
def delete (p : Platform) (r : VulkanRenderer) : VulkanRenderer := destroy p false r

/-- A new renderer, `create` and the destructor, which `make_vulkan_renderer` calls at once when
`create` fails. -/
def createAndDelete (p : Platform) (a : DriverAnswers) : VulkanRenderer :=
  delete p (create p a {}).2

end VulkanRenderer

end ARArch

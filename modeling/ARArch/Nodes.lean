import ARArch.Requests
import ARArch.Detections
import ARArch.FaceOverlays
import ARArch.VulkanTools

/-!
# The nodes in detail

Detectors, trackers and render nodes with all that they do to their frame: the claim flags, the
busy flags, and the colour data, which is a Java array that JNI gives out and takes back. A node
runs alone here, so that a call on the repository is one step.

What comes from outside during one run of a node stands in a `World`: whether the JNI environment
and the array can be had, what is detected, what Vulkan answers. A run asks for each of these once
at most. An exception that OpenCV throws is caught and logged, and the run goes on with an empty
image or without a face. `TBBTimedTest::spin` reads pixels until its time is over, which changes
nothing and is left out, and so are the statistics of `TBBBenchmarkRender`. The renderers of the
repository are all multi-threaded.
-/

namespace ARArch

open Atomic

inductive JniEnv
  | null
  | valid
  | wild
  deriving DecidableEq

inductive Eye
  | own
  | twin
  deriving DecidableEq

inductive VulkanCall
  | waitForFences
  | resetFences
  | acquireNextImage
  | queueSubmit
  | queuePresent
  | mapMemory
  | createBuffer
  deriving DecidableEq

/-- What a node is answered from outside in one run. -/
structure World where
  getEnv : Eye → Bool := fun _ => true
  /-- `getEnv` succeeds when the data is given back without an environment. -/
  getEnvAgain : Eye → Bool := fun _ => true
  /-- `GetPrimitiveArrayCritical` gives the array, not null. -/
  array : Eye → Bool := fun _ => true
  uninitialised : JniEnv := .null
  /-- The time stamps of the tags that are found, unless the detector returns null. -/
  tags : Eye → Option (List ℤ) := fun _ => none
  face : Option ℤ := none
  visits : List ℕ := []
  /-- No exception is thrown while the overlay is copied. -/
  isCopied : Bool := true
  isInitialized : Bool := true
  mustTerminate : Bool := false
  vulkan : VulkanCall → VkResult := fun _ => .success
  /-- `recreate` succeeds after a call has found the swapchain out of date. -/
  recreate : VulkanCall → Bool := fun _ => true
  isStaged : Bool := true
  hasStagingBuffer : Bool := true
  texsize : ℕ := 4
  options : RendererOptions := ⟨false, false⟩
  isOverlay : Bool := false
  now : ℤ := 0
  faceNow : ℤ := 0

/-- The flags behind `is_detecting` and `is_tracking`: one for all simulations, one for a camera
and a kind of detector, and one in each tracker object. -/
inductive BusyFlag
  | simulation
  | aprilTag (camera : CameraId)
  | face (camera : CameraId)
  | faceOverlay (camera : CameraId)
  | tracker (object : ℕ)
  deriving DecidableEq

/-- `crash` follows a pointer that leads nowhere. -/
inductive NodeOp
  | call (q : Request)
  | storeBusy (b : BusyFlag) (v : Bool)
  | exchangeBusy (b : BusyFlag)
  | addAcquires (frame : FrameRef) (n : ℤ)
  | detections (c : RendererOptions) (q : DetectionRequest)
  | overlay (i : OverlayOp)
  | exchangeRendering
  | storeRendering (v : Bool)
  | crash

@[reducible] def NodeOp.Ans : NodeOp → Type
  | call q => q.Ans
  | exchangeBusy _ | exchangeRendering => Bool
  | detections _ q => q.Ans
  | overlay i => i.Ans
  | _ => Unit

structure NodeMemory where
  repo : Repository
  busy : BusyFlag → Bool := fun _ => false
  acquires : FrameRef → ℤ := fun _ => 0
  isRendering : Bool := false
  detections : Detections := {}
  overlays : OverlayMemory := {}

namespace NodeMemory

/-- `exchangeBusy` and `exchangeRendering` are `compare_exchange_strong(false, true)`. -/
def exec : (i : NodeOp) → NodeMemory → Option (i.Ans × NodeMemory)
  | .call q, m => (m.repo.respond q).map (fun p => (p.1, { m with repo := p.2 }))
  | .storeBusy b v, m => some ((), { m with busy := Function.update m.busy b v })
  | .exchangeBusy b, m => some (!m.busy b, { m with busy := Function.update m.busy b true })
  | .addAcquires f n, m =>
    some ((), { m with acquires := Function.update m.acquires f (m.acquires f + n) })
  | .detections c q, m =>
    (Detections.respond c q m.detections).map (fun p => (p.1, { m with detections := p.2 }))
  | .overlay i, m =>
    (OverlayMemory.exec true i m.overlays).map (fun p => (p.1, { m with overlays := p.2 }))
  | .exchangeRendering, m => some (!m.isRendering, { m with isRendering := true })
  | .storeRendering v, m => some ((), { m with isRendering := v })
  | .crash, _ => none

end NodeMemory

abbrev NodeCall (α : Type) := Prog NodeOp NodeOp.Ans α

namespace NodeCall

abbrev perform (i : NodeOp) : NodeCall i.Ans := Prog.perform i

abbrev call (q : Request) : NodeCall q.Ans := perform (.call q)

abbrev overlay {α : Type} (p : OverlayCall α) : NodeCall α := p.embed .overlay (fun _ r => r)

variable (w : World)

/-! ### Colour data -/

/-- The data are there or null, and `context` is what the variable `env` contains. -/
def getColorData (e : Eye) (frame : FrameRef) (context : JniEnv) : NodeCall (Bool × JniEnv) :=
  if w.getEnv e then do
    perform (.addAcquires frame 1)
    pure (w.array e, .valid)
  else pure (false, context)

def releaseColorData (e : Eye) (frame : FrameRef) (context : JniEnv) : NodeCall Unit :=
  match context with
  | .null => if w.getEnvAgain e then perform (.addAcquires frame (-1)) else pure ()
  | .valid => perform (.addAcquires frame (-1))
  | .wild => perform .crash

/-- Get the data, look at them and give them back, in the variable `env` that `context` is the
content of. -/
def withColorData (e : Eye) (frame : FrameRef) (context : JniEnv) (use : NodeCall Unit) :
    NodeCall JniEnv := do
  let p ← getColorData w e frame context
  use
  releaseColorData w e frame p.2
  pure p.2

def spin (b : BusyFlag) (frame : FrameRef) : NodeCall Bool := do
  let p ← getColorData w .own frame w.uninitialised
  if p.1 then do
    if ← perform (.exchangeBusy b) then do
      releaseColorData w .own frame p.2
      perform (.storeBusy b false)
      pure true
    else do
      releaseColorData w .own frame p.2
      pure false
  else pure true

/-! ### Detectors and trackers -/

/-- The end of a detector or a tracker: give the claim up and delete the frame. -/
def letGo (u : Consumer) (camera : CameraId) (seqno : SeqNo) (frame : FrameRef) :
    NodeCall Unit := do
  call (.setFlag frame u false)
  call (.deleteFrame camera seqno)

def consume (u : Consumer) (camera : CameraId) (seqno : SeqNo) (use : FrameRef → NodeCall Unit) :
    NodeCall SeqNo := do
  match ← call (.getFrame camera seqno) with
  | none => pure seqno
  | some frame => do
    use frame
    letGo u camera seqno frame
    pure seqno

def simulationDetector (camera1Id : CameraId) (seqno : SeqNo) : NodeCall SeqNo :=
  consume .detector camera1Id seqno (fun frame => do
    let _ ← spin w .simulation frame
    pure ())

def timeTestTracker (object : ℕ) (cameraId : CameraId) (seqno : SeqNo) : NodeCall SeqNo :=
  consume .tracker cameraId seqno (fun frame => do
    let _ ← spin w (.tracker object) frame
    pure ())

def nullDetector (cameraId : CameraId) (seqno : SeqNo) : NodeCall SeqNo :=
  consume .detector cameraId seqno (fun _ => pure ())

def nullTracker (cameraId : CameraId) (seqno : SeqNo) : NodeCall SeqNo :=
  consume .tracker cameraId seqno (fun _ => pure ())

/-- What `FaceTBBDetector` does with a face. -/
def publishFace (seqno : SeqNo) : NodeCall Unit :=
  match w.face with
  | none => pure ()
  | some timestamp => do
    perform (.detections w.options (.insertFaceDetection seqno timestamp))
    perform (.detections w.options (.push .face seqno))

/-- What `FaceOverlayTBBDetector` does with a face. -/
def publishOverlay (seqno : SeqNo) : OverlayCall Unit :=
  match w.face with
  | none => pure ()
  | some _ => do
    let current ← OverlayCall.perform .loadCurrentRenderOverlay
    let dels ← OverlayCall.deleteOld (OverlayCall.delSeq current) w.visits 0 []
    Prog.forEach (fun sn => OverlayCall.perform (.erase sn)) dels
    if w.isCopied then do
      OverlayCall.perform (.insertNew seqno)
      OverlayCall.perform (.storeLastFaceOverlay seqno)
    else pure ()

/-- A face detector sets its busy flag only once it has its frame. -/
def lookForFace (b : BusyFlag) (publish : NodeCall Unit) (frame : FrameRef) : NodeCall Unit := do
  perform (.storeBusy b true)
  let _ ← withColorData w .own frame w.uninitialised publish
  perform (.storeBusy b false)

def faceDetector (cameraId : CameraId) (seqno : SeqNo) : NodeCall SeqNo :=
  consume .detector cameraId seqno (lookForFace w (.face cameraId) (publishFace w seqno))

def faceOverlayDetector (cameraId : CameraId) (seqno : SeqNo) : NodeCall SeqNo :=
  consume .detector cameraId seqno
    (lookForFace w (.faceOverlay cameraId) (overlay (publishOverlay w seqno)))

def publishTags (seqno : SeqNo) : NodeCall Unit :=
  match w.tags .own with
  | none => pure ()
  | some timestamps => do
    perform (.detections w.options (.insertAprilTags seqno timestamps))
    perform (.detections w.options (.push .aprilTag seqno))

def lookAtTwin (camera1Id : CameraId) (seqno : SeqNo) (env : JniEnv) : NodeCall Unit := do
  match ← call (.stereoTwin camera1Id seqno) with
  | none => pure ()
  | some (camera2, seqno2) => do
    match ← call (.getFrame camera2 seqno2) with
    | none => pure ()
    | some frame2 => do
      let _ ← withColorData w .twin frame2 env (pure ())
      pure ()

/-- The second camera's frame is looked up under the number of the first camera's, and the claim
given up is once more that of the first. -/
def deleteSecond (camera2Id : CameraId) (seqno : SeqNo) (frame : FrameRef) : NodeCall Unit :=
  if camera2Id = noCamera then pure ()
  else do
    match ← call (.getFrame camera2Id seqno) with
    | none => pure ()
    | some _ => letGo .detector camera2Id seqno frame

def aprilTagDetector (camera1Id camera2Id : CameraId) (seqno : SeqNo) : NodeCall SeqNo := do
  match ← call (.getFrame camera1Id seqno) with
  | none => pure seqno
  | some frame => do
    perform (.storeBusy (.aprilTag camera1Id) true)
    let env ← withColorData w .own frame w.uninitialised (pure ())
    publishTags w seqno
    lookAtTwin w camera1Id seqno env
    letGo .detector camera1Id seqno frame
    deleteSecond camera2Id seqno frame
    perform (.storeBusy (.aprilTag camera1Id) false)
    pure seqno

/-! ### Rendering -/

def draw : NodeCall Unit := do
  let _ ← perform (.detections w.options (.draw w.now w.faceNow))
  if w.isOverlay then overlay OverlayCall.draw else pure ()

/-- Copying from null crashes unless there is nothing to copy. -/
def copyTexture (frame : FrameRef) : NodeCall Unit := do
  let p ← getColorData w .own frame w.uninitialised
  if p.1 = false ∧ w.texsize ≠ 0 then perform .crash
  else do
    draw w
    releaseColorData w .own frame p.2

def lacksStaging : Bool :=
  (!w.hasStagingBuffer || w.vulkan .mapMemory != .success) && w.vulkan .createBuffer != .success

def updateCameraTexture (frame : FrameRef) : NodeCall Bool :=
  if w.isStaged && lacksStaging w then pure false
  else do
    copyTexture w frame
    pure true

def hasSwapchain (c : VulkanCall) : Bool :=
  match w.vulkan c with
  | .success | .suboptimal => true
  | .outOfDate => w.recreate c
  | .error => false

def renderFrame (frame : FrameRef) : NodeCall Bool := do
  call (.setFlag frame .renderer false)
  if w.vulkan .waitForFences ≠ .success then pure false
  else if w.vulkan .resetFences ≠ .success then pure false
  else if hasSwapchain w .acquireNextImage = false then pure false
  else do
    let _ ← updateCameraTexture w frame
    -- Behind `recreate` the image index is still `UINT32_MAX`, that of no command buffer.
    if w.vulkan .acquireNextImage = .outOfDate then do
      perform .crash
      pure false
    else if w.vulkan .queueSubmit ≠ .success then pure false
    else pure (hasSwapchain w .queuePresent)

/-- `VulkanRenderer::render`; the scope guard `renderEnd` runs on every return. -/
def render (seqno : SeqNo) (cameraNo : CameraId) : NodeCall Bool := do
  let isRendered ← do
    match ← call (.getFrame cameraNo seqno) with
    | none => pure false
    | some frame => renderFrame w frame
  perform (.storeRendering false)
  call (.deleteFrame cameraNo seqno)
  pure isRendered

/-- What `TBBRender` and `TBBBenchmarkRender` begin with. -/
def cannotRender (seqno : SeqNo) : Bool := seqno == 0 || !w.isInitialized || w.mustTerminate

def tbbRender (cameraId : CameraId) (seqno : SeqNo) : NodeCall SeqNo :=
  if cannotRender w seqno then do
    call (.deleteFrame cameraId seqno)
    pure seqno
  else do
    if ← perform .exchangeRendering then do
      let _ ← render w seqno cameraId
      pure seqno
    else do
      call (.deleteFrame cameraId seqno)
      pure seqno

def tbbBenchmarkRender (cameraId : CameraId) (seqno : SeqNo) : NodeCall SeqNo :=
  if cannotRender w seqno then do
    call (.deleteFrame cameraId seqno)
    pure seqno
  else do
    if ← perform .exchangeRendering then do
      match ← call (.getFrame cameraId seqno) with
      | none => do
        perform (.storeRendering false)
        pure seqno
      | some _ => do
        let _ ← render w seqno cameraId
        pure seqno
    else do
      call (.deleteFrame cameraId seqno)
      pure seqno

def tbbNullRenderer (mustDelete : Bool) (cameraId : CameraId) (seqno : SeqNo) : NodeCall SeqNo :=
  if mustDelete then do
    call (.deleteFrame cameraId seqno)
    pure seqno
  else pure seqno

end NodeCall

inductive Node
  | simulation (camera1Id : CameraId)
  | aprilTag (camera1Id camera2Id : CameraId)
  | face (cameraId : CameraId)
  | faceOverlay (cameraId : CameraId)
  | nullDetector (cameraId : CameraId)
  | timeTest (object : ℕ) (cameraId : CameraId)
  | nullTracker (cameraId : CameraId)
  deriving DecidableEq

namespace Node

def program (w : World) : Node → SeqNo → NodeCall SeqNo
  | simulation camera1Id => NodeCall.simulationDetector w camera1Id
  | aprilTag camera1Id camera2Id => NodeCall.aprilTagDetector w camera1Id camera2Id
  | face cameraId => NodeCall.faceDetector w cameraId
  | faceOverlay cameraId => NodeCall.faceOverlayDetector w cameraId
  | nullDetector cameraId => NodeCall.nullDetector cameraId
  | timeTest object cameraId => NodeCall.timeTestTracker w object cameraId
  | nullTracker cameraId => NodeCall.nullTracker cameraId

def camera : Node → CameraId
  | simulation c | aprilTag c _ | face c | faceOverlay c | nullDetector c | timeTest _ c
  | nullTracker c => c

def consumer : Node → Consumer
  | timeTest _ _ | nullTracker _ => .tracker
  | _ => .detector

/-- `is_detecting()` of a detector, `is_tracking()` of a tracker. -/
def isBusy (m : NodeMemory) : Node → Bool
  | simulation _ => m.busy .simulation
  | aprilTag c _ => m.busy (.aprilTag c)
  | face c => m.busy (.face c)
  | faceOverlay c => m.busy (.faceOverlay c)
  | timeTest object _ => m.busy (.tracker object)
  | nullDetector _ | nullTracker _ => false

end Node

inductive RenderNode
  | standard
  | benchmark
  | null (mustDelete : Bool)
  deriving DecidableEq

def RenderNode.program (w : World) : RenderNode → CameraId → SeqNo → NodeCall SeqNo
  | standard => NodeCall.tbbRender w
  | benchmark => NodeCall.tbbBenchmarkRender w
  | null mustDelete => NodeCall.tbbNullRenderer mustDelete

abbrev NodeCall.alone {α : Type} (p : NodeCall α) (m : NodeMemory) : Option (α × NodeMemory) :=
  Prog.run (fun i => NodeMemory.exec i) p m

end ARArch

import ARArch.Blocks
import ARArch.FramesInFlight

/-!
# The images of a frame handler

`CPUFrameHandler` takes an image from its reader in each callback, and the reader gives out two at
most before one is closed. The `finally` of `onImageAvailable` closes the image, and in the branch
for NV21 it is closed earlier and forgotten. But the camera may be stopping, or there may be too
many frames in flight, and then the callback returns before the `try` begins.
-/

namespace ARArch

/-- `java.lang.Exception`, `OutOfMemoryError` and the other errors. -/
inductive Throwable
  | exception
  | outOfMemoryError
  | error
  deriving DecidableEq

def Throwable.isException (th : Throwable) : Bool := th = .exception

def Throwable.isOutOfMemoryError (th : Throwable) : Bool := th = .outOfMemoryError

/-- An `ImageReader`, with the images it has given out and that are not closed, and every call of
`close`, the latest first. -/
structure ImageReader where
  acquired : List ℕ := []
  /-- The number of images given out so far, which names the next one. -/
  made : ℕ := 0
  closes : List ℕ := []

namespace ImageReader

def maxImages : ℕ := 2

def close (reader : ImageReader) (image : ℕ) : ImageReader :=
  { reader with acquired := reader.acquired.erase image, closes := image :: reader.closes }

/-- Give out the next image. -/
def giveOut (reader : ImageReader) : ImageReader :=
  { reader with acquired := reader.made :: reader.acquired, made := reader.made + 1 }

/-- No image is held, and each that was given out was closed once. -/
structure AllClosed (reader : ImageReader) : Prop where
  acquired : reader.acquired = []
  closed : ∀ image, reader.closes.count image = if image < reader.made then 1 else 0

end ImageReader

/-- A `CPUFrameHandler`, and the variable `image` of the callback that runs. -/
structure CPUFrameHandler where
  imgReader : ImageReader := {}
  isStopInit : Bool := false
  lastFrameTime : ℤ := 0
  image : Option ℕ := none

/-- What the calls and properties used by a callback give. -/
structure CallbackAnswers where
  /-- There is an image, if the reader may give one out. -/
  acquired : Except Throwable Bool
  isStopping : Bool
  stopCamera : Except Throwable Unit
  inFlight : Except Throwable ℤ
  queueSize : ℤ
  elapsedRealtimeNanos : Except Throwable ℤ
  /-- The planes and the size of the image. -/
  planes : Except Throwable Unit
  /-- The buffers of the planes, and for YUV the copies out of them. -/
  buffers : Except Throwable Unit
  /-- The arrays for the colours and the greys. -/
  allocation : Except Throwable Unit
  clearQueue : Except Throwable Bool
  enqueueYUV : Except Throwable Bool
  convertNV21 : Except Throwable Bool
  enqueue : Except Throwable Bool

/-- The statements of a callback. -/
abbrev HandlerBlock := Block Throwable CPUFrameHandler Unit

namespace CPUFrameHandler

open Block

/-- The handler has got an image. -/
def received (h : CPUFrameHandler) : CPUFrameHandler :=
  { h with imgReader := h.imgReader.giveOut, image := some h.imgReader.made }

/-- `imgReader.acquireLatestImage()`, assigned to `image`. -/
def acquireLatestImage (env : CallbackAnswers) : HandlerBlock := do
  let h ← get
  if h.imgReader.acquired.length < ImageReader.maxImages then
    let available ← call env.acquired
    if available then modify received else modify (fun h => { h with image := none })
  else call (.error .exception)

/-- `image?.close()`. -/
def closeImage : HandlerBlock :=
  modify (fun h => match h.image with
    | some image => { h with imgReader := h.imgReader.close image }
    | none => h)

def forgetImage : HandlerBlock := modify (fun h => { h with image := none })

/-- What is done when the camera is stopping. -/
def stopInit (env : CallbackAnswers) : HandlerBlock := do
  let h ← get
  if h.isStopInit then pure ()
  else do
    catching Throwable.isException (call env.stopCamera) (fun _ => pure ())
    modify (fun h => { h with isStopInit := true })

/-- The arrays for the colours and the greys; without memory the queue is cleared. -/
def allocate (env : CallbackAnswers) : HandlerBlock :=
  catching Throwable.isOutOfMemoryError (call env.allocation) (fun _ => do
    let _ ← call env.clearQueue
    leave)

/-- The branch for `YUV_420_888`. -/
def enqueueYUVImage (env : CallbackAnswers) : HandlerBlock := do
  call env.buffers
  allocate env
  let _ ← call env.enqueueYUV
  pure ()

/-- The branch for `NV21`. -/
def enqueueNV21Image (env : CallbackAnswers) : HandlerBlock := do
  call env.buffers
  allocate env
  closeImage
  forgetImage
  let _ ← call env.convertNV21
  let _ ← call env.enqueue
  pure ()

/-- The statements of the `try`. -/
def processImage (inputFormat : HandlerCall.ImageFormat) (env : CallbackAnswers) :
    HandlerBlock := do
  call env.planes
  match inputFormat with
  | .yuv420888 => enqueueYUVImage env
  | .nv21 => enqueueNV21Image env
  | .other => pure ()

/-- The callback once there is an image. -/
def handleImage (inputFormat : HandlerCall.ImageFormat) (env : CallbackAnswers) :
    HandlerBlock := do
  if env.isStopping then do
    stopInit env
    leave
  else do
    let inFlight ← call env.inFlight
    if env.queueSize < inFlight then leave
    else do
      let ts ← call env.elapsedRealtimeNanos
      finishing (catching (fun _ => true) (processImage inputFormat env) (fun _ => pure ()))
        closeImage
      modify (fun h => { h with lastFrameTime := ts })

def onImageAvailable (inputFormat : HandlerCall.ImageFormat) (env : CallbackAnswers) :
    HandlerBlock := do
  acquireLatestImage env
  let h ← get
  if h.image.isNone then leave
  else handleImage inputFormat env

/-- The handler after callbacks, one after another. -/
def callbacks (inputFormat : HandlerCall.ImageFormat) (h : CPUFrameHandler)
    (run : List CallbackAnswers) : CPUFrameHandler :=
  run.foldl (fun h env => after (onImageAvailable inputFormat env) h) h

end CPUFrameHandler

/-- The callback reaches its `try`. -/
def CallbackAnswers.proceeds (env : CallbackAnswers) : Bool :=
  !env.isStopping && env.inFlight.toOption.any (fun n => n ≤ env.queueSize) &&
    env.elapsedRealtimeNanos.toOption.isSome

theorem CallbackAnswers.proceeds_iff {env : CallbackAnswers} : env.proceeds = true ↔
    env.isStopping = false ∧ (∃ n, env.inFlight = .ok n ∧ n ≤ env.queueSize) ∧
      ∃ ts, env.elapsedRealtimeNanos = .ok ts := by
  unfold proceeds
  cases env.isStopping <;> cases env.inFlight <;> cases env.elapsedRealtimeNanos <;>
    simp [Except.toOption]

namespace CPUFrameHandler

open Block

variable {inputFormat : HandlerCall.ImageFormat} {env : CallbackAnswers} {h : CPUFrameHandler}
  {reader : ImageReader}

/-- The image that a reader gave out last is held by the variable, or it was closed and
forgotten. -/
structure Holds (reader : ImageReader) (h : CPUFrameHandler) : Prop where
  made : h.imgReader.made = reader.made + 1
  image : h.image = some reader.made ∧ h.imgReader.acquired = [reader.made] ∧
      h.imgReader.closes = reader.closes ∨
    h.image = none ∧ h.imgReader.acquired = [] ∧
      h.imgReader.closes = reader.made :: reader.closes

theorem acquireLatestImage_image (hempty : h.imgReader.acquired = [])
    (henv : env.acquired = .ok true) : acquireLatestImage env h = .ok () h.received := by
  change (if h.imgReader.acquired.length < ImageReader.maxImages then
    (call env.acquired >>= fun available =>
      if available then modify received else modify (fun h => { h with image := none }) :
        HandlerBlock)
    else call (.error .exception)) h = _
  rw [hempty, if_pos (by decide), henv]
  rfl

theorem after_onImageAvailable_image (hempty : h.imgReader.acquired = [])
    (henv : env.acquired = .ok true) :
    after (onImageAvailable inputFormat env) h =
      after (handleImage inputFormat env) h.received := by
  unfold onImageAvailable
  rw [after_bind_of_ok (acquireLatestImage_image hempty henv)]
  rfl

/-- Without an image the reader stays as it is. -/
theorem after_onImageAvailable_none (hempty : h.imgReader.acquired = [])
    (henv : env.acquired ≠ .ok true) :
    (after (onImageAvailable inputFormat env) h).imgReader = h.imgReader := by
  have hrun : acquireLatestImage env h =
      (call env.acquired >>= fun available =>
        if available then modify received else modify (fun h => { h with image := none }) :
          HandlerBlock) h := by
    change (if h.imgReader.acquired.length < ImageReader.maxImages then _
      else call (.error .exception) : HandlerBlock) h = _
    rw [hempty, if_pos (by decide)]
  unfold onImageAvailable
  cases ha : env.acquired with
  | error th =>
      rw [ha] at hrun
      have herror : acquireLatestImage env h = .error (.thrown th) h := hrun
      rw [after_bind_of_error herror]
  | ok available =>
      cases available with
      | true => exact absurd ha henv
      | false =>
          rw [ha] at hrun
          have hnone : acquireLatestImage env h = .ok () { h with image := none } := hrun
          rw [after_bind_of_ok hnone]
          rfl

/-! ### The statements of the `try` -/

theorem holds_received (hempty : h.imgReader.acquired = []) : Holds h.imgReader h.received where
  made := rfl
  image := by
    refine .inl ⟨rfl, ?_, rfl⟩
    change h.imgReader.made :: h.imgReader.acquired = _
    rw [hempty]

theorem allocate_keeps : Keeps (Holds reader) (allocate env) :=
  .catching (.call _) (fun _ => .bind (.call _) (fun _ => .leave))

theorem enqueueYUVImage_keeps : Keeps (Holds reader) (enqueueYUVImage env) := by
  refine .bind (.call _) (fun _ => .bind allocate_keeps (fun _ => ?_))
  exact .bind (.call _) (fun _ => .pure ())

/-- What `image?.close()` leaves. -/
def closedImage (h : CPUFrameHandler) : CPUFrameHandler :=
  after closeImage h

theorem closedImage_reader (hh : Holds reader h) :
    h.closedImage.imgReader =
      { acquired := [], made := reader.made + 1, closes := reader.made :: reader.closes } := by
  obtain ⟨imgReader, isStopInit, lastFrameTime, image⟩ := h
  obtain ⟨acquired, made, closes⟩ := imgReader
  obtain ⟨hmade, ⟨himage, hacquired, hcloses⟩ | ⟨himage, hacquired, hcloses⟩⟩ := hh
  · dsimp only at hmade himage hacquired hcloses
    subst hmade himage hacquired hcloses
    simp [closedImage, closeImage, ImageReader.close]
  · dsimp only at hmade himage hacquired hcloses
    subst hmade himage hacquired hcloses
    rfl

/-- In the branch for `NV21` the image is closed, and then forgotten. -/
theorem close_and_forget_keeps {f : HandlerBlock} (hf : Keeps (Holds reader) f) :
    Keeps (Holds reader) (closeImage >>= fun _ => forgetImage >>= fun _ => f) := by
  intro h hh
  have hreader := closedImage_reader hh
  refine hf { h.closedImage with image := none } ⟨?_, .inr ⟨rfl, ?_, ?_⟩⟩
  · rw [hreader]
  · rw [hreader]
  · rw [hreader]

theorem enqueueNV21Image_keeps : Keeps (Holds reader) (enqueueNV21Image env) := by
  refine .bind (.call _) (fun _ => .bind allocate_keeps (fun _ => close_and_forget_keeps ?_))
  exact .bind (.call _) (fun _ => .bind (.call _) (fun _ => .pure ()))

theorem processImage_keeps : Keeps (Holds reader) (processImage inputFormat env) := by
  refine .bind (.call _) (fun _ => ?_)
  cases inputFormat with
  | yuv420888 => exact enqueueYUVImage_keeps
  | nv21 => exact enqueueNV21Image_keeps
  | other => exact .pure ()

/-! ### A callback -/

theorem stopInit_keeps {reader : ImageReader} :
    Keeps (fun h => h.imgReader = reader) (stopInit env) := by
  intro h hreader
  unfold stopInit
  rw [after_get_bind]
  split_ifs
  · exact hreader
  · have hkeeps : Keeps (fun h : CPUFrameHandler => h.imgReader = reader)
        (do
          catching Throwable.isException (call env.stopCamera) (fun _ => pure ())
          modify (fun h => { h with isStopInit := true }) : HandlerBlock) :=
      .bind (.catching (.call _) (fun _ => .pure ())) (fun _ => .modify (fun _ hr => hr))
    exact hkeeps h hreader

/-- A callback that does not reach its `try` closes nothing. -/
theorem handleImage_leaves (hp : env.proceeds = false) :
    (after (handleImage inputFormat env) h).imgReader = h.imgReader := by
  unfold handleImage
  cases hstop : env.isStopping with
  | true =>
      rw [if_pos rfl, after_bind_of_still (fun _ _ => rfl)]
      exact stopInit_keeps h rfl
  | false =>
      rw [if_neg Bool.false_ne_true]
      cases hflight : env.inFlight with
      | error th => rfl
      | ok inFlight =>
          rw [after_call_ok_bind]
          by_cases hfull : env.queueSize < inFlight
          · rw [if_pos hfull]
            rfl
          · rw [if_neg hfull]
            cases hnow : env.elapsedRealtimeNanos with
            | error th => rfl
            | ok ts =>
                have hyes : env.proceeds = true :=
                  CallbackAnswers.proceeds_iff.mpr
                    ⟨hstop, ⟨inFlight, hflight, not_lt.mp hfull⟩, ts, hnow⟩
                rw [hyes] at hp
                cases hp

/-- The time of the last frame is written after the reader has been left. -/
theorem after_bind_modify_reader (b : HandlerBlock) (ts : ℤ) :
    (after (b >>= fun _ => modify (fun h => { h with lastFrameTime := ts })) h).imgReader =
      (after b h).imgReader := by
  cases hb : b h with
  | ok a h' =>
      rw [after_bind_of_ok hb, after_of_ok hb]
      rfl
  | error x h' => rw [after_bind_of_error hb, after_of_error hb]

theorem handleImage_closes (hh : Holds reader h) (hp : env.proceeds = true) :
    (after (handleImage inputFormat env) h).imgReader =
      { acquired := [], made := reader.made + 1, closes := reader.made :: reader.closes } := by
  obtain ⟨hstop, ⟨inFlight, hflight, hle⟩, ts, hnow⟩ := CallbackAnswers.proceeds_iff.mp hp
  unfold handleImage
  rw [hstop, if_neg Bool.false_ne_true, hflight, after_call_ok_bind, if_neg (not_lt.mpr hle), hnow,
    after_call_ok_bind, after_bind_modify_reader, after_finishing]
  have hbody : Keeps (Holds reader)
      (catching (fun _ => true) (processImage inputFormat env) (fun _ => pure ())) :=
    .catching processImage_keeps (fun _ => .pure ())
  exact closedImage_reader (hbody h hh)

/-- After a callback every image is closed again if and only if the callback, with an image, reaches
its `try`. -/
theorem callback_closed_iff (hc : h.imgReader.AllClosed) :
    (after (onImageAvailable inputFormat env) h).imgReader.AllClosed ↔
      (env.acquired = .ok true → env.proceeds = true) := by
  by_cases henv : env.acquired = .ok true
  · rw [after_onImageAvailable_image hc.acquired henv]
    have hh : Holds h.imgReader h.received := holds_received hc.acquired
    cases hp : env.proceeds with
    | true =>
        rw [handleImage_closes hh hp]
        refine iff_of_true ⟨rfl, fun image => ?_⟩ (fun _ => rfl)
        have hcount := hc.closed image
        rw [List.count_cons, hcount]
        simp only [beq_iff_eq]
        split_ifs <;> omega
    | false =>
        rw [handleImage_leaves hp]
        refine iff_of_false (fun hclosed => ?_) (fun himp => Bool.false_ne_true (himp henv))
        exact List.cons_ne_nil _ _ hclosed.acquired
  · rw [after_onImageAvailable_none hc.acquired henv]
    exact iff_of_true hc (fun h => absurd h henv)

theorem callbacks_cons (run : List CallbackAnswers) :
    callbacks inputFormat h (env :: run) =
      callbacks inputFormat (after (onImageAvailable inputFormat env) h) run := rfl

/-- In a run the images are closed after every callback if and only if every callback with an image
reaches its `try`. -/
theorem callbacks_closed_iff (run : List CallbackAnswers) (hc : h.imgReader.AllClosed) :
    (∀ k, (callbacks inputFormat h (run.take k)).imgReader.AllClosed) ↔
      ∀ env ∈ run, env.acquired = .ok true → env.proceeds = true := by
  induction run generalizing h with
  | nil =>
      refine iff_of_true (fun k => ?_) (fun env henv => absurd henv List.not_mem_nil)
      rwa [List.take_nil]
  | cons env rest ih =>
      have hstep : (after (onImageAvailable inputFormat env) h).imgReader.AllClosed ↔
          (env.acquired = .ok true → env.proceeds = true) := callback_closed_iff hc
      rw [List.forall_mem_cons, ← hstep]
      constructor
      · intro hall
        have hfirst : (after (onImageAvailable inputFormat env) h).imgReader.AllClosed := by
          have hone := hall 1
          rwa [List.take_succ_cons, callbacks_cons, List.take_zero] at hone
        refine ⟨hfirst, (ih hfirst).mp (fun k => ?_)⟩
        have hnext := hall (k + 1)
        rwa [List.take_succ_cons, callbacks_cons] at hnext
      · rintro ⟨hfirst, hrest⟩ k
        cases k with
        | zero => exact hc
        | succ k =>
            rw [List.take_succ_cons, callbacks_cons]
            exact (ih hfirst).mpr hrest k

end CPUFrameHandler

/-- After every callback of a run every image given out has been closed exactly once, and none is
held, if and only if each callback that gets an image finds the camera not stopping, at most
`queueSize` frames in flight and no exception in asking for them and for the time. -/
theorem images_closed_iff (inputFormat : HandlerCall.ImageFormat) (run : List CallbackAnswers) :
    (∀ k, (CPUFrameHandler.callbacks inputFormat {} (run.take k)).imgReader.AllClosed) ↔
      ∀ env ∈ run, env.acquired = .ok true → env.isStopping = false ∧
        (∃ n, env.inFlight = .ok n ∧ n ≤ env.queueSize) ∧
        ∃ ts, env.elapsedRealtimeNanos = .ok ts := by
  have hstart : ({} : CPUFrameHandler).imgReader.AllClosed := ⟨rfl, fun image => rfl⟩
  rw [CPUFrameHandler.callbacks_closed_iff run hstart]
  simp only [CallbackAnswers.proceeds_iff]

/-- A callback that finds three frames in flight where two may be. -/
def crowdedCallback : CallbackAnswers where
  acquired := .ok true
  isStopping := false
  stopCamera := .ok ()
  inFlight := .ok 3
  queueSize := 2
  elapsedRealtimeNanos := .ok 0
  planes := .ok ()
  buffers := .ok ()
  allocation := .ok ()
  clearQueue := .ok true
  enqueueYUV := .ok true
  convertNV21 := .ok true
  enqueue := .ok true

/-- After two such callbacks the reader has no image left to give. -/
theorem crowded_images_held :
    (CPUFrameHandler.callbacks .yuv420888 {} [crowdedCallback]).imgReader.acquired = [0] ∧
      (CPUFrameHandler.callbacks .yuv420888 {}
        [crowdedCallback, crowdedCallback, crowdedCallback]).imgReader.acquired = [1, 0] ∧
      ¬∀ (inputFormat : HandlerCall.ImageFormat) (run : List CallbackAnswers) (k : ℕ),
        (CPUFrameHandler.callbacks inputFormat {} (run.take k)).imgReader.AllClosed := by
  refine ⟨rfl, rfl, fun h => ?_⟩
  have hclosed := (h .yuv420888 [crowdedCallback] 1).acquired
  exact absurd hclosed (by decide)

end ARArch

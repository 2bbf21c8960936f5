import ARArch.Repository
import ARArch.Sessions

/-!
# Starting the preview of cameras

`MAR` keeps a camera object for each camera it has initialized and a map of the results that the
objects have reported. `startPreview` starts the objects of the cameras that have no result yet,
rear ones first, and then looks for the results of all cameras until it has them or it is late.

It is carried out step by step, since callbacks, `stopPreview` and `initialize` may come between.
`initialize` and `stopPreview` go through a list of cameras; a request is one round of theirs.
Camera objects are named by the order in which they were made.
-/

namespace ARArch

/-- What `MAR` uses of a `HardwareCamera`. -/
structure PreviewCamera where
  isRearFacing : Bool := true
  stopping : Bool := false
  deriving DecidableEq

/-- How far a call of `startPreview` has come. -/
inductive StartCall
  | idle
  /-- In `startCameras`, with the cameras that are still to be started. -/
  | starting (cameraSizes : List CameraId) (cameraList : List (CameraId × ℕ))
  /-- In the loop, with the cameras that this pass has still to look at. -/
  | waiting (cameraSizes pass configured badCameras : List CameraId) (configuredOK : ℕ)
  deriving DecidableEq

structure MAR where
  cameras : Table CameraId ℕ := Table.empty
  objects : ℕ → PreviewCamera := fun _ => {}
  made : ℕ := 0
  isPreviewingReady : Table CameraId Bool := Table.empty
  isPreviewing : Bool := false
  call : StartCall := .idle

/-- What a request does that others can see. -/
inductive PreviewEvent
  | quiet
  /-- The object's `startPreview` is called. -/
  | started (camera : CameraId) (object : ℕ)
  /-- `MAR.startPreview` returns; the cameras that failed are named in `errbuf`. -/
  | returned (isPreviewing : Bool) (badCameras : List CameraId)
  deriving DecidableEq

namespace MAR

variable (mar : MAR)

def setStopping (object : ℕ) (stopping : Bool) : MAR :=
  { mar with objects :=
      Function.update mar.objects object { mar.objects object with stopping := stopping } }

/-- A round of `stopPreview`, which calls `HardwareCamera.stopPreview`. -/
def stopPreview (camera : CameraId) : MAR :=
  match mar.cameras camera with
  | none => mar
  | some object => mar.setStopping object true

/-- The object made last. -/
def makeCamera (isRearFacing : Bool) : MAR :=
  { mar with
    objects := Function.update mar.objects mar.made { isRearFacing := isRearFacing }
    made := mar.made + 1 }

/-- A round of `initialize`, in which the new object can be opened or not. -/
def initializeCamera (camera : CameraId) (opens isRearFacing : Bool) : MAR :=
  let stopped := { mar.stopPreview camera with cameras := mar.cameras.erase camera }
  let renewed := stopped.makeCamera isRearFacing
  if opens then { renewed with cameras := renewed.cameras.assign camera mar.made } else renewed

/-- The callback that `startCameras` gives to the camera object. -/
def onPreviewResult (camera : CameraId) (isOK : Bool) : MAR :=
  let mar := { mar with isPreviewingReady := mar.isPreviewingReady.assign camera isOK }
  if isOK then mar else mar.stopPreview camera

/-- The cameras with their objects. -/
def withObjects (cameraSizes : List CameraId) : List (CameraId × ℕ) :=
  cameraSizes.filterMap (fun camera => (mar.cameras camera).map (fun object => (camera, object)))

/-- `startPreview` up to `startCameras`. -/
def startPreview (cameraSizes : List CameraId) : PreviewEvent × MAR :=
  if ∀ camera ∈ cameraSizes, (mar.cameras camera).isSome = true then
    let cameraList := mar.withObjects cameraSizes
    let rearCameras := cameraList.filter (fun p => (mar.objects p.2).isRearFacing)
    let frontCameras := cameraList.filter (fun p => !(mar.objects p.2).isRearFacing)
    (.quiet, { mar with call := .starting cameraSizes (rearCameras ++ frontCameras) })
  else (.returned false [], mar)

/-- The end of `startPreview`. -/
def finish (cameraSizes badCameras : List CameraId) (configuredOK : ℕ) : PreviewEvent × MAR :=
  let isPreviewing := decide (cameraSizes.length ≤ configuredOK)
  (.returned isPreviewing badCameras, { mar with isPreviewing := isPreviewing, call := .idle })

/-- Start a camera that has no result. -/
def startCamera (camera : CameraId) (object : ℕ) : PreviewEvent × MAR :=
  if (mar.isPreviewingReady camera).isSome then (.quiet, mar)
  else (.started camera object, mar.setStopping object false)

/-- The next step of the call. At the end of a pass that leaves cameras without a result,
`late` tells whether the five seconds are over. -/
def step (late : Bool) : PreviewEvent × MAR :=
  match mar.call with
  | .idle => (.quiet, mar)
  | .starting cameraSizes ((camera, object) :: cameraList) =>
    let started := mar.startCamera camera object
    (started.1, { started.2 with call := .starting cameraSizes cameraList })
  | .starting cameraSizes [] =>
    if cameraSizes = [] then mar.finish cameraSizes [] 0
    else (.quiet, { mar with call := .waiting cameraSizes cameraSizes [] [] 0 })
  | .waiting cameraSizes (camera :: pass) configured badCameras configuredOK =>
    if camera ∈ configured then
      (.quiet, { mar with call := .waiting cameraSizes pass configured badCameras configuredOK })
    else
      match mar.isPreviewingReady camera with
      | none =>
        (.quiet, { mar with call := .waiting cameraSizes pass configured badCameras configuredOK })
      | some true =>
        (.quiet, { mar with
          call := .waiting cameraSizes pass (camera :: configured) badCameras (configuredOK + 1) })
      | some false =>
        (.quiet, { mar with
          call := .waiting cameraSizes pass (camera :: configured) (badCameras ++ [camera])
            configuredOK })
  | .waiting cameraSizes [] configured badCameras configuredOK =>
    if configured.length < cameraSizes.length ∧ late = false then
      (.quiet,
        { mar with call := .waiting cameraSizes cameraSizes configured badCameras configuredOK })
    else mar.finish cameraSizes badCameras configuredOK

end MAR

inductive MARRequest
  | initializeCamera (camera : CameraId) (opens isRearFacing : Bool)
  | startPreview (cameraSizes : List CameraId)
  | step (late : Bool)
  | stopPreview (camera : CameraId)
  | onPreviewResult (camera : CameraId) (object : ℕ) (isOK : Bool)
  deriving DecidableEq

abbrev MARRequest.Ans (_ : MARRequest) : Type := PreviewEvent

def MAR.respond : Service MARRequest MARRequest.Ans MAR
  | .initializeCamera camera opens isRearFacing, mar =>
    some (.quiet, mar.initializeCamera camera opens isRearFacing)
  | .startPreview cameraSizes, mar => some (mar.startPreview cameraSizes)
  | .step late, mar => some (mar.step late)
  | .stopPreview camera, mar => some (.quiet, mar.stopPreview camera)
  | .onPreviewResult camera _ isOK, mar => some (.quiet, mar.onPreviewResult camera isOK)

abbrev PreviewHistory := List (Done MARRequest MARRequest.Ans)

/-- One call of `startPreview` comes after another, for the distinct cameras of a map, and a
camera object reports a result only after it was started. -/
def MAR.Delivers (done : PreviewHistory) (mar : MAR) : MARRequest → Prop
  | .startPreview cameraSizes => mar.call = .idle ∧ cameraSizes.Nodup
  | .step _ => mar.call ≠ .idle
  | .onPreviewResult camera object _ => ∃ e ∈ done, e.answer = .started camera object
  | .initializeCamera _ _ _ | .stopPreview _ => True

instance (done : PreviewHistory) (mar : MAR) (q : MARRequest) :
    Decidable (mar.Delivers done q) :=
  match q with
  | .startPreview _ => inferInstanceAs (Decidable (_ ∧ _))
  | .step _ => inferInstanceAs (Decidable (mar.call ≠ .idle))
  | .onPreviewResult camera object _ =>
    inferInstanceAs (Decidable (∃ e ∈ done, e.answer = .started camera object))
  | .initializeCamera _ _ _ | .stopPreview _ => inferInstanceAs (Decidable True)

end ARArch

import ARArch.RepositoryCalls

/-!
# Camera frames and their routing

A source node registers a dequeued frame and names it in a `CameraFrame`; the router offers each
frame named there to the detector, the tracker and the renderer of its camera. Twelve output
ports serve four cameras, three ports each, from `portStart` on.

The router sets a claim flag only after the port has accepted the frame. A frame that the renderer
rejects, or that nobody takes where there is no renderer, is deleted.
-/

namespace ARArch

structure CameraFrameData where
  cameraId : CameraId := noCamera
  /-- Only for stereo. -/
  camera2Id : CameraId := noCamera
  seqno1 : SeqNo := 0
  seqno2 : SeqNo := 0
  deriving DecidableEq

/-- A message from a source node to the router. -/
structure CameraFrame where
  cameras : Fin 4 → CameraFrameData := fun _ => {}
  count : ℕ := 0

namespace CameraFrame

def set (m : CameraFrame) (i : Fin 4) (cameraId : CameraId) (seq1 : SeqNo) : CameraFrame :=
  { cameras := Function.update m.cameras i { cameraId := cameraId, seqno1 := seq1 }
    count := m.count + 1 }

/-- A message that names one frame. -/
def mono (cameraId : CameraId) (seq : SeqNo) : CameraFrame := set {} 0 cameraId seq

def setStereo (m : CameraFrame) (i : Fin 4) (camera1Id camera2Id : CameraId) (seq1 : SeqNo)
    (seq2 : SeqNo := 0) : CameraFrame :=
  { cameras := Function.update m.cameras i
      { cameraId := camera1Id, camera2Id := camera2Id, seqno1 := seq1
        seqno2 := if seq2 = 0 ∧ seq1 ≠ 0 then seq1 else seq2 }
    count := m.count + 1 }

end CameraFrame

/-- How the frames of a camera are routed. Detector, tracker and renderer are pointers that can be
null; which object they point to does not matter here. -/
structure TBBRouterParameters where
  portStart : ℤ
  detector : Bool
  tracker : Bool
  renderer : Bool
  isDelete : Bool
  deriving DecidableEq

namespace Call

/-- `TBBMonoCameraSourceNode`, once a frame has been dequeued. -/
def monoCameraSource (cameraId : CameraId) (frame : Option FrameRef) : Call CameraFrame :=
  match frame with
  | none => pure {}
  | some frame => do
    let seq ← newFrame cameraId frame
    pure (CameraFrame.set {} 0 cameraId seq)

/-- Offer a frame to a consumer that is there and not busy, and set its flag if it accepts. -/
def offer (isThere : Bool) (port : ℕ) (cameraId : CameraId) (seq : SeqNo) (frame : FrameRef)
    (u : Consumer) : Call Bool :=
  if isThere then do
    if ← perform (.busy cameraId u) then pure false
    else do
      if ← perform (.tryPut port cameraId seq u) then do
        perform (.store frame u true)
        pure true
      else pure false
  else pure false

/-- Offer a frame to the renderer, and delete it if it is rejected; where there is no renderer,
delete it if it is to be deleted. -/
def renderOrDelete (isThere isDelete : Bool) (port : ℕ) (cameraId : CameraId) (seq : SeqNo)
    (frame : FrameRef) : Call Unit :=
  if isThere then do
    if ← perform (.tryPut port cameraId seq .renderer) then
      perform (.store frame .renderer true)
    else deleteFrame cameraId seq
  else if isDelete then deleteFrame cameraId seq
  else pure ()

/-- What the four cases of the router's switch have in common. -/
def routeFrom (port : ℕ) (params : TBBRouterParameters) (cameraId : CameraId) (seq : SeqNo)
    (frame : FrameRef) : Call Unit := do
  let isDetectRoute ← offer params.detector port cameraId seq frame .detector
  let isTrackRoute ←
    offer (params.tracker && !isDetectRoute) (port + 1) cameraId seq frame .tracker
  renderOrDelete params.renderer (params.isDelete && !isDetectRoute && !isTrackRoute) (port + 2)
    cameraId seq frame

/-- The switch on `portStart`; any other value is only logged. -/
def routeFrame (params : TBBRouterParameters) (cameraId : CameraId) (seq : SeqNo)
    (frame : FrameRef) : Call Unit :=
  match params.portStart with
  | 0 => routeFrom 0 params cameraId seq frame
  | 3 => routeFrom 3 params cameraId seq frame
  | 6 => routeFrom 6 params cameraId seq frame
  | 9 => routeFrom 9 params cameraId seq frame
  | _ => pure ()

/-- One turn of the inner loop, for a camera that is one. -/
def routeKey (map : CameraId → Option TBBRouterParameters) (cameraId : CameraId) (seq : SeqNo) :
    Call Unit :=
  if seq = 0 then pure ()
  else do
    match ← getFrame cameraId seq with
    | none => pure ()
    | some frame =>
      match map cameraId with
      | none => pure ()
      | some params => routeFrame params cameraId seq frame

def routeKeys (map : CameraId → Option TBBRouterParameters) : List Key → Call Unit
  | [] => pure ()
  | (cameraId, seq) :: keys =>
    if cameraId = noCamera then pure ()
    else do
      routeKey map cameraId seq
      routeKeys map keys

def routeCameras (map : CameraId → Option TBBRouterParameters) :
    List CameraFrameData → Call Unit
  | [] => pure ()
  | d :: ds =>
    if d.cameraId = noCamera then pure ()
    else do
      routeKeys map [(d.cameraId, d.seqno1), (d.camera2Id, d.seqno2)]
      routeCameras map ds

/-- The body of the router for one message. -/
def router (map : CameraId → Option TBBRouterParameters) (cameraFrame : CameraFrame) :
    Call Unit :=
  if cameraFrame.count = 0 then pure ()
  else routeCameras map (List.ofFn cameraFrame.cameras)

end Call
end ARArch

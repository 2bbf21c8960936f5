import ARArch.Repository

/-!
# The four flow graphs

`make_architecture` builds one of four flow graphs, for one or two rear cameras and perhaps a
front camera, or for a front camera alone.
-/

namespace ARArch

/-- The `TBB…Architecture` classes with the cameras that they are built for. -/
inductive Architecture
  | mono (camera : CameraId)
  | monoAndFront (backCamera frontCamera : CameraId)
  | stereo (camera1 camera2 : CameraId)
  | stereoAndFront (backCamera1 backCamera2 frontCamera : CameraId)
  deriving DecidableEq

/-- `make_architecture` for TBB. -/
def makeArchitecture : List CameraId → List CameraId → Option Architecture
  | rear1 :: rear2 :: _, front :: _ => some (.stereoAndFront rear1 rear2 front)
  | [rear], front :: _ => some (.monoAndFront rear front)
  | rear1 :: rear2 :: _, [] => some (.stereo rear1 rear2)
  | [rear], [] => some (.mono rear)
  | [], front :: _ => some (.mono front)
  | [], [] => none

end ARArch

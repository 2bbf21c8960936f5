import ARArch.RepositorySteps

/-!
# The calls of the repository

The member functions of `Repository`, statement by statement, as programs over the atomic steps.
An accessor is dropped where C++ reassigns or destroys it. `Repository.call` runs one of them
alone on a repository on which no lock is held.

The pointers in `camera_frames` and in `seqNumbers` all come from `new`, so that the tests for a
null pointer always pass and are left out.
-/

namespace ARArch

abbrev Call (α : Type) := Atomic.Prog Op Op.Ans α

namespace Call

abbrev perform (i : Op) : Call i.Ans := Atomic.Prog.perform i

/-- A camera is keyed by the id that its own `camera_id()` answers, so the branch of `add_camera`
for an entry with another id is never taken. -/
def addCamera (id : CameraId) : Call Bool :=
  if id = noCamera then pure false
  else do
    let known ← perform .cameraIds
    if id ∈ known then pure false
    else do
      perform (.insertCameraInterface id)
      pure true

def nextSeqno (camera : CameraId) : Call SeqNo := do
  if ← perform (.counterFind camera) then
    perform (.counterFetchAdd camera)
  else do
    perform (.counterCreate camera)
    pure 0

/-- `HardwareCamera.addCamera` of the JNI layer: a camera that is new draws one number. -/
def hardwareAddCamera (id : CameraId) : Call Bool := do
  if ← addCamera id then do
    let _ ← nextSeqno id
    pure true
  else pure false

/-- The part that `new_frame` and `new_stereo_frame` share: look the map of the camera up, make
it if there is none, and insert the frame. The answer of `camera_frames.insert` is not looked at;
it decides where the pointer `frames` leads. -/
def registerFrame (camera : CameraId) (seqno : SeqNo) (frame : FrameRef) : Call Unit := do
  if ← perform (.findCamera camera) then do
    perform (.insertFrame (.linked camera) seqno frame)
    perform (.dropCamera camera)
  else do
    if ← perform (.insertCamera camera) then
      perform (.insertFrame (.linked camera) seqno frame)
    else
      perform (.insertFrame .unlinked seqno frame)

def newFrame (camera : CameraId) (frame : FrameRef) : Call SeqNo := do
  let seqno ← nextSeqno camera
  perform (.setSeqno frame seqno)
  registerFrame camera seqno frame
  pure seqno

def newStereoFrame (camera1 : CameraId) (frame1 : FrameRef) (camera2 : CameraId)
    (frame2 : FrameRef) : Call SeqNo := do
  let seqno ← nextSeqno camera1
  registerFrame camera1 seqno frame1
  registerFrame camera2 seqno frame2
  pure seqno

def stereoTwin (camera : CameraId) (seq : SeqNo) : Call (Option Key) :=
  perform (.stereoFind (pairHasher (camera, seq)))

def deleteStereoPair (camera : CameraId) (seq : SeqNo) : Call Bool := do
  match ← perform (.stereoFind (pairHasher (camera, seq))) with
  | none => pure false
  | some twin => do
    perform (.stereoErase (pairHasher (camera, seq)))
    match ← perform (.stereoFind (pairHasher twin)) with
    | none => pure true
    | some _ => do
      perform (.stereoErase (pairHasher twin))
      pure true

/-- `(! isDetecting) && (! isTracking) && (! isRendering)`, each read only if needed. -/
def loadUnclaimed (frame : FrameRef) : Call Bool := do
  if ← perform (.load frame .detector) then pure false
  else if ← perform (.load frame .tracker) then pure false
  else if ← perform (.load frame .renderer) then pure false
  else pure true

def loadUndetected (frame : FrameRef) : Call Bool := do
  if ← perform (.load frame .detector) then pure false
  else if ← perform (.load frame .tracker) then pure false
  else pure true

/-- The block that finds a frame in the map of a camera whose entry is held, and erases it if
`mayErase` finds it free. -/
def eraseIf (mayErase : FrameRef → Call Bool) (camera : CameraId) (seqno : SeqNo) :
    Call Bool := do
  match ← perform (.findFrame camera seqno) with
  | none => pure false
  | some frame =>
    if ← mayErase frame then do
      perform (.eraseFrame camera seqno)
      pure true
    else do
      perform (.dropFrame camera seqno)
      pure false

/-- The second half of `delete_frame`: the twin goes with the frame unless it is being detected
or tracked, and the pair is forgotten. -/
def deleteTwin (camera : CameraId) (seqno : SeqNo) : Call Unit := do
  match ← stereoTwin camera seqno with
  | none => perform (.dropCamera camera)
  | some (camera2, seqno2) => do
    perform (.dropCamera camera)
    if ← perform (.findCamera camera2) then do
      let _ ← eraseIf loadUndetected camera2 seqno2
      let _ ← deleteStereoPair camera seqno
      perform (.dropCamera camera2)
    else do
      let _ ← deleteStereoPair camera seqno
      pure ()

def deleteFrame (camera : CameraId) (seqno : SeqNo) : Call Unit := do
  if ← perform (.findCamera camera) then do
    let isFound ← eraseIf loadUnclaimed camera seqno
    if isFound then deleteTwin camera seqno
    else perform (.dropCamera camera)
  else pure ()

/-- `true` with the frame, or `false`. A frame without colour data is given to `delete_frame`
while both accessors are still held. -/
def getFrame (camera : CameraId) (seqno : SeqNo) : Call (Option FrameRef) := do
  if ← perform (.findCamera camera) then do
    match ← perform (.findFrame camera seqno) with
    | none => do
      perform (.dropCamera camera)
      pure none
    | some frame => do
      let rgbaLen ← perform (.rgbaLen frame)
      if 0 < rgbaLen then do
        perform (.dropFrame camera seqno)
        perform (.dropCamera camera)
        pure (some frame)
      else do
        let seq ← perform (.seqno frame)
        deleteFrame camera seq
        perform (.dropFrame camera seqno)
        perform (.dropCamera camera)
        pure none
  else pure none

def hasFrame (camera : CameraId) (seqno : SeqNo) : Call Bool := do
  if ← perform (.peekCamera camera) then
    perform (.countFrame camera seqno)
  else pure false

/-- The loop of `has_frame(seqno)` over the registered cameras. -/
def hasFrameIn (seqno : SeqNo) : List CameraId → Call Bool
  | [] => pure false
  | camera :: cameras => do
    if ← hasFrame camera seqno then pure true else hasFrameIn seqno cameras

def hasFrameAny (seqno : SeqNo) : Call Bool := do
  let cameras ← perform .cameraIds
  hasFrameIn seqno cameras

def deleteAllFrames (seqno : SeqNo) : Call Unit := do
  let cameras ← perform .cameraIds
  Atomic.Prog.forEach (fun camera => do
    if ← perform (.findCamera camera) then do
      let _ ← eraseIf loadUndetected camera seqno
      perform (.dropCamera camera)
    else pure ()) cameras

def clearQueued (camera : CameraId) : Call Unit := do
  if ← perform (.findCamera camera) then do
    perform (.clearFrames camera)
    perform (.dropCamera camera)
  else pure ()

/-- One half of `stereo_pair`: the entry of a key, written through or inserted. -/
def linkTwin (key twin : Key) : Call Unit := do
  match ← perform (.stereoFind (pairHasher key)) with
  | some _ => perform (.stereoAssign (pairHasher key) twin)
  | none => perform (.stereoInsert (pairHasher key) twin)

def stereoPair (camera1 : CameraId) (seq1 : SeqNo) (camera2 : CameraId) (seq2 : SeqNo) :
    Call Unit := do
  linkTwin (camera1, seq1) (camera2, seq2)
  linkTwin (camera2, seq2) (camera1, seq1)

end Call

/-- Run a call alone; `answer` settles what the environment is free to settle. -/
abbrev Call.alone {α : Type} (answer : Op → Bool) (p : Call α) (m : Memory Unit) :
    Option (α × Memory Unit) :=
  Atomic.Prog.run (fun i => Memory.exec (answer i) () i) p m

/-- A repository on which no lock is held. -/
def Memory.idle (r : Repository) (accepted : List (Key × Consumer)) : Memory Unit :=
  { repo := r, accepted := accepted }

/-- Run one call of the repository alone. `none`: it waits for a lock of its own and never
returns. -/
def Repository.call {α : Type} (r : Repository) (p : Call α) : Option (α × Repository) :=
  (p.alone (fun _ => false) (Memory.idle r [])).map (fun q => (q.1, q.2.repo))

end ARArch

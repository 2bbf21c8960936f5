import ARArch.Architectures
import ARArch.Consumers

/-!
# The flow graph at work

The nodes of a flow graph as threads. A source node registers the frames of its camera and sends a
message for each; for two rear cameras a join pairs their messages in the order of arrival. A
router node built with concurrency `n` runs up to `n` bodies at a time: each of its workers takes
the next message, runs the body on it, and takes another. The render node accepts a frame only
while it is idle, and may refuse one even then. The concurrency of the detector and tracker nodes
is left open, so that their answers are the environment's; `must_terminate` may be found set at
any time.

Nothing is said about how often a node runs or how many frames a camera gives. There is always a
renderer, which draws on a thread of its own and counts as initialised from the start.
-/

namespace ARArch

open Atomic

inductive Channel
  | source (camera : CameraId)
  | join
  deriving DecidableEq

inductive DetectorType
  | simulate
  | aprilTags
  | faceRecognition
  | none
  deriving DecidableEq

inductive RendererType
  | standard
  | benchmark
  | none
  deriving DecidableEq

inductive Side
  | rear
  | front
  deriving DecidableEq

/-- A router node. Its map has one entry, for `camera`; its detector is made for that camera and
`camera2`. -/
structure RouterNode where
  input : Channel
  concurrency : ℕ
  camera : CameraId
  camera2 : CameraId := noCamera
  params : TBBRouterParameters

def RouterNode.map (node : RouterNode) (camera : CameraId) : Option TBBRouterParameters :=
  if camera = node.camera then some node.params else none

structure Graph where
  sources : List CameraId
  pair : Option (CameraId × CameraId) := none
  rear : RouterNode
  front : Option RouterNode := none

def Graph.router (g : Graph) : Side → Option RouterNode
  | .rear => some g.rear
  | .front => g.front

/-- The parameters of a camera whose frames are rendered, and of the front camera of two or three.
-/
def renderedParams : TBBRouterParameters := ⟨0, true, true, true, false⟩

def frontParams : TBBRouterParameters := ⟨0, true, true, false, true⟩

/-- The `true` that the detector of a front camera gets as its second camera is camera 1. -/
def frontRouter (frontCamera : CameraId) : RouterNode where
  input := .source frontCamera
  concurrency := 1
  camera := frontCamera
  camera2 := 1
  params := frontParams

/-- The nodes and edges of the four classes. `tbb::flow::serial` is 1. -/
def Architecture.graph : Architecture → Graph
  | .mono camera =>
    { sources := [camera]
      rear := ⟨.source camera, 1, camera, noCamera, renderedParams⟩ }
  | .monoAndFront backCamera frontCamera =>
    { sources := [backCamera, frontCamera]
      rear := ⟨.source backCamera, 1, backCamera, noCamera, renderedParams⟩
      front := some (frontRouter frontCamera) }
  | .stereo camera1 camera2 =>
    { sources := [camera1, camera2]
      pair := some (camera1, camera2)
      rear := ⟨.join, 2, camera1, camera2, renderedParams⟩ }
  | .stereoAndFront backCamera1 backCamera2 frontCamera =>
    { sources := [backCamera1, backCamera2, frontCamera]
      pair := some (backCamera1, backCamera2)
      rear := ⟨.join, 2, backCamera1, backCamera2, renderedParams⟩
      front := some (frontRouter frontCamera) }

/-! ### Threads and operations -/

/-- The threads of a graph; a router has workers, and a detector or a tracker runs once for a
number. -/
inductive FlowNode
  | source (camera : CameraId)
  | join
  | router (side : Side) (worker : ℕ)
  | detector (side : Side) (seqno : SeqNo)
  | tracker (side : Side) (seqno : SeqNo)
  | render
  deriving DecidableEq

/-- `repo i` is a call on the repository or on a port; `beginRender` starts the body of the render
node on the frame it has accepted. -/
inductive FlowOp
  | repo (i : Op)
  | mustTerminate
  | send (ch : Channel) (cameraFrame : CameraFrame)
  | takePair (camera1 camera2 : CameraId)
  | take (side : Side) (input : Channel)
  | beginRender
  | endRender

@[reducible] def FlowOp.Ans : FlowOp → Type
  | repo i => i.Ans
  | mustTerminate => Bool
  | takePair _ _ => CameraFrame × CameraFrame
  | take _ _ => CameraFrame
  | beginRender => SeqNo
  | _ => Unit

structure Edges where
  sent : Channel → List CameraFrame := fun _ => []
  joined : ℕ := 0
  taken : Side → ℕ := fun _ => 0
  /-- Which message, counted from 1, a worker has taken last. -/
  turn : FlowNode → ℕ := fun _ => 0
  /-- The frames that the render node has accepted, the latest first, each with the turn of the
  worker that offered it. -/
  rendered : List (ℕ × Key) := []

namespace Edges

def send (e : Edges) (ch : Channel) (cameraFrame : CameraFrame) : Edges :=
  { e with sent := Function.update e.sent ch (e.sent ch ++ [cameraFrame]) }

def takePair (e : Edges) : Edges := { e with joined := e.joined + 1 }

def take (e : Edges) (t : FlowNode) (side : Side) : Edges :=
  { e with
    taken := Function.update e.taken side (e.taken side + 1)
    turn := Function.update e.turn t (e.taken side + 1) }

def accept (e : Edges) (t : FlowNode) (key : Key) : Edges :=
  { e with rendered := (e.turn t, key) :: e.rendered }

variable (e : Edges) (t : FlowNode) (side : Side) (key : Key) {ch ch' : Channel} (m : CameraFrame)

@[simp] theorem sent_send_self : (e.send ch m).sent ch = e.sent ch ++ [m] := by
  simp [send]

@[simp] theorem sent_send_of_ne (h : ch' ≠ ch) : (e.send ch m).sent ch' = e.sent ch' := by
  simp [send, h]

@[simp] theorem taken_take_self : (e.take t side).taken side = e.taken side + 1 := by
  simp [take]

@[simp] theorem turn_take_self : (e.take t side).turn t = e.taken side + 1 := by
  simp [take]

@[simp] theorem turn_take_of_ne {u : FlowNode} (h : u ≠ t) : (e.take t side).turn u = e.turn u := by
  simp [take, h]

theorem turn_take_router {side' : Side} {v w : ℕ} (h : v ≠ w) :
    (e.take (.router side' w) side).turn (.router side' v) = e.turn (.router side' v) :=
  e.turn_take_of_ne _ _ (by simpa using h)

@[simp] theorem sent_source_send_join (camera : CameraId) :
    (e.send .join m).sent (.source camera) = e.sent (.source camera) :=
  e.sent_send_of_ne m (by simp)

/-- What a source node sends comes after what it has sent. -/
theorem mem_sent_send {camera camera' : CameraId} {x : CameraFrame}
    (hx : x ∈ (e.send (.source camera) m).sent (.source camera')) :
    x ∈ e.sent (.source camera') ∨ camera' = camera ∧ x = m := by
  by_cases hc : camera' = camera
  · subst hc
    rw [sent_send_self, List.mem_append, List.mem_singleton] at hx
    exact hx.imp_right (fun h => ⟨rfl, h⟩)
  · rw [sent_send_of_ne e m (by simpa using hc)] at hx
    exact .inl hx

theorem sent_prefix_send : e.sent ch' <+: (e.send ch m).sent ch' := by
  by_cases h : ch' = ch
  · subst h
    rw [sent_send_self]
    exact List.prefix_append _ _
  · rw [sent_send_of_ne e m h]

end Edges

structure FlowMemory where
  mem : Memory FlowNode
  edges : Edges := {}
  /-- The frame that the render node has accepted and not finished. -/
  rendering : Option SeqNo := none

def Op.rendererKey : Op → Option Key
  | .tryPut _ c n .renderer => some (c, n)
  | _ => none

namespace FlowMemory

def exec (answer : Bool) (t : FlowNode) : (i : FlowOp) → FlowMemory → Option (i.Ans × FlowMemory)
  | .repo i, s =>
    match i.rendererKey with
    | none => (Memory.exec answer t i s.mem).map (fun p => (p.1, { s with mem := p.2 }))
    | some key =>
      if answer && s.rendering.isNone then
        (Memory.exec true t i s.mem).map (fun p => (p.1,
          { mem := p.2, edges := s.edges.accept t key, rendering := some key.2 }))
      else (Memory.exec false t i s.mem).map (fun p => (p.1, { s with mem := p.2 }))
  | .mustTerminate, s => some (answer, s)
  | .send ch cameraFrame, s => some ((), { s with edges := s.edges.send ch cameraFrame })
  | .takePair camera1 camera2, s =>
    match (s.edges.sent (.source camera1))[s.edges.joined]?,
      (s.edges.sent (.source camera2))[s.edges.joined]? with
    | some cameraFrame1, some cameraFrame2 =>
      some ((cameraFrame1, cameraFrame2), { s with edges := s.edges.takePair })
    | _, _ => none
  | .take side input, s =>
    ((s.edges.sent input)[s.edges.taken side]?).map (fun cameraFrame =>
      (cameraFrame, { s with edges := s.edges.take t side }))
  | .beginRender, s => s.rendering.map (fun seqno => (seqno, s))
  | .endRender, s => some ((), { s with rendering := none })

end FlowMemory

/-! ### The nodes -/

namespace Call

/-- The end of `AprilTagTBBDetector`. The number that it looks up on `camera2` is that of the first
camera, and so is the frame whose claim it clears. -/
def aprilTagRelease (camera1 camera2 : CameraId) (seqno : SeqNo) (frame : FrameRef) :
    Call Unit := do
  perform (.store frame .detector false)
  deleteFrame camera1 seqno
  if camera2 = noCamera then pure ()
  else do
    match ← getFrame camera2 seqno with
    | none => pure ()
    | some _ => do
      perform (.store frame .detector false)
      deleteFrame camera2 seqno

def aprilTagTBBDetector (camera1 camera2 : CameraId) (seqno : SeqNo) : Call Unit := do
  match ← getFrame camera1 seqno with
  | none => pure ()
  | some frame => do
    match ← stereoTwin camera1 seqno with
    | none => aprilTagRelease camera1 camera2 seqno frame
    | some twin => do
      let _ ← getFrame twin.1 twin.2
      aprilTagRelease camera1 camera2 seqno frame

/-- The nodes that `make_detector` makes. -/
def detectorNode : DetectorType → CameraId → CameraId → SeqNo → Call Unit
  | .aprilTags, camera1, camera2, seqno => aprilTagTBBDetector camera1 camera2 seqno
  | _, camera1, _, seqno => faceTBBDetector camera1 seqno

/-- `TBBBenchmarkRender` on a frame, as long as `must_terminate` is not set. -/
def tbbBenchmarkRender (cameraId : CameraId) (seqno : SeqNo) : Call Unit := do
  if ← perform .exchangeRendering then
    match ← getFrame cameraId seqno with
    | none => perform .resetRendering
    | some _ => render cameraId seqno
  else deleteFrame cameraId seqno

end Call

namespace CameraFrame

theorem four_pos : 0 < 4 := Nat.succ_pos 3

/-- The index of the entry that a message from a source node or the join has. -/
def first : Fin 4 := ⟨0, four_pos⟩

end CameraFrame

abbrev FlowCall (α : Type) := Prog FlowOp FlowOp.Ans α

namespace FlowCall

abbrev perform (i : FlowOp) : FlowCall i.Ans := Prog.perform i

def repo {α : Type} (p : Call α) : FlowCall α := p.embed .repo (fun _ r => r)

/-- `TBBMonoCameraSourceNode`, dequeuing one frame after another. The message of the turn in which
`must_terminate` is found set is not sent. -/
def cameraSource (cameraId : CameraId) : List (Option FrameRef) → FlowCall Unit
  | [] => pure ()
  | frame :: frames => do
    let cameraFrame ← repo (Call.monoCameraSource cameraId frame)
    if ← perform .mustTerminate then pure ()
    else do
      perform (.send (.source cameraId) cameraFrame)
      cameraSource cameraId frames

def joinFrames (cameraFrame1 cameraFrame2 : CameraFrame) : CameraFrame :=
  let data1 := cameraFrame1.cameras CameraFrame.first
  let data2 := cameraFrame2.cameras CameraFrame.first
  CameraFrame.setStereo {} CameraFrame.first data1.cameraId data2.cameraId data1.seqno1 data2.seqno1

def joinProcessor (camera1 camera2 : CameraId) : FlowCall Unit := do
  let tt ← perform (.takePair camera1 camera2)
  if tt.1.count + tt.2.count = 0 then perform (.send .join tt.1)
  else do
    let data1 := tt.1.cameras CameraFrame.first
    let data2 := tt.2.cameras CameraFrame.first
    repo (Call.stereoPair data1.cameraId data1.seqno1 data2.cameraId data2.seqno1)
    perform (.send .join (joinFrames tt.1 tt.2))

def routerBody (side : Side) (node : RouterNode) : FlowCall Unit := do
  let cameraFrame ← perform (.take side node.input)
  repo (Call.router node.map cameraFrame)

def unlessTerminated (body : Call Unit) (cameraId : CameraId) (seqno : SeqNo) : FlowCall Unit :=
  if seqno = 0 then repo (Call.deleteFrame cameraId seqno)
  else do
    if ← perform .mustTerminate then repo (Call.deleteFrame cameraId seqno)
    else repo body

/-- The nodes that `make_render` makes; a `TBBNullRenderer` made without `mustDelete` does
nothing. -/
def renderNode : RendererType → CameraId → SeqNo → FlowCall Unit
  | .standard, cameraId, seqno => unlessTerminated (Call.tbbRender cameraId seqno) cameraId seqno
  | .benchmark, cameraId, seqno =>
    unlessTerminated (Call.tbbBenchmarkRender cameraId seqno) cameraId seqno
  | .none, _, _ => pure ()

def render (type : RendererType) (cameraId : CameraId) : FlowCall Unit := do
  let seqno ← perform .beginRender
  renderNode type cameraId seqno
  perform .endRender

end FlowCall

/-! ### The graph -/

/-- A graph with what its nodes are given: the frames of the cameras and the number of messages
each node gets to. -/
structure Flow where
  graph : Graph
  detectorType : Side → DetectorType
  rendererType : RendererType
  frames : CameraId → List (Option FrameRef)
  turns : FlowNode → ℕ

namespace Flow

def loop (F : Flow) (t : FlowNode) (body : FlowCall Unit) : FlowCall Unit :=
  Prog.forEach (fun _ => body) (List.range (F.turns t))

/-- A router has as many workers as its concurrency. -/
def program (F : Flow) : FlowNode → FlowCall Unit
  | .source camera =>
    if camera ∈ F.graph.sources then FlowCall.cameraSource camera (F.frames camera) else pure ()
  | .join =>
    match F.graph.pair with
    | none => pure ()
    | some pair => F.loop .join (FlowCall.joinProcessor pair.1 pair.2)
  | .router side w =>
    match F.graph.router side with
    | none => pure ()
    | some node =>
      if w < node.concurrency then F.loop (.router side w) (FlowCall.routerBody side node)
      else pure ()
  | .detector side seqno =>
    match F.graph.router side with
    | none => pure ()
    | some node => FlowCall.repo do
      Call.perform (.begin node.camera seqno .detector)
      Call.detectorNode (F.detectorType side) node.camera node.camera2 seqno
  | .tracker side seqno =>
    match F.graph.router side with
    | none => pure ()
    | some node => FlowCall.repo do
      Call.perform (.begin node.camera seqno .tracker)
      Call.tbbTimeTestTracker node.camera seqno
  | .render => F.loop .render (FlowCall.render F.rendererType F.graph.rear.camera)

end Flow

abbrev FlowShared := Recorded FlowNode FlowOp FlowOp.Ans FlowMemory

def flowSteps : Action FlowNode FlowOp FlowOp.Ans FlowShared := recorded FlowMemory.exec

def Flow.pool (F : Flow) (r : Repository) : Pool FlowNode FlowOp FlowOp.Ans Unit FlowShared :=
  ⟨F.program, ⟨{ mem := { repo := r } }, []⟩⟩

/-- The numbers of the rear, or only, camera that the render node has accepted, the latest
first. -/
def Flow.shown (F : Flow) (s : FlowShared) : List SeqNo :=
  (s.mem.edges.rendered.filter (fun x => x.2.1 = F.graph.rear.camera)).map (fun x => x.2.2)

end ARArch

import ARArch.Router
import ARArch.SharedRepository

/-!
# The consumers of the router

The nodes at the router's ports, and the system that they form with it. A node gets the number of
a frame, looks the frame up, clears its own claim and asks for the frame to be deleted; whoever
does so last is to find all claims cleared. What the nodes compute on the frame is left out, and
so is their own busy flag, whose value `busy` leaves to the environment.

A message that a port has accepted may start its node at any later moment.
-/

namespace ARArch

open Atomic

namespace Call

/-- What `FaceTBBDetector`, `FaceOverlayTBBDetector`, `TBBSimulationDetector`, `TBBNullDetector`,
`TBBTimeTestTracker` and `TBBNullTracker` have in common. -/
def consume (u : Consumer) (cameraId : CameraId) (seqno : SeqNo) : Call Unit := do
  match ← getFrame cameraId seqno with
  | none => pure ()
  | some frame => do
    perform (.store frame u false)
    deleteFrame cameraId seqno

def faceTBBDetector (cameraId : CameraId) (seqno : SeqNo) : Call Unit :=
  consume .detector cameraId seqno

def tbbTimeTestTracker (cameraId : CameraId) (seqno : SeqNo) : Call Unit :=
  consume .tracker cameraId seqno

/-- `VulkanRenderer::render`. Every return passes through `renderEnd`. -/
def render (cameraId : CameraId) (seqno : SeqNo) : Call Unit := do
  match ← getFrame cameraId seqno with
  | none => do
    perform .resetRendering
    deleteFrame cameraId seqno
  | some frame => do
    perform (.store frame .renderer false)
    perform .resetRendering
    deleteFrame cameraId seqno

/-- `TBBRender` with a renderer that is initialised and not single-threaded, as long as
`must_terminate` is not set. -/
def tbbRender (cameraId : CameraId) (seqno : SeqNo) : Call Unit :=
  if seqno = 0 then deleteFrame cameraId seqno
  else do
    if ← perform .exchangeRendering then render cameraId seqno
    else deleteFrame cameraId seqno

/-- The nodes behind the ports. -/
def node : Consumer → CameraId → SeqNo → Call Unit
  | .detector => faceTBBDetector
  | .tracker => tbbTimeTestTracker
  | .renderer => tbbRender

/-- The steps in which a consumer lets a claimed frame go. -/
def holder : Consumer → CameraId → SeqNo → Call Unit
  | .detector => faceTBBDetector
  | .tracker => tbbTimeTestTracker
  | .renderer => render

end Call

/-- The frames that a message names and the router looks at. -/
def CameraFrame.keys (m : CameraFrame) : List Key :=
  ((List.ofFn m.cameras).flatMap fun d => [(d.cameraId, d.seqno1), (d.camera2Id, d.seqno2)]).filter
    fun k => k.1 ≠ noCamera ∧ k.2 ≠ 0

/-- What the routers are given: a message each, and how the cameras are routed. A frame is
registered once, so that one message names it. -/
structure Traffic where
  map : CameraId → Option TBBRouterParameters
  message : ℕ → CameraFrame
  nodup : ∀ i, (message i).keys.Nodup
  once : ∀ i j k, k ∈ (message i).keys → k ∈ (message j).keys → i = j

/-- A router at work on its message, or the node that serves a consumer at work on a frame. -/
inductive Party
  | router (i : ℕ)
  | consumer (k : Key) (u : Consumer)
  deriving DecidableEq

/-- What a party does. A node starts on an accepted message. -/
def Traffic.program (T : Traffic) : Party → Call Unit
  | .router i => Call.router T.map (T.message i)
  | .consumer k u => do
    Call.perform (.begin k.1 k.2 u)
    Call.node u k.1 k.2

/-- Routers and nodes on a repository where nobody is at work. -/
def Traffic.pool (T : Traffic) (r : Repository) : Pool Party Op Op.Ans Unit (Shared Party) :=
  ⟨T.program, ⟨{ repo := r }, []⟩⟩

/-- No router and no node is at work, and no accepted message waits. -/
structure Quiescent (T : Traffic) (p : Pool Party Op Op.Ans Unit (Shared Party)) : Prop where
  routers : ∀ i, p.threads (.router i) = .pure () ∨
    p.threads (.router i) = T.program (.router i)
  nodes : ∀ k u, (k, u) ∈ p.state.mem.accepted → p.threads (.consumer k u) = .pure ()

end ARArch

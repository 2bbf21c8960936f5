import ARArch.RelyGuarantee
import ARArch.Table
import Mathlib.Algebra.Group.Nat.Defs
import Mathlib.Order.Basic
import Mathlib.Data.Nat.Basic

/-!
# Face overlays

The overlay detector cuts faces out of frames and publishes them; the renderer draws the newest
one over its frames. Both delete overlays. The detector deletes those in the map that are older
than what is being rendered, the renderer deletes the one it drew before. They know of each other
through the map `faceOverlays` and two numbers: `lastFaceOverlay`, which only the detector
stores, and `currentRenderOverlay`, which only the renderer stores.

An overlay object is named by the number of objects made before it. A deletion puts its name on
`frees`; the two statements that delete the image and the object are one step, and so are the
renderer's `delete state->lastOverlay` and the `nullptr` stored after it.
-/

namespace ARArch

open Atomic

/-- A `DetectedROI*` that is not null. -/
abbrev OverlayRef := ℕ

structure DetectedROI where
  seqno : ℕ := 0
  inUse : Bool := false
  /-- `image` is not null. -/
  hasImage : Bool := true
  deriving DecidableEq

/-- What the detector finds on its frame: the frame is there, it shows a face, and OpenCV throws
no exception while the face is copied. -/
inductive OverlayQuestion
  | hasFrame
  | hasFace
  | isCopied
  deriving DecidableEq

inductive OverlayOp
  | ask (q : OverlayQuestion)
  | loadCurrentRenderOverlay
  | storeCurrentRenderOverlay (seq : ℕ)
  | loadLastFaceOverlay
  | storeLastFaceOverlay (seq : ℕ)
  | find (seq : ℕ)
  | erase (seq : ℕ)
  | insertNew (seq : ℕ)
  | inUse (o : OverlayRef)
  | setInUse (o : OverlayRef)
  | hasImage (o : OverlayRef)
  | seqno (o : OverlayRef)
  | free (o : OverlayRef)
  | lastSeq
  | setLastSeq (seq : ℕ)
  | lastOverlay
  | setLastOverlay (o : OverlayRef)
  | freeLastOverlay
  | beginOverlay (o : OverlayRef)
  | endOverlay

@[reducible] def OverlayOp.Ans : OverlayOp → Type
  | ask _ | inUse _ | hasImage _ => Bool
  | loadCurrentRenderOverlay | loadLastFaceOverlay | seqno _ | lastSeq => ℕ
  | find _ | lastOverlay => Option OverlayRef
  | _ => Unit

structure OverlayMemory where
  faceOverlays : Table ℕ OverlayRef := Table.empty
  lastFaceOverlay : ℕ := 0
  currentRenderOverlay : ℕ := 1
  rois : OverlayRef → DetectedROI := fun _ => {}
  made : ℕ := 0
  /-- The overlays deleted so far, the latest first. -/
  frees : List OverlayRef := []
  /-- `lastSeq` and `lastOverlay` of the renderer's state. -/
  lastSeq : ℕ := 0
  lastOverlay : Option OverlayRef := none
  /-- The overlay that the renderer is reading. -/
  drawing : Option OverlayRef := none

namespace OverlayMemory

variable (m : OverlayMemory) (s : ℕ) (o : OverlayRef)

def modifyRoi (f : DetectedROI → DetectedROI) : OverlayMemory :=
  { m with rois := Function.update m.rois o (f (m.rois o)) }

/-- Make an overlay and insert it. -/
def insertNew : OverlayMemory :=
  { m with
    faceOverlays := m.faceOverlays.insert s m.made
    rois := Function.update m.rois m.made { seqno := s }
    made := m.made + 1 }

/-- Delete an overlay with its image. -/
def free : OverlayMemory :=
  { m.modifyRoi o (fun roi => { roi with hasImage := false }) with frees := o :: m.frees }

def freeLastOverlay : OverlayMemory :=
  match m.lastOverlay with
  | none => m
  | some o => { m.free o with lastOverlay := none }

def effect : OverlayOp → OverlayMemory → OverlayMemory
  | .storeCurrentRenderOverlay s, m => { m with currentRenderOverlay := s }
  | .storeLastFaceOverlay s, m => { m with lastFaceOverlay := s }
  | .erase s, m => { m with faceOverlays := m.faceOverlays.erase s }
  | .insertNew s, m => m.insertNew s
  | .setInUse o, m => m.modifyRoi o (fun roi => { roi with inUse := true })
  | .free o, m => m.free o
  | .setLastSeq s, m => { m with lastSeq := s }
  | .setLastOverlay o, m => { m with lastOverlay := some o }
  | .freeLastOverlay, m => m.freeLastOverlay
  | .beginOverlay o, m => { m with drawing := some o }
  | .endOverlay, m => { m with drawing := none }
  | _, m => m

def answer (b : Bool) : (i : OverlayOp) → OverlayMemory → i.Ans
  | .ask _, _ => b
  | .loadCurrentRenderOverlay, m => m.currentRenderOverlay
  | .loadLastFaceOverlay, m => m.lastFaceOverlay
  | .find s, m => m.faceOverlays s
  | .inUse o, m => (m.rois o).inUse
  | .hasImage o, m => (m.rois o).hasImage
  | .seqno o, m => (m.rois o).seqno
  | .lastSeq, m => m.lastSeq
  | .lastOverlay, m => m.lastOverlay
  | .storeCurrentRenderOverlay _, _ | .storeLastFaceOverlay _, _ | .erase _, _
  | .insertNew _, _ | .setInUse _, _ | .free _, _ | .setLastSeq _, _ | .setLastOverlay _, _
  | .freeLastOverlay, _ | .beginOverlay _, _ | .endOverlay, _ => ()

def exec (b : Bool) (i : OverlayOp) (m : OverlayMemory) : Option (i.Ans × OverlayMemory) :=
  some (answer b i m, effect i m)

end OverlayMemory

abbrev OverlayCall (α : Type) := Prog OverlayOp OverlayOp.Ans α

/-- One invocation of the detector: the number of its frame, and the numbers that its iterator
comes upon in the map, in their order. A number that is not in the map is passed over. -/
structure DetectorCall where
  seqno : ℕ
  visits : List ℕ
  nodup : visits.Nodup

namespace OverlayCall

abbrev perform (i : OverlayOp) : OverlayCall i.Ans := Prog.perform i

/-- `currentRenderOverlay.load() - 1` in 64 bits. -/
def delSeq (current : ℕ) : ℕ := if current = 0 then 2 ^ 64 - 1 else current - 1

/-- The loop over the map, which ends after six entries. -/
def deleteOld (delSeq : ℕ) : List ℕ → ℕ → List ℕ → OverlayCall (List ℕ)
  | [], _, dels => pure dels
  | seq :: seqs, count, dels => do
    match ← perform (.find seq) with
    | none => deleteOld delSeq seqs count dels
    | some lastOverlay =>
      if 5 < count then pure dels
      else if ← perform (.inUse lastOverlay) then deleteOld delSeq seqs (count + 1) dels
      else if seq < delSeq then do
        perform (.free lastOverlay)
        deleteOld delSeq seqs (count + 1) (dels ++ [seq])
      else deleteOld delSeq seqs (count + 1) dels

/-- `FaceOverlayTBBDetector`, as far as it concerns overlays. -/
def faceOverlayDetector (c : DetectorCall) : OverlayCall Unit := do
  if ← perform (.ask .hasFrame) then
    if ← perform (.ask .hasFace) then
      let current ← perform .loadCurrentRenderOverlay
      let dels ← deleteOld (delSeq current) c.visits 0 []
      Prog.forEach (fun sn => perform (.erase sn)) dels
      if ← perform (.ask .isCopied) then
        perform (.insertNew c.seqno)
        perform (.storeLastFaceOverlay c.seqno)

/-- `vision::overlay` on the image of an overlay. -/
def overlay (face : OverlayRef) : OverlayCall Unit := do
  perform (.beginOverlay face)
  perform .endOverlay

/-- `ArchVulkanRenderer::draw` when a number has been read that is new to it. -/
def takeOverlay (lastSeq : ℕ) : OverlayCall Unit := do
  perform (.setLastSeq lastSeq)
  match ← perform (.find lastSeq) with
  | none => pure ()
  | some face =>
    if ← perform (.hasImage face) then do
      perform (.setInUse face)
      overlay face
      match ← perform .lastOverlay with
      | none => pure ()
      | some old => do
        let seq ← perform (.seqno old)
        perform (.erase seq)
        perform .freeLastOverlay
      perform (.setLastOverlay face)
      perform (.storeCurrentRenderOverlay lastSeq)
      perform (.erase lastSeq)
    else perform (.free face)

/-- `ArchVulkanRenderer::draw` in OVERLAY mode. -/
def draw : OverlayCall Unit := do
  let lastSeq ← perform .loadLastFaceOverlay
  if (← perform .lastSeq) ≠ lastSeq then takeOverlay lastSeq
  else
    match ← perform .lastOverlay with
    | none => pure ()
    | some face => overlay face

end OverlayCall

inductive OverlayParty
  | detector
  | renderer
  deriving DecidableEq

/-- The detector's invocations, one after another, and the number of draws. -/
structure OverlayTraffic where
  calls : List DetectorCall
  draws : ℕ
  increasing : (calls.map DetectorCall.seqno).Pairwise (· < ·)
  positive : ∀ c ∈ calls, 1 ≤ c.seqno

abbrev OverlayShared := Recorded OverlayParty OverlayOp OverlayOp.Ans OverlayMemory

def overlaySteps : Action OverlayParty OverlayOp OverlayOp.Ans OverlayShared :=
  recorded (fun b _ => OverlayMemory.exec b)

def OverlayTraffic.program (T : OverlayTraffic) : OverlayParty → OverlayCall Unit
  | .detector => Prog.forEach OverlayCall.faceOverlayDetector T.calls
  | .renderer => Prog.forEach (fun _ => OverlayCall.draw) (List.range T.draws)

def OverlayTraffic.pool (T : OverlayTraffic) :
    Pool OverlayParty OverlayOp OverlayOp.Ans Unit OverlayShared :=
  ⟨T.program, ⟨{}, []⟩⟩

end ARArch

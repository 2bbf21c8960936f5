import ARArch.Sessions
import ARArch.Table
import Mathlib.Data.Nat.Basic

/-!
# Detections and what is drawn of them

The April tag detector and the face detector publish what they find on a frame under the number
of the frame: they insert it into a map and then push the number on a queue that gives out its
largest number first. The renderer pops a number, and shows what the map has under it until the
time stamp of what it shows is more than 280 ms old.

A publication is two requests, so that the renderer may draw between them; a draw is one. Once a
draw has popped a number, no detector touches what the map has under it. Bounding boxes are
objects: `ref` tells them apart, and what is deleted is put on `deleted`. The pointers come from
`new`, so that the tests for a null pointer always pass and are left out.
-/

namespace ARArch

structure DetectedBoundingBox where
  ref : ℕ
  seqno : ℕ
  timestamp : ℤ
  deriving DecidableEq

/-- The two things that are detected and shown in the same way. -/
inductive DetectionKind
  | aprilTag
  | face
  deriving DecidableEq

/-- The maps and queues of the repository, and the renderer's state. -/
structure Detections where
  aprilTags : Table ℕ (List DetectedBoundingBox) := Table.empty
  faceDetections : Table ℕ DetectedBoundingBox := Table.empty
  /-- `recentAprilTags` and `recentFaceDetections`. -/
  recent : DetectionKind → List ℕ := fun _ => []
  /-- The number of boxes made so far, which names the next one. -/
  made : ℕ := 0
  deleted : List ℕ := []
  lastAprilTagTime : ℤ := 0
  lastAprilTags : List DetectedBoundingBox := []
  lastFace : Option DetectedBoundingBox := none
  lastFaceTime : ℤ := 0

/-- `try_pop` of a `concurrent_priority_queue` with `UInt64DescComparator`. -/
def popLargest (q : List ℕ) : Option (ℕ × List ℕ) := q.max?.map (fun n => (n, q.erase n))

/-- What a draw took up as new, if it did, and the boxes it drew. -/
structure Shown where
  taken : DetectionKind → Option ℕ := fun _ => none
  drawn : List DetectedBoundingBox := []

/-- How a renderer was made: it shows tags, and it shows faces by their bounding boxes. -/
structure RendererOptions where
  isAprilTags : Bool
  isBB : Bool

/-- The renderer shows this kind. -/
def RendererOptions.shows (c : RendererOptions) : DetectionKind → Bool
  | .aprilTag => c.isAprilTags
  | .face => c.isBB

namespace Detections

variable (d : Detections)

/-- The boxes of the tags found on a frame, in their order. -/
def newBoxes (seqno : ℕ) (timestamps : List ℤ) : List DetectedBoundingBox :=
  timestamps.mapIdx (fun i t => ⟨d.made + i, seqno, t⟩)

/-- The insertion of `AprilTagTBBDetector`. -/
def insertAprilTags (seqno : ℕ) (timestamps : List ℤ) : Detections :=
  { d with
    aprilTags := d.aprilTags.insert seqno (d.newBoxes seqno timestamps)
    made := d.made + timestamps.length }

/-- The insertion of `FaceTBBDetector`. -/
def insertFaceDetection (seqno : ℕ) (timestamp : ℤ) : Detections :=
  { d with
    faceDetections := d.faceDetections.insert seqno ⟨d.made, seqno, timestamp⟩
    made := d.made + 1 }

def setRecent (k : DetectionKind) (q : List ℕ) : Detections :=
  { d with recent := Function.update d.recent k q }

def push (k : DetectionKind) (seqno : ℕ) : Detections := d.setRecent k (seqno :: d.recent k)

def delete (L : List DetectedBoundingBox) : Detections :=
  { d with deleted := L.map DetectedBoundingBox.ref ++ d.deleted }

def deleteLastTags : Detections :=
  { d.delete d.lastAprilTags with lastAprilTags := [], lastAprilTagTime := 0 }

def deleteLastFace : Detections := { d.delete d.lastFace.toList with lastFace := none }

/-- There are boxes and the first is not older than 400 ms. -/
def isFresh (now : ℤ) (L : List DetectedBoundingBox) : Bool :=
  match L with
  | [] => false
  | box :: _ => now - box.timestamp ≤ 400000000

/-- The time stamp of `L[0]`. -/
def firstTimestamp (L : List DetectedBoundingBox) : ℤ := (L.head?.map (·.timestamp)).getD 0

/-- What `draw` does with the tags it has found under the number it has popped. -/
def showTags (now : ℤ) (lastSeq : ℕ) (L : List DetectedBoundingBox) : Shown × Detections :=
  if isFresh now L then
    ({ taken := fun k => if k = .aprilTag then some lastSeq else none, drawn := L },
      { d with
        lastAprilTagTime := firstTimestamp L
        lastAprilTags := L
        aprilTags := d.aprilTags.erase lastSeq })
  else ({}, { d.delete L with aprilTags := d.aprilTags.assign lastSeq [] })

/-- The part of `ArchVulkanRenderer::draw` for tags. -/
def drawAprilTags (now : ℤ) : Shown × Detections :=
  if 280000000 < now - d.lastAprilTagTime then
    match popLargest (d.recent .aprilTag) with
    | none => ({}, d.deleteLastTags)
    | some (lastSeq, rest) =>
      match d.aprilTags lastSeq with
      | none => ({}, d.deleteLastTags.setRecent .aprilTag rest)
      | some L => (d.deleteLastTags.setRecent .aprilTag rest).showTags now lastSeq L
  else ({ drawn := d.lastAprilTags }, d)

/-- The part of `ArchVulkanRenderer::draw` for faces in BB mode. -/
def drawFaces (now : ℤ) : Shown × Detections :=
  if 280000000 < now - d.lastFaceTime then
    match popLargest (d.recent .face) with
    | none => ({}, d.deleteLastFace)
    | some (lastSeq, rest) =>
      match d.faceDetections lastSeq with
      | none => ({}, d.deleteLastFace.setRecent .face rest)
      | some bb =>
        ({ taken := fun k => if k = .face then some lastSeq else none, drawn := [bb] },
          { d.deleteLastFace.setRecent .face rest with
            lastFace := some bb
            lastFaceTime := bb.timestamp
            faceDetections := d.faceDetections.erase lastSeq })
  else ({ drawn := d.lastFace.toList }, d)

/-- `ArchVulkanRenderer::draw`, which reads the clock once for the tags and once for the faces. -/
def draw (c : RendererOptions) (now faceNow : ℤ) : Shown × Detections :=
  let tags := if c.isAprilTags then d.drawAprilTags now else ({}, d)
  let faces := if c.isBB then tags.2.drawFaces faceNow else ({}, tags.2)
  ({ taken := fun k => match k with
      | .aprilTag => tags.1.taken .aprilTag
      | .face => faces.1.taken .face
     drawn := tags.1.drawn ++ faces.1.drawn }, faces.2)

end Detections

inductive DetectionRequest
  | insertAprilTags (seqno : ℕ) (timestamps : List ℤ)
  | insertFaceDetection (seqno : ℕ) (timestamp : ℤ)
  | push (k : DetectionKind) (seqno : ℕ)
  | draw (now faceNow : ℤ)
  deriving DecidableEq

@[reducible] def DetectionRequest.Ans : DetectionRequest → Type
  | draw _ _ => Shown
  | _ => Unit

def Detections.respond (c : RendererOptions) :
    Service DetectionRequest DetectionRequest.Ans Detections
  | .insertAprilTags seqno timestamps, d => some ((), d.insertAprilTags seqno timestamps)
  | .insertFaceDetection seqno timestamp, d => some ((), d.insertFaceDetection seqno timestamp)
  | .push k seqno, d => some ((), d.push k seqno)
  | .draw now faceNow, d => some (d.draw c now faceNow)

end ARArch

import ARArch.Sessions
import ARArch.SequentialCalls

/-!
# Requests to the repository

The calls of the repository as requests of one service, made one after another, together with the
claim flags that the consumers set and clear. `program` gives the code of each request and
`respond` runs it; `respond_eq` is its effect in closed form.
-/

namespace ARArch

inductive Request
  | addCamera (id : CameraId)
  | hardwareAddCamera (id : CameraId)
  | nextSeqno (camera : CameraId)
  | newFrame (camera : CameraId) (frame : FrameRef)
  | newStereoFrame (camera1 : CameraId) (frame1 : FrameRef) (camera2 : CameraId)
      (frame2 : FrameRef)
  | getFrame (camera : CameraId) (seqno : SeqNo)
  | hasFrame (camera : CameraId) (seqno : SeqNo)
  | hasFrameAny (seqno : SeqNo)
  | deleteFrame (camera : CameraId) (seqno : SeqNo)
  | deleteAllFrames (seqno : SeqNo)
  | clearQueued (camera : CameraId)
  | stereoPair (key1 key2 : Key)
  | stereoTwin (camera : CameraId) (seq : SeqNo)
  | deleteStereoPair (camera : CameraId) (seq : SeqNo)
  | setFlag (frame : FrameRef) (u : Consumer) (b : Bool)
  deriving DecidableEq

namespace Request

@[reducible] def Ans : Request → Type
  | addCamera _ | hardwareAddCamera _ | hasFrame _ _ | hasFrameAny _ => Bool
  | deleteStereoPair _ _ => Bool
  | nextSeqno _ | newFrame _ _ | newStereoFrame _ _ _ _ => SeqNo
  | getFrame _ _ => Option FrameRef
  | stereoTwin _ _ => Option Key
  | _ => Unit

def program : (q : Request) → Call q.Ans
  | addCamera id => Call.addCamera id
  | hardwareAddCamera id => Call.hardwareAddCamera id
  | nextSeqno camera => Call.nextSeqno camera
  | newFrame camera frame => Call.newFrame camera frame
  | newStereoFrame camera1 frame1 camera2 frame2 =>
    Call.newStereoFrame camera1 frame1 camera2 frame2
  | getFrame camera seqno => Call.getFrame camera seqno
  | hasFrame camera seqno => Call.hasFrame camera seqno
  | hasFrameAny seqno => Call.hasFrameAny seqno
  | deleteFrame camera seqno => Call.deleteFrame camera seqno
  | deleteAllFrames seqno => Call.deleteAllFrames seqno
  | clearQueued camera => Call.clearQueued camera
  | stereoPair key1 key2 => Call.stereoPair key1.1 key1.2 key2.1 key2.2
  | stereoTwin camera seq => Call.stereoTwin camera seq
  | deleteStereoPair camera seq => Call.deleteStereoPair camera seq
  | setFlag frame u b => Call.perform (.store frame u b)

/-- The answer to a request and the repository it leaves, in closed form. -/
def effect (r : Repository) : (q : Request) → Option (q.Ans × Repository)
  | addCamera id => some (r.addCamera id)
  | hardwareAddCamera id => some (r.hardwareAddCamera id)
  | nextSeqno camera => some (r.number camera, r.nextSeqno camera)
  | newFrame camera frame => some (r.number camera, r.newFrame camera frame)
  | newStereoFrame camera1 frame1 camera2 frame2 =>
    some (r.number camera1, r.newStereoFrame camera1 frame1 camera2 frame2)
  | getFrame camera seqno => (r.getFrame (camera, seqno)).map (fun a => (a, r))
  | hasFrame camera seqno => some (r.hasFrame (camera, seqno), r)
  | hasFrameAny seqno => some (r.cameras.any (fun camera => r.hasFrame (camera, seqno)), r)
  | deleteFrame camera seqno => some ((), r.deleteFrame (camera, seqno))
  | deleteAllFrames seqno => some ((), r.deleteAllFrames seqno)
  | clearQueued camera => some ((), r.clearQueued camera)
  | stereoPair key1 key2 => some ((), r.stereoPair key1 key2)
  | stereoTwin camera seq => some (r.stereoFrames (pairHasher (camera, seq)), r)
  | deleteStereoPair camera seq =>
    some ((r.stereoFrames (pairHasher (camera, seq))).isSome, r.deleteStereoPair (camera, seq))
  | setFlag frame u b => some ((), r.modifyInfo frame (·.setFlag u b))

end Request

/-- The repository as a service. -/
def Repository.respond : Service Request Request.Ans Repository :=
  fun q r => r.call q.program

theorem Repository.respond_eq (q : Request) (r : Repository) : r.respond q = q.effect r := by
  cases q with
  | addCamera id => exact r.call_addCamera id
  | hardwareAddCamera id => exact r.call_hardwareAddCamera id
  | nextSeqno camera => exact r.call_nextSeqno camera
  | newFrame camera frame => exact r.call_newFrame camera frame
  | newStereoFrame camera1 frame1 camera2 frame2 =>
      exact r.call_newStereoFrame camera1 frame1 camera2 frame2
  | getFrame camera seqno => exact r.call_getFrame camera seqno
  | hasFrame camera seqno => exact r.call_hasFrame camera seqno
  | hasFrameAny seqno => exact r.call_hasFrameAny seqno
  | deleteFrame camera seqno => exact r.call_deleteFrame camera seqno
  | deleteAllFrames seqno => exact r.call_deleteAllFrames seqno
  | clearQueued camera => exact r.call_clearQueued camera
  | stereoPair key1 key2 => exact r.call_stereoPair key1 key2
  | stereoTwin camera seq => exact r.call_stereoTwin camera seq
  | deleteStereoPair camera seq => exact r.call_deleteStereoPair camera seq
  | setFlag frame u b => rfl

/-- The requests made so far with their answers, the latest first. -/
abbrev History := List (Done Request Request.Ans)

end ARArch

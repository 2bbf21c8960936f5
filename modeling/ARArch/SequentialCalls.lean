import ARArch.RepositoryCalls

/-!
# Repository calls that run alone

What each call of the repository leaves when no other party interferes, as a function of the
repository. The theorems `alone_*` derive these functions from the programs; later modules cite
them and do not unfold the programs.

`getFrame` on a frame without colour data has no result: `delete_frame` waits for the accessor
that `get_frame` still holds on the camera's entry.
-/

namespace ARArch

namespace Repository

variable (r : Repository)

/-- The number that the camera's counter gives next. -/
def number (camera : CameraId) : SeqNo := (r.seqNumbers camera).getD 0

/-- A counter is created at 0 by the call that answers 0. -/
def nextSeqno (camera : CameraId) : Repository :=
  match r.seqNumbers camera with
  | none => { r with seqNumbers := r.seqNumbers.assign camera 0 }
  | some n => { r with seqNumbers := r.seqNumbers.assign camera (n + 1) }

def registerFrame (k : Key) (f : FrameRef) : Repository :=
  Repository.insertFrame
    { r with cameraFrames := r.cameraFrames.insert k.1 Table.empty } k f

def setSeqno (f : FrameRef) (s : SeqNo) : Repository :=
  r.modifyInfo f (fun i => { i with seqno := s })

def newFrame (camera : CameraId) (f : FrameRef) : Repository :=
  ((r.nextSeqno camera).setSeqno f (r.number camera)).registerFrame (camera, r.number camera) f

def newStereoFrame (camera1 : CameraId) (f1 : FrameRef) (camera2 : CameraId) (f2 : FrameRef) :
    Repository :=
  ((r.nextSeqno camera1).registerFrame (camera1, r.number camera1) f1).registerFrame
    (camera2, r.number camera1) f2

def eraseIf (free : FrameInfo → Bool) (k : Key) : Repository :=
  match r.frame k with
  | none => r
  | some f => if free (r.infos f) then r.eraseFrame k else r

def deleteStereoPair (k : Key) : Repository :=
  match r.stereoFrames (pairHasher k) with
  | none => r
  | some twin =>
    { r with stereoFrames := (r.stereoFrames.erase (pairHasher k)).erase (pairHasher twin) }

def deleteTwin (k : Key) : Repository :=
  match r.stereoFrames (pairHasher k) with
  | none => r
  | some twin => (r.eraseIf FrameInfo.undetected twin).deleteStereoPair k

def deleteFrame (k : Key) : Repository :=
  match r.frame k with
  | none => r
  | some f => if (r.infos f).unclaimed then (r.eraseFrame k).deleteTwin k else r

def deleteAllFrames (s : SeqNo) : Repository :=
  r.cameras.foldl (fun r c => r.eraseIf FrameInfo.undetected (c, s)) r

def clearQueued (camera : CameraId) : Repository :=
  { r with cameraFrames := r.cameraFrames.adjust camera (fun _ => Table.empty) }

def linkTwin (k twin : Key) : Repository :=
  { r with stereoFrames := r.stereoFrames.assign (pairHasher k) twin }

/-- What `get_frame` answers; `none` if it never returns. -/
def getFrame (k : Key) : Option (Option FrameRef) :=
  match r.frame k with
  | none => some none
  | some f => if 0 < (r.infos f).rgbaLen then some (some f) else none

def hasFrame (k : Key) : Bool := (r.frame k).isSome

def addCamera (id : CameraId) : Bool × Repository :=
  if id = noCamera ∨ id ∈ r.cameras then (false, r)
  else (true, { r with cameras := r.cameras ++ [id] })

def hardwareAddCamera (id : CameraId) : Bool × Repository :=
  ((r.addCamera id).1,
    if (r.addCamera id).1 then (r.addCamera id).2.nextSeqno id else (r.addCamera id).2)

def stereoPair (k1 k2 : Key) : Repository := (r.linkTwin k1 k2).linkTwin k2 k1

variable {r} in
theorem eraseIf_of_none (free : FrameInfo → Bool) {k : Key} (h : r.frame k = none) :
    r.eraseIf free k = r := by
  simp [eraseIf, h]

end Repository

/-- A repository on which only the lock of one camera's entry is held. -/
def Memory.holding (c : CameraId) (r : Repository) (accepted : List (Key × Consumer)) :
    Memory Unit :=
  { repo := r, cameraLock := Table.empty.assign c (), accepted := accepted }

namespace Call

open Repository

variable {α : Type} (answer : Op → Bool) (r : Repository) (acc : List (Key × Consumer))
  (c : CameraId) (s : SeqNo)

theorem call_of_alone {p : Call α} {a : α} {r' : Repository}
    (h : p.alone (fun _ => false) (Memory.idle r []) = some (a, Memory.idle r' [])) :
    r.call p = some (a, r') := by
  rw [Repository.call, h]
  rfl

theorem exec_findCamera (b : Bool) {frames : Table SeqNo FrameRef}
    (hm : r.cameraFrames c = some frames) :
    Memory.exec b () (.findCamera c) (Memory.idle r acc) =
      some (true, Memory.holding c r acc) := by
  simp [Memory.exec, Memory.idle, Memory.holding, hm]

theorem exec_findCamera_of_none (b : Bool) (hm : r.cameraFrames c = none) :
    Memory.exec b () (.findCamera c) (Memory.idle r acc) = some (false, Memory.idle r acc) := by
  simp [Memory.exec, Memory.idle, hm]

theorem exec_dropCamera (b : Bool) :
    Memory.exec b () (.dropCamera c) (Memory.holding c r acc) = some ((), Memory.idle r acc) := by
  simp [Memory.exec, Memory.idle, Memory.holding]

theorem alone_loadUnclaimed (f : FrameRef) (m : Memory Unit) :
    (loadUnclaimed f).alone answer m = some ((m.repo.infos f).unclaimed, m) := by
  cases hd : (m.repo.infos f).isDetecting <;> cases ht : (m.repo.infos f).isTracking <;>
    cases hr : (m.repo.infos f).isRendering <;>
    simp [loadUnclaimed, Memory.exec, FrameInfo.flag, FrameInfo.unclaimed, hd, ht, hr]

theorem alone_loadUndetected (f : FrameRef) (m : Memory Unit) :
    (loadUndetected f).alone answer m = some ((m.repo.infos f).undetected, m) := by
  cases hd : (m.repo.infos f).isDetecting <;> cases ht : (m.repo.infos f).isTracking <;>
    simp [loadUndetected, Memory.exec, FrameInfo.flag, FrameInfo.undetected, hd, ht]

/-- The block shared by the deleting calls, run while the frame itself is not locked. -/
theorem alone_eraseIf {mayErase : FrameRef → Call Bool} {free : FrameInfo → Bool}
    (hfree : ∀ f m, (mayErase f).alone answer m = some (free (m.repo.infos f), m))
    (m : Memory Unit) (hl : m.frameLock (c, s) = none) :
    (eraseIf mayErase c s).alone answer m =
      some ((m.repo.frame (c, s)).any (fun f => free (m.repo.infos f)),
        m.withRepo (m.repo.eraseIf free (c, s))) := by
  cases hf : m.repo.frame (c, s) with
  | none => simp [eraseIf, Memory.exec, Memory.withRepo, Repository.eraseIf, hf]
  | some f =>
      cases hb : free (m.repo.infos f) <;>
        simp [eraseIf, Memory.exec, Memory.withRepo, Repository.eraseIf, hf, hl, hfree, hb,
          Table.erase_assign_of_none hl]

theorem alone_eraseIf_holding {mayErase : FrameRef → Call Bool} {free : FrameInfo → Bool}
    (hfree : ∀ f m, (mayErase f).alone answer m = some (free (m.repo.infos f), m)) :
    (eraseIf mayErase c s).alone answer (Memory.holding c r acc) =
      some ((r.frame (c, s)).any (fun f => free (r.infos f)),
        Memory.holding c (r.eraseIf free (c, s)) acc) :=
  alone_eraseIf answer c s hfree _ rfl

theorem alone_nextSeqno :
    (nextSeqno c).alone answer (Memory.idle r acc) =
      some (r.number c, Memory.idle (r.nextSeqno c) acc) := by
  cases hn : r.seqNumbers c <;>
    simp [nextSeqno, Memory.exec, Memory.idle, Memory.withRepo, number, Repository.nextSeqno, hn]

theorem alone_registerFrame (f : FrameRef) :
    (registerFrame c s f).alone answer (Memory.idle r acc) =
      some ((), Memory.idle (r.registerFrame (c, s) f) acc) := by
  cases hm : r.cameraFrames c with
  | none =>
      simp [registerFrame, Memory.exec, Memory.idle, Memory.withRepo, Repository.registerFrame, hm]
  | some frames =>
      simp [registerFrame, Memory.exec, Memory.idle, Memory.withRepo, Repository.registerFrame,
        Table.insert_of_some, hm]

theorem alone_newFrame (f : FrameRef) :
    (newFrame c f).alone answer (Memory.idle r acc) =
      some (r.number c, Memory.idle (r.newFrame c f) acc) := by
  have hset (r : Repository) (s : SeqNo) : Memory.exec (answer (.setSeqno f s)) ()
      (.setSeqno f s) (Memory.idle r acc) = some ((), Memory.idle (r.setSeqno f s) acc) := rfl
  simp [newFrame, alone_nextSeqno, alone_registerFrame, hset, Repository.newFrame]

theorem alone_newStereoFrame (camera1 : CameraId) (f1 : FrameRef) (camera2 : CameraId)
    (f2 : FrameRef) :
    (newStereoFrame camera1 f1 camera2 f2).alone answer (Memory.idle r acc) =
      some (r.number camera1, Memory.idle (r.newStereoFrame camera1 f1 camera2 f2) acc) := by
  simp [newStereoFrame, alone_nextSeqno, alone_registerFrame, Repository.newStereoFrame]

theorem alone_deleteStereoPair (m : Memory Unit) :
    (deleteStereoPair c s).alone answer m =
      some ((m.repo.stereoFrames (pairHasher (c, s))).isSome,
        m.withRepo (m.repo.deleteStereoPair (c, s))) := by
  cases ht : m.repo.stereoFrames (pairHasher (c, s)) with
  | none => simp [deleteStereoPair, Memory.exec, Memory.withRepo, Repository.deleteStereoPair, ht]
  | some twin =>
      cases hw : m.repo.stereoFrames.erase (pairHasher (c, s)) (pairHasher twin) with
      | none =>
          have he := Table.erase_of_none hw
          simp [deleteStereoPair, Memory.exec, Memory.withRepo, Repository.deleteStereoPair, ht,
            hw, he]
      | some w =>
          simp [deleteStereoPair, Memory.exec, Memory.withRepo, Repository.deleteStereoPair, ht,
            hw]

theorem alone_deleteTwin :
    (deleteTwin c s).alone answer (Memory.holding c r acc) =
      some ((), Memory.idle (r.deleteTwin (c, s)) acc) := by
  have hfind : Memory.exec (answer (.stereoFind (pairHasher (c, s)))) ()
      (.stereoFind (pairHasher (c, s))) (Memory.holding c r acc) =
      some (r.stereoFrames (pairHasher (c, s)), Memory.holding c r acc) := rfl
  have hdelete (m : Memory Unit) := alone_deleteStereoPair answer c s m
  cases ht : r.stereoFrames (pairHasher (c, s)) with
  | none => simp [deleteTwin, stereoTwin, hfind, exec_dropCamera, Repository.deleteTwin, ht]
  | some twin =>
      obtain ⟨c2, s2⟩ := twin
      cases hm : r.cameraFrames c2 with
      | none =>
          have hf : r.frame (c2, s2) = none := by simp [frame, hm]
          simp [deleteTwin, stereoTwin, hfind, exec_dropCamera, exec_findCamera_of_none _ _ _ _ hm,
            hdelete, Repository.deleteTwin, Repository.eraseIf, ht, hf]
          rfl
      | some frames =>
          simp [deleteTwin, stereoTwin, hfind, exec_dropCamera, exec_findCamera _ _ _ _ hm,
            alone_eraseIf_holding answer _ _ _ _ (alone_loadUndetected answer), hdelete,
            Repository.deleteTwin, ht]
          simp [Memory.holding, Memory.idle, Memory.withRepo, Memory.exec]

theorem alone_deleteFrame :
    (deleteFrame c s).alone answer (Memory.idle r acc) =
      some ((), Memory.idle (r.deleteFrame (c, s)) acc) := by
  have herase := alone_eraseIf_holding answer r acc c s (alone_loadUnclaimed answer)
  cases hm : r.cameraFrames c with
  | none =>
      have hf : r.frame (c, s) = none := by simp [frame, hm]
      simp [deleteFrame, exec_findCamera_of_none _ _ _ _ hm, Repository.deleteFrame, hf]
  | some frames =>
      cases hf : r.frame (c, s) with
      | none =>
          simp [deleteFrame, exec_findCamera _ _ _ _ hm, exec_dropCamera, herase,
            Repository.deleteFrame, Repository.eraseIf, hf]
      | some f =>
          cases hu : (r.infos f).unclaimed <;>
            simp [deleteFrame, exec_findCamera _ _ _ _ hm, exec_dropCamera, herase,
              alone_deleteTwin, Repository.deleteFrame, Repository.eraseIf, hf, hu]

theorem alone_getFrame :
    (getFrame c s).alone answer (Memory.idle r acc) =
      (r.getFrame (c, s)).map (fun a => (a, Memory.idle r acc)) := by
  cases hm : r.cameraFrames c with
  | none =>
      have hf : r.frame (c, s) = none := by simp [frame, hm]
      simp [getFrame, exec_findCamera_of_none _ _ _ _ hm, Repository.getFrame, hf]
  | some frames =>
      cases hf : r.frame (c, s) with
      | none =>
          simp [getFrame, Memory.exec, Memory.idle, Repository.getFrame, hm, hf]
      | some f =>
          by_cases hl : 0 < (r.infos f).rgbaLen
          · simp [getFrame, Memory.exec, Memory.idle, Repository.getFrame, hm, hf, hl]
          · -- `delete_frame` asks for the entry that this call holds
            simp [getFrame, deleteFrame, Memory.exec, Memory.idle, Repository.getFrame, hm, hf, hl]

theorem alone_hasFrame :
    (hasFrame c s).alone answer (Memory.idle r acc) =
      some (r.hasFrame (c, s), Memory.idle r acc) := by
  cases hm : r.cameraFrames c <;>
    simp [hasFrame, Memory.exec, Memory.idle, Repository.hasFrame, frame, hm]

theorem alone_hasFrameIn (cameras : List CameraId) :
    (hasFrameIn s cameras).alone answer (Memory.idle r acc) =
      some (cameras.any (fun c => r.hasFrame (c, s)), Memory.idle r acc) := by
  induction cameras with
  | nil => simp [hasFrameIn]
  | cons c cameras ih =>
      cases hh : r.hasFrame (c, s) <;> simp [hasFrameIn, alone_hasFrame, ih, hh]

theorem alone_hasFrameAny :
    (hasFrameAny s).alone answer (Memory.idle r acc) =
      some (r.cameras.any (fun c => r.hasFrame (c, s)), Memory.idle r acc) := by
  have hcameras : Memory.exec (answer .cameraIds) () .cameraIds (Memory.idle r acc) =
      some (r.cameras, Memory.idle r acc) := rfl
  simp [hasFrameAny, hcameras, alone_hasFrameIn]

theorem alone_deleteAllFrames :
    (deleteAllFrames s).alone answer (Memory.idle r acc) =
      some ((), Memory.idle (r.deleteAllFrames s) acc) := by
  have hcameras : Memory.exec (answer .cameraIds) () .cameraIds (Memory.idle r acc) =
      some (r.cameras, Memory.idle r acc) := rfl
  have herase (r : Repository) (c : CameraId) :=
    alone_eraseIf_holding answer r acc c s (alone_loadUndetected answer)
  simp only [deleteAllFrames, Repository.deleteAllFrames, Atomic.Prog.run_bind,
    Atomic.Prog.run_perform, hcameras, Option.bind_some]
  clear hcameras
  generalize r.cameras = cameras
  induction cameras generalizing r with
  | nil => rfl
  | cons c cameras ih =>
      rw [Atomic.Prog.run_forEach_cons, List.foldl_cons]
      cases hm : r.cameraFrames c with
      | none =>
          have hf : r.frame (c, s) = none := by simp [frame, hm]
          simp [exec_findCamera_of_none _ _ _ _ hm, ih, eraseIf_of_none _ hf]
      | some frames =>
          simp [exec_findCamera _ _ _ _ hm, exec_dropCamera, herase, ih]

theorem alone_clearQueued :
    (clearQueued c).alone answer (Memory.idle r acc) =
      some ((), Memory.idle (r.clearQueued c) acc) := by
  cases hm : r.cameraFrames c with
  | none =>
      have he : r.cameraFrames.adjust c (fun _ => Table.empty) = r.cameraFrames := by
        rw [Table.adjust, hm, Option.map_none, ← hm, Function.update_eq_self]
      simp [clearQueued, exec_findCamera_of_none _ _ _ _ hm, Repository.clearQueued, he]
  | some frames =>
      simp [clearQueued, Memory.exec, Memory.idle, Memory.withRepo, Repository.clearQueued, hm]

theorem alone_linkTwin (k twin : Key) :
    (linkTwin k twin).alone answer (Memory.idle r acc) =
      some ((), Memory.idle (r.linkTwin k twin) acc) := by
  cases hk : r.stereoFrames (pairHasher k) <;>
    simp [linkTwin, Memory.exec, Memory.idle, Memory.withRepo, Repository.linkTwin, hk,
      Table.insert_of_none]

theorem alone_stereoPair (k1 k2 : Key) :
    (stereoPair k1.1 k1.2 k2.1 k2.2).alone answer (Memory.idle r acc) =
      some ((), Memory.idle (r.stereoPair k1 k2) acc) := by
  simp [stereoPair, alone_linkTwin, Repository.stereoPair]

theorem alone_stereoTwin :
    (stereoTwin c s).alone answer (Memory.idle r acc) =
      some (r.stereoFrames (pairHasher (c, s)), Memory.idle r acc) := by
  simp [stereoTwin, Memory.exec, Memory.idle]

theorem alone_addCamera :
    (addCamera c).alone answer (Memory.idle r acc) =
      some ((r.addCamera c).1, Memory.idle (r.addCamera c).2 acc) := by
  by_cases hc : c = noCamera
  · simp [addCamera, Repository.addCamera, hc]
  · by_cases hk : c ∈ r.cameras <;>
      simp [addCamera, Memory.exec, Memory.idle, Memory.withRepo, Repository.addCamera, hc, hk]

theorem alone_hardwareAddCamera :
    (hardwareAddCamera c).alone answer (Memory.idle r acc) =
      some ((r.hardwareAddCamera c).1, Memory.idle (r.hardwareAddCamera c).2 acc) := by
  cases ha : (r.addCamera c).1 <;>
    simp [hardwareAddCamera, alone_addCamera, alone_nextSeqno, Repository.hardwareAddCamera, ha]

end Call

namespace Repository

open Call

variable (r : Repository) (c : CameraId) (s : SeqNo) (f : FrameRef) (k1 k2 : Key)

theorem call_nextSeqno : r.call (Call.nextSeqno c) = some (r.number c, r.nextSeqno c) :=
  call_of_alone r (alone_nextSeqno _ r [] c)

theorem call_newFrame : r.call (Call.newFrame c f) = some (r.number c, r.newFrame c f) :=
  call_of_alone r (alone_newFrame _ r [] c f)

theorem call_newStereoFrame (camera2 : CameraId) (f2 : FrameRef) :
    r.call (Call.newStereoFrame c f camera2 f2) =
      some (r.number c, r.newStereoFrame c f camera2 f2) :=
  call_of_alone r (alone_newStereoFrame _ r [] c f camera2 f2)

theorem call_getFrame : r.call (Call.getFrame c s) = (r.getFrame (c, s)).map (fun a => (a, r)) := by
  rw [Repository.call, alone_getFrame, Option.map_map]
  rfl

theorem call_hasFrame : r.call (Call.hasFrame c s) = some (r.hasFrame (c, s), r) :=
  call_of_alone r (alone_hasFrame _ r [] c s)

theorem call_hasFrameAny :
    r.call (Call.hasFrameAny s) = some (r.cameras.any (fun c => r.hasFrame (c, s)), r) :=
  call_of_alone r (alone_hasFrameAny _ r [] s)

theorem call_deleteFrame : r.call (Call.deleteFrame c s) = some ((), r.deleteFrame (c, s)) :=
  call_of_alone r (alone_deleteFrame _ r [] c s)

theorem call_deleteAllFrames : r.call (Call.deleteAllFrames s) = some ((), r.deleteAllFrames s) :=
  call_of_alone r (alone_deleteAllFrames _ r [] s)

theorem call_clearQueued : r.call (Call.clearQueued c) = some ((), r.clearQueued c) :=
  call_of_alone r (alone_clearQueued _ r [] c)

theorem call_stereoPair :
    r.call (Call.stereoPair k1.1 k1.2 k2.1 k2.2) = some ((), r.stereoPair k1 k2) :=
  call_of_alone r (alone_stereoPair _ r [] k1 k2)

theorem call_stereoTwin :
    r.call (Call.stereoTwin c s) = some (r.stereoFrames (pairHasher (c, s)), r) :=
  call_of_alone r (alone_stereoTwin _ r [] c s)

theorem call_deleteStereoPair :
    r.call (Call.deleteStereoPair c s) =
      some ((r.stereoFrames (pairHasher (c, s))).isSome, r.deleteStereoPair (c, s)) :=
  call_of_alone r (alone_deleteStereoPair _ c s (Memory.idle r []))

theorem call_addCamera : r.call (Call.addCamera c) = some (r.addCamera c) :=
  call_of_alone r (alone_addCamera _ r [] c)

theorem call_hardwareAddCamera :
    r.call (Call.hardwareAddCamera c) = some (r.hardwareAddCamera c) :=
  call_of_alone r (alone_hardwareAddCamera _ r [] c)

end Repository
end ARArch

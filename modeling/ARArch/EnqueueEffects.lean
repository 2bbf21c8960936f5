import ARArch.CameraQueue
import ARArch.CallEffects

/-!
# What enqueuing does to the repository

When its queue is full, `enqueue` takes the oldest frame and asks the repository to delete the
number written in it. A frame in the queue has not been numbered: the number is still 0, which is
the number of another frame, the first that the camera registered.
-/

namespace ARArch

open Atomic

/-- The queues of all cameras, with a repository on which no lock is held. -/
def CameraMemory.idle (capacity : CameraId → ℕ) (queues : CameraId → List FrameRef)
    (r : Repository) : CameraMemory Unit :=
  { capacity := capacity, queues := queues, base := Memory.idle r [] }

/-- Run a call on a camera alone. -/
abbrev CameraCall.alone {α : Type} (p : CameraCall α) (m : CameraMemory Unit) :
    Option (α × CameraMemory Unit) :=
  Prog.run (fun i => CameraMemory.exec () i) p m

/-- The frames in the queue have not been numbered. -/
def Unnumbered (queue : List FrameRef) (r : Repository) : Prop :=
  ∀ f ∈ queue, (r.infos f).seqno = 0

theorem Unnumbered.of_cons {r r' : Repository} {f : FrameRef} {rest : List FrameRef}
    (h : Unnumbered (f :: rest) r) (hr : r'.infos = r.infos) : Unnumbered rest r' := by
  intro g hg
  rw [hr]
  exact h g (List.mem_cons_of_mem f hg)

/-- `enqueue` returns and leaves every frame stored where it is. -/
def EnqueueKeepsFrames (m : CameraMemory Unit) (id : CameraId) (data : FrameRef) : Prop :=
  ∃ b m', (CameraCall.enqueue id data).alone m = some (b, m') ∧
    ∀ k f, m.base.repo.frame k = some f → m'.base.repo.frame k = some f

namespace CameraCall

variable {capacity : CameraId → ℕ} {queues : CameraId → List FrameRef} {r : Repository}
  {id : CameraId} {f data : FrameRef} {rest : List FrameRef}

theorem alone_repository {α : Type} (p : Call α) (m : Memory Unit) :
    (repository p).alone ⟨capacity, queues, m⟩ =
      (p.alone (fun _ => false) m).map (fun q => (q.1, ⟨capacity, queues, q.2⟩)) :=
  Prog.run_embed (fun i => Memory.exec false () i) (fun i => CameraMemory.exec () i) CameraOp.repo
    (fun _ a => a) (fun _ a => a) (CameraMemory.mk capacity queues) (fun _ _ => rfl)
    (fun _ _ => rfl) p m

theorem alone_deleteFrame (s : SeqNo) :
    (repository (Call.deleteFrame id s)).alone (.idle capacity queues r) =
      some ((), .idle capacity queues (r.deleteFrame (id, s))) := by
  rw [CameraMemory.idle, alone_repository, Call.alone_deleteFrame]
  rfl

theorem exec_tryPop_nil (hq : queues id = []) :
    CameraMemory.exec () (.tryPop id) (.idle capacity queues r) =
      some (none, .idle capacity queues r) := by
  simp [CameraMemory.exec, CameraMemory.idle, hq]

theorem exec_tryPop_cons (hq : queues id = f :: rest) :
    CameraMemory.exec () (.tryPop id) (.idle capacity queues r) =
      some (some f, .idle capacity (Function.update queues id rest) r) := by
  simp [CameraMemory.exec, CameraMemory.idle, CameraMemory.setQueue, hq]

theorem exec_tryPush_of_room (h : (queues id).length < capacity id) :
    CameraMemory.exec () (.tryPush id data) (.idle capacity queues r) =
      some (true, .idle capacity (Function.update queues id (queues id ++ [data])) r) := by
  simp [CameraMemory.exec, CameraMemory.idle, CameraMemory.setQueue, h]

theorem exec_tryPush_of_full (h : ¬ (queues id).length < capacity id) :
    CameraMemory.exec () (.tryPush id data) (.idle capacity queues r) =
      some (false, .idle capacity queues r) := by
  simp [CameraMemory.exec, CameraMemory.idle, h]

/-- What happens after a turn of the loop has made room, or not. -/
def tryAgain (id : CameraId) (data : FrameRef) (n : ℕ) : CameraCall Bool := do
  if ← perform (.tryPush id data) then pure true else enqueueLoop id data n

theorem alone_enqueueLoop_nil (n : ℕ) (hq : queues id = []) :
    (enqueueLoop id data (n + 1)).alone (.idle capacity queues r) =
      (tryAgain id data n).alone (.idle capacity queues r) := by
  rw [enqueueLoop, tryAgain, alone, Prog.run_bind, Prog.run_perform, exec_tryPop_nil hq]
  rfl

theorem alone_enqueueLoop_cons (n : ℕ) (hq : queues id = f :: rest) :
    (enqueueLoop id data (n + 1)).alone (.idle capacity queues r) =
      (tryAgain id data n).alone (.idle capacity (Function.update queues id rest)
        (r.deleteFrame (id, (r.infos f).seqno))) := by
  have hseqno : CameraMemory.exec () (.repo (.seqno f))
      (.idle capacity (Function.update queues id rest) r) =
      some ((r.infos f).seqno, .idle capacity (Function.update queues id rest) r) := rfl
  rw [enqueueLoop, tryAgain, alone, Prog.run_bind, Prog.run_perform, exec_tryPop_cons hq]
  simp only [Option.bind_some, Prog.run_bind, Prog.run_perform, hseqno, alone_deleteFrame]

theorem alone_tryAgain_of_room (n : ℕ) (h : (queues id).length < capacity id) :
    ∃ m', (tryAgain id data n).alone (.idle capacity queues r) = some (true, m') ∧
      m'.base.repo = r := by
  refine ⟨.idle capacity (Function.update queues id (queues id ++ [data])) r, ?_, rfl⟩
  rw [tryAgain, alone, Prog.run_bind, Prog.run_perform, exec_tryPush_of_room h]
  rfl

theorem alone_tryAgain_of_full (n : ℕ) (h : ¬ (queues id).length < capacity id) :
    (tryAgain id data n).alone (.idle capacity queues r) =
      (enqueueLoop id data n).alone (.idle capacity queues r) := by
  rw [tryAgain, alone, Prog.run_bind, Prog.run_perform, exec_tryPush_of_full h]
  rfl

/-- The loop leaves the repository as it is where no frame under number 0 can go. -/
theorem alone_enqueueLoop (n : ℕ) (hq : Unnumbered (queues id) r)
    (hn : queues id ≠ [] → ¬ r.lets FrameInfo.unclaimed (id, 0)) :
    ∃ b m', (enqueueLoop id data n).alone (.idle capacity queues r) = some (b, m') ∧
      m'.base.repo = r := by
  induction n generalizing queues with
  | zero => exact ⟨false, _, rfl, rfl⟩
  | succ n ih =>
      have hagain (queues : CameraId → List FrameRef) (hq : Unnumbered (queues id) r)
          (hn : queues id ≠ [] → ¬ r.lets FrameInfo.unclaimed (id, 0)) :
          ∃ b m', (tryAgain id data n).alone (.idle capacity queues r) = some (b, m') ∧
            m'.base.repo = r := by
        by_cases hroom : (queues id).length < capacity id
        · exact ⟨true, alone_tryAgain_of_room n hroom⟩
        · rw [alone_tryAgain_of_full n hroom]
          exact ih hq hn
      cases hqueue : queues id with
      | nil =>
          rw [alone_enqueueLoop_nil n hqueue]
          exact hagain queues hq hn
      | cons f rest =>
          have hf : (r.infos f).seqno = 0 := hq f (by simp [hqueue])
          have hkeep : ¬ r.lets FrameInfo.unclaimed (id, 0) := hn (by simp [hqueue])
          rw [hqueue] at hq
          rw [alone_enqueueLoop_cons n hqueue, hf, Repository.deleteFrame_of_not_lets hkeep]
          refine hagain _ ?_ (fun _ => hkeep)
          rw [Function.update_self]
          exact hq.of_cons rfl

/-- A call that finds its queue full, with a frame in it, deletes number 0 of its camera. -/
theorem alone_enqueue (hq : Unnumbered (queues id) r) :
    ∃ b m', (enqueue id data).alone (.idle capacity queues r) = some (b, m') ∧
      m'.base.repo =
        if capacity id ≤ (queues id).length ∧ queues id ≠ [] then r.deleteFrame (id, 0) else r := by
  have henqueue : enqueue id data = tryAgain id data 2 := rfl
  rw [henqueue]
  by_cases hroom : (queues id).length < capacity id
  · rw [if_neg (fun h => absurd hroom (not_lt.mpr h.1))]
    exact ⟨true, alone_tryAgain_of_room 2 hroom⟩
  · rw [alone_tryAgain_of_full 2 hroom]
    cases hqueue : queues id with
    | nil =>
        rw [if_neg (fun h => h.2 rfl)]
        exact alone_enqueueLoop 2 hq (fun h => absurd hqueue h)
    | cons f rest =>
        have hf : (r.infos f).seqno = 0 := hq f (by simp [hqueue])
        rw [hqueue] at hq hroom
        rw [if_pos ⟨not_lt.mp hroom, by simp⟩, alone_enqueueLoop_cons 1 hqueue, hf]
        have hrest : Unnumbered (Function.update queues id rest id) (r.deleteFrame (id, 0)) := by
          rw [Function.update_self]
          exact hq.of_cons (Repository.infos_deleteFrame r)
        by_cases hagain : (Function.update queues id rest id).length < capacity id
        · exact ⟨true, alone_tryAgain_of_room 1 hagain⟩
        · rw [alone_tryAgain_of_full 1 hagain]
          exact alone_enqueueLoop 1 hrest (fun _ => Repository.not_lets_deleteFrame r (id, 0))

end CameraCall

/-- The queue is full, not empty, and the camera has a frame under number 0 that may go. -/
def EvictsRegistered (capacity : CameraId → ℕ) (queues : CameraId → List FrameRef)
    (r : Repository) (id : CameraId) : Prop :=
  (capacity id ≤ (queues id).length ∧ queues id ≠ []) ∧ r.lets FrameInfo.unclaimed (id, 0)

/-- `enqueue` returns with every stored frame in place unless it evicts a frame while the frame
under number 0 may go. -/
theorem enqueue_keeps_frames_iff (capacity : CameraId → ℕ) (queues : CameraId → List FrameRef)
    (r : Repository) (id : CameraId) (data : FrameRef) (hq : Unnumbered (queues id) r) :
    EnqueueKeepsFrames (.idle capacity queues r) id data ↔
      ¬ EvictsRegistered capacity queues r id := by
  obtain ⟨b, m', hm', hr'⟩ := @CameraCall.alone_enqueue capacity queues r id data hq
  have hrun : EnqueueKeepsFrames (.idle capacity queues r) id data ↔
      ∀ k f, r.frame k = some f → m'.base.repo.frame k = some f := by
    constructor
    · rintro ⟨b', m'', hm'', hkeep⟩
      rw [hm'] at hm''
      cases hm''
      exact hkeep
    · exact fun hkeep => ⟨b, m', hm', hkeep⟩
  rw [hrun, hr']
  constructor
  · rintro hkeep ⟨hfull, hlets⟩
    rw [if_pos hfull] at hkeep
    have hnone := Repository.frame_deleteFrame_self hlets
    obtain ⟨f, hf, _⟩ := hlets
    have hgone := hkeep _ _ hf
    rw [hnone] at hgone
    cases hgone
  · intro hn k f hf
    split_ifs with hfull
    · rwa [Repository.deleteFrame_of_not_lets (fun hlets => hn ⟨hfull, hlets⟩)]
    · exact hf

/-- The full queue of camera 0 with frame 8, and frame 7 registered under a number of camera 0. -/
def fullQueue (s : SeqNo) : CameraMemory Unit :=
  .idle (fun _ => 1) (fun _ => [8])
    { cameras := [0], cameraFrames := Table.empty.assign 0 (Table.empty.assign s 7) }

/-- Frame 7 stays under number 1. -/
theorem enqueue_keeps_frames_iff_one : EnqueueKeepsFrames (fullQueue 1) 0 9 := by
  refine (enqueue_keeps_frames_iff _ _ _ 0 9 (fun f _ => rfl)).mpr ?_
  rintro ⟨_, f, hf, _⟩
  cases hf

/-- Frame 7 goes from number 0 when frame 8 is evicted. -/
theorem enqueue_removes_registered :
    Unnumbered ((fullQueue 0).queues 0) (fullQueue 0).base.repo ∧
      ¬ EnqueueKeepsFrames (fullQueue 0) 0 9 := by
  refine ⟨fun f _ => rfl, ?_⟩
  rintro ⟨b, m', hm', hkeep⟩
  have hgone := hkeep (0, 0) 7 (by decide)
  cases hm'
  revert hgone
  decide

end ARArch

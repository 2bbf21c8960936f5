import ARArch.CallEffects
import ARArch.FlowGraph
import ARArch.QueueOrder

/-!
# The stereo source node

`TBBStereoCameraSourceNode` looks at the sizes of two camera queues and, if neither is empty, takes
a frame from each and registers the two under one number. Other consumers may take frames between
these steps. A dequeue that then fails makes the call return without a message, and if it is the
second one, the frame that the first has taken is lost. A call that returns `false`, since the
program is to terminate, has its message dropped by `source_node`.

The node is one consumer of the queues among others. Nobody else uses the repository here, and
`must_terminate` is what it is when the call returns.
-/

namespace ARArch

open Atomic

/-- What a call leaves in `pcameraFrame`, if it writes to it, and what it returns. -/
structure SourceAnswer where
  pcameraFrame : Option CameraFrame
  isMore : Bool

/-- The message that the call has written and that `source_node` sends, as it does when the call
returns `true`. -/
def SourceAnswer.emitted (a : SourceAnswer) : Option CameraFrame :=
  if a.isMore then a.pcameraFrame else none

/-- `TBBStereoCameraSourceNode::operator()`. -/
def CameraCall.stereoCameraSource (camera0 camera1 : CameraId) (mustTerminate : Bool) :
    CameraCall SourceAnswer := do
  let qs1 ← perform (.size camera0)
  let qs2 ← perform (.size camera1)
  if 0 < qs1 ∧ 0 < qs2 then
    match ← dequeue camera0 with
    | none => pure ⟨none, !mustTerminate⟩
    | some frame1 =>
      match ← dequeue camera1 with
      | none => pure ⟨none, !mustTerminate⟩
      | some frame2 => do
        let seq ← repository (Call.newStereoFrame camera0 frame1 camera1 frame2)
        pure ⟨some (CameraFrame.setStereo {} CameraFrame.first camera0 camera1 seq), !mustTerminate⟩
  else pure ⟨some {}, !mustTerminate⟩

/-- A repository in which the frames of two cameras have numbers that the counter of the first has
given. -/
structure StereoStore (camera0 camera1 : CameraId) where
  repo : Repository
  counter : (repo.seqNumbers camera0).isSome = true
  below : ∀ c, c = camera0 ∨ c = camera1 → ∀ n, (repo.frame (c, n)).isSome = true →
    n < repo.number camera0

namespace StereoStore

variable {camera0 camera1 : CameraId} (store : StereoStore camera0 camera1)

/-- The number that comes next is free. -/
theorem frame_number {c : CameraId} (hc : c = camera0 ∨ c = camera1) :
    store.repo.frame (c, store.repo.number camera0) = none := by
  by_contra hsome
  have hlt := store.below c hc _ (Option.isSome_iff_ne_none.mpr hsome)
  exact lt_irrefl _ hlt

/-- The cameras have been added, and no frame has come yet. -/
def ofNoFrames (repo : Repository) (hcounter : (repo.seqNumbers camera0).isSome = true)
    (hframes : ∀ k, repo.frame k = none) : StereoStore camera0 camera1 where
  repo := repo
  counter := hcounter
  below c _ n hsome := by
    rw [hframes] at hsome
    cases hsome

/-- A stereo frame is registered. -/
def register (frame1 frame2 : FrameRef) : StereoStore camera0 camera1 where
  repo := store.repo.newStereoFrame camera0 frame1 camera1 frame2
  counter := by
    change ((store.repo.nextSeqno camera0).seqNumbers camera0).isSome = true
    rw [Repository.seqNumbers_nextSeqno_self]
    rfl
  below c hc n hsome := by
    obtain ⟨m, hm⟩ := Option.isSome_iff_exists.mp store.counter
    have hnumber : store.repo.number camera0 = m := by
      rw [Repository.number, hm]
      rfl
    have hnext : (store.repo.newStereoFrame camera0 frame1 camera1 frame2).number camera0 =
        m + 1 := by
      change ((store.repo.nextSeqno camera0).seqNumbers camera0).getD 0 = m + 1
      rw [Repository.seqNumbers_nextSeqno_self, hm]
      rfl
    rw [hnext]
    by_cases hn : n = m
    · rw [hn]
      exact Nat.lt_succ_self m
    · have hne (d : CameraId) : ((c, n) : Key) ≠ (d, store.repo.number camera0) := by
        rw [hnumber]
        exact fun h => hn (congrArg Prod.snd h)
      unfold Repository.newStereoFrame at hsome
      rw [Repository.frame_registerFrame_of_ne _ _ (hne camera1),
        Repository.frame_registerFrame_of_ne _ _ (hne camera0), Repository.frame_nextSeqno] at hsome
      have hlt := store.below c hc n hsome
      rw [hnumber] at hlt
      exact Nat.lt_succ_of_lt hlt

end StereoStore

/-- The two queues and what is done with them: one call of the source, and those of the other
consumers. -/
structure StereoTraffic where
  camera0 : CameraId
  camera1 : CameraId
  ne : camera0 ≠ camera1
  mustTerminate : Bool
  queues : CameraId → List FrameRef
  capacity : CameraId → ℕ
  store : StereoStore camera0 camera1
  calls : ℕ → List (CameraId × TakeCall)

/-- The source is the first of the consumers. -/
def sourceParty : QueueParty := .consumer 0

namespace StereoTraffic

def program (T : StereoTraffic) : QueueParty → CameraCall (Option SourceAnswer)
  | .producer => pure none
  | .consumer 0 => do
    let a ← CameraCall.stereoCameraSource T.camera0 T.camera1 T.mustTerminate
    pure (some a)
  | .consumer (j + 1) => do
    Prog.forEach (fun p : CameraId × TakeCall => p.2.program p.1) (T.calls j)
    pure none

def pool (T : StereoTraffic) :
    Pool QueueParty CameraOp CameraOp.Ans (Option SourceAnswer) CameraShared :=
  ⟨T.program, ⟨⟨T.capacity, T.queues, Memory.solo sourceParty (Memory.idle T.store.repo [])⟩, []⟩⟩

end StereoTraffic

def sourceEvents (h : List CameraEvent) : List CameraEvent :=
  h.filter (fun e => e.thread = sourceParty)

/-- The frames that the source has taken from a queue, the latest first. -/
def sourceTaken (id : CameraId) (h : List CameraEvent) : List FrameRef :=
  (sourceEvents h).filterMap (takenFrame id)

/-- Whenever the source dequeued, fewer frames had left the queue than it had at first. -/
def DequeuesFind (queues : CameraId → List FrameRef) : List CameraEvent → Prop
  | [] => True
  | e :: h => DequeuesFind queues h ∧ (e.thread = sourceParty → ∀ id, e.op = .tryPop id →
      (departed id h).length < (queues id).length)

/-- The source has taken a frame from each queue, they are stored under one number, and the message
sent names both; or it has taken none, and the message sent is empty. -/
def AllOrNothing (T : StereoTraffic) (s : CameraShared) (a : SourceAnswer) : Prop :=
  (∃ frame1 frame2 seq, sourceTaken T.camera0 s.hist = [frame1] ∧
      sourceTaken T.camera1 s.hist = [frame2] ∧
      s.mem.base.repo.frame (T.camera0, seq) = some frame1 ∧
      s.mem.base.repo.frame (T.camera1, seq) = some frame2 ∧
      a.emitted = some (CameraFrame.setStereo {} CameraFrame.first T.camera0 T.camera1 seq)) ∨
    (sourceTaken T.camera0 s.hist = [] ∧ sourceTaken T.camera1 s.hist = [] ∧
      ∃ cameraFrame, a.emitted = some cameraFrame ∧ cameraFrame.count = 0)

/-! ### What holds at any moment -/

/-- A dequeue that finds a frame, or another call. -/
def finds : CameraEvent → Bool
  | ⟨_, .tryPop _, r⟩ => r.isSome
  | _ => true

/-- The frames that have left a queue and those in it are those it had at first. -/
structure FramesAccounted (queues : CameraId → List FrameRef) (s : CameraShared) : Prop where
  order : ∀ id, departed id s.hist ++ s.mem.queues id = queues id
  found : DequeuesFind queues s.hist ↔ ∀ e ∈ sourceEvents s.hist, finds e = true

/-- What the others leave alone. -/
structure LeavesSource (s s' : CameraShared) : Prop where
  events : sourceEvents s'.hist = sourceEvents s.hist
  base : s'.mem.base = s.mem.base

def stereoContract (queues : CameraId → List FrameRef) : Contract QueueParty CameraShared where
  inv := FramesAccounted queues
  guar t s s' := t ≠ sourceParty → LeavesSource s s'

section Steps

variable {queues : CameraId → List FrameRef} {t : QueueParty} {i : CameraOp} {r : i.Ans}
  {s s' : CameraShared} {e : CameraEvent} {h : List CameraEvent}

theorem sourceEvents_cons_of_ne (ht : e.thread ≠ sourceParty) :
    sourceEvents (e :: h) = sourceEvents h :=
  List.filter_cons_of_neg (by simpa using ht)

theorem sourceEvents_cons (ht : e.thread = sourceParty) :
    sourceEvents (e :: h) = e :: sourceEvents h :=
  List.filter_cons_of_pos (by simpa using ht)

/-- A dequeue finds a frame exactly if some frame has not left the queue. -/
theorem finds_iff (hs : FramesAccounted queues s) (hc : cameraCalls t i s r s') :
    finds ⟨t, i, r⟩ = true ↔
      ∀ id, i = .tryPop id → (departed id s.hist).length < (queues id).length := by
  cases i with
  | tryPop id =>
      obtain ⟨⟨_, he⟩, -⟩ := hc
      have hlength := congrArg List.length (hs.order id)
      rw [List.length_append] at hlength
      constructor
      · intro hfinds id' hid
        cases hid
        rcases CameraMemory.exec_tryPop he with ⟨hnone, -⟩ | ⟨f, -, hlt⟩
        · rw [hnone] at hfinds
          cases hfinds
        · omega
      · intro hlt
        have hnonempty := hlt id rfl
        cases hq : s.mem.queues id with
        | nil =>
            rw [hq, List.length_nil] at hlength
            omega
        | cons f rest =>
            simp only [CameraMemory.exec, hq] at he
            obtain ⟨hr, -⟩ := Prod.mk.inj (Option.some.inj he)
            rw [← hr]
            rfl
  | tryPush id f => exact iff_of_true rfl (fun _ h => by cases h)
  | pop id => exact iff_of_true rfl (fun _ h => by cases h)
  | size id => exact iff_of_true rfl (fun _ h => by cases h)
  | repo i => exact iff_of_true rfl (fun _ h => by cases h)
  | returned b => exact iff_of_true rfl (fun _ h => by cases h)

/-- No frame is put into a queue. -/
theorem FramesAccounted.step (hs : FramesAccounted queues s) (hc : cameraCalls t i s r s')
    (hpush : ∀ id, pushedFrame id ⟨t, i, r⟩ = none) : FramesAccounted queues s' where
  order id := by
    obtain ⟨⟨_, he⟩, hh⟩ := hc
    have hconserves := CameraMemory.exec_conserves id he
    rw [hpush id, Option.toList_none, List.append_nil] at hconserves
    rw [hh, departed_cons, List.append_assoc, ← hconserves, hs.order id]
  found := by
    have hfinds := finds_iff hs hc
    rw [hc.2, DequeuesFind, hs.found]
    by_cases ht : t = sourceParty
    · rw [sourceEvents_cons ht, List.forall_mem_cons, hfinds, and_comm]
      simp only [ht, true_implies]
    · rw [sourceEvents_cons_of_ne ht]
      simp only [ht, false_implies, and_true]

/-- Another consumer takes frames, and leaves the rest alone. -/
theorem consumer_call (ht : t ≠ sourceParty) (hi : i.takes = true) (hs : FramesAccounted queues s)
    (hc : cameraCalls t i s r s') : FramesAccounted queues s' ∧ LeavesSource s s' := by
  have hpush (id : CameraId) : pushedFrame id ⟨t, i, r⟩ = none := by
    cases i <;> first | rfl | cases hi
  refine ⟨hs.step hc hpush, ?_, ?_⟩
  · rw [hc.2]
    exact sourceEvents_cons_of_ne ht
  · obtain ⟨⟨_, he⟩, -⟩ := hc
    refine CameraMemory.exec_base ?_ he
    rintro j rfl
    cases hi

theorem other_consumer_triple (ht : t ≠ sourceParty) (calls : List (CameraId × TakeCall)) :
    Triple (stereoContract queues) cameraCalls t (fun _ => True)
      (Prog.forEach (fun p : CameraId × TakeCall => p.2.program p.1) calls)
      (fun _ _ => True) := by
  apply Triple.forEach
  intro p _
  refine .unmarked (.const True) (fun i s r s' hi hs _ hc => ?_) (p.2.program_within p.1)
  obtain ⟨hs', hleaves⟩ := consumer_call ht (CameraOp.takes_of_other hi) hs hc
  exact ⟨hs', fun _ => hleaves, trivial⟩

end Steps

/-! ### What the source does -/

section Source

variable {T : StereoTraffic} {taken0 taken1 : List FrameRef} {found : Bool}
  {base : Memory QueueParty} {s s' : CameraShared}

/-- What the source has taken, whether all its dequeues have found a frame, and the repository. -/
structure SourceDid (T : StereoTraffic) (taken0 taken1 : List FrameRef) (found : Bool)
    (base : Memory QueueParty) (s : CameraShared) : Prop where
  taken0 : sourceTaken T.camera0 s.hist = taken0
  taken1 : sourceTaken T.camera1 s.hist = taken1
  found : (sourceEvents s.hist).all finds = found
  base : s.mem.base = base

theorem SourceDid.stable :
    (stereoContract T.queues).Stable sourceParty (SourceDid T taken0 taken1 found base) := by
  intro u s s' hu _ hguar _ hdid
  obtain ⟨hevents, hbase⟩ := hguar hu
  refine ⟨?_, ?_, ?_, ?_⟩
  · rw [sourceTaken, hevents]
    exact hdid.taken0
  · rw [sourceTaken, hevents]
    exact hdid.taken1
  · rw [hevents]
    exact hdid.found
  · rw [hbase]
    exact hdid.base

/-- A call of the source adds what it takes. -/
theorem SourceDid.call {i : CameraOp} {r : i.Ans} (hdid : SourceDid T taken0 taken1 found base s)
    (hc : cameraCalls sourceParty i s r s') :
    SourceDid T ((takenFrame T.camera0 ⟨sourceParty, i, r⟩).toList ++ taken0)
      ((takenFrame T.camera1 ⟨sourceParty, i, r⟩).toList ++ taken1)
      (finds ⟨sourceParty, i, r⟩ && found) s'.mem.base s' where
  taken0 := by
    rw [hc.2, sourceTaken, sourceEvents_cons rfl, ← hdid.taken0]
    cases h : takenFrame T.camera0 ⟨sourceParty, i, r⟩ <;> simp [sourceTaken, h]
  taken1 := by
    rw [hc.2, sourceTaken, sourceEvents_cons rfl, ← hdid.taken1]
    cases h : takenFrame T.camera1 ⟨sourceParty, i, r⟩ <;> simp [sourceTaken, h]
  found := by
    rw [hc.2, sourceEvents_cons rfl, List.all_cons, hdid.found]
  base := rfl

/-- The call keeps what holds at any moment; what is promised to the others does not bind the
source. -/
theorem source_keeps {i : CameraOp} {r : i.Ans} (hs : FramesAccounted T.queues s)
    (hpush : ∀ id, pushedFrame id ⟨sourceParty, i, r⟩ = none)
    (hc : cameraCalls sourceParty i s r s') :
    FramesAccounted T.queues s' ∧ (stereoContract T.queues).guar sourceParty s s' :=
  ⟨hs.step hc hpush, fun hne => absurd rfl hne⟩

/-- A call of a queue that puts nothing in adds what it takes, and leaves the repository alone. -/
theorem queue_call_triple {α : Type} {i : CameraOp} {f : i.Ans → CameraCall α}
    {Q : α → CameraShared → Prop} (hpush : ∀ r id, pushedFrame id ⟨sourceParty, i, r⟩ = none)
    (hrepo : ∀ j, i ≠ .repo j)
    (hf : ∀ r, Triple (stereoContract T.queues) cameraCalls sourceParty
      (SourceDid T ((takenFrame T.camera0 ⟨sourceParty, i, r⟩).toList ++ taken0)
        ((takenFrame T.camera1 ⟨sourceParty, i, r⟩).toList ++ taken1)
        (finds ⟨sourceParty, i, r⟩ && found) base) (f r) Q) :
    Triple (stereoContract T.queues) cameraCalls sourceParty (SourceDid T taken0 taken1 found base)
      (Prog.perform i >>= f) Q := by
  refine .perform_bind
    (fun r => SourceDid T ((takenFrame T.camera0 ⟨sourceParty, i, r⟩).toList ++ taken0)
      ((takenFrame T.camera1 ⟨sourceParty, i, r⟩).toList ++ taken1)
      (finds ⟨sourceParty, i, r⟩ && found) base) (fun _ => SourceDid.stable) ?_ hf
  intro s r s' hs hdid hc
  obtain ⟨hs', hguar⟩ := source_keeps hs (hpush r) hc
  have hbase : s'.mem.base = s.mem.base := by
    obtain ⟨⟨_, he⟩, -⟩ := hc
    exact CameraMemory.exec_base hrepo he
  have hdid' := hdid.call hc
  rw [hbase, hdid.base] at hdid'
  exact ⟨hs', hguar, hdid'⟩

theorem size_triple {α : Type} {f : ℕ → CameraCall α} {Q : α → CameraShared → Prop}
    (id : CameraId)
    (hf : ∀ n, Triple (stereoContract T.queues) cameraCalls sourceParty
      (SourceDid T taken0 taken1 found base) (f n) Q) :
    Triple (stereoContract T.queues) cameraCalls sourceParty (SourceDid T taken0 taken1 found base)
      (CameraCall.perform (.size id) >>= f) Q :=
  queue_call_triple (fun _ _ => rfl) (by rintro j ⟨⟩) hf

theorem dequeue_triple {α : Type} {f : Option FrameRef → CameraCall α}
    {Q : α → CameraShared → Prop} (id : CameraId)
    (hf : ∀ a, Triple (stereoContract T.queues) cameraCalls sourceParty
      (SourceDid T ((if id = T.camera0 then a else none).toList ++ taken0)
        ((if id = T.camera1 then a else none).toList ++ taken1) (a.isSome && found) base)
      (f a) Q) :
    Triple (stereoContract T.queues) cameraCalls sourceParty (SourceDid T taken0 taken1 found base)
      (CameraCall.dequeue id >>= f) Q :=
  queue_call_triple (fun _ _ => rfl) (by rintro j ⟨⟩) hf

/-- A call of the repository ends as if the source were alone. -/
theorem repository_triple {α : Type} {p : Call α} {a : α} {m m' : Memory Unit}
    (hp : p.alone (fun _ => false) m = some (a, m')) :
    Triple (stereoContract T.queues) cameraCalls sourceParty
      (SourceDid T taken0 taken1 found (Memory.solo sourceParty m)) (CameraCall.repository p)
      (fun b s => b = a ∧ SourceDid T taken0 taken1 found (Memory.solo sourceParty m') s) := by
  induction p generalizing m with
  | pure b =>
      cases hp
      exact .pure (fun s _ hdid => ⟨rfl, hdid⟩)
  | call i k ih =>
      obtain ⟨⟨r, m₁⟩, hr, hk⟩ := Option.bind_eq_some_iff.mp hp
      refine ⟨fun r' s => r' = r ∧ SourceDid T taken0 taken1 found (Memory.solo sourceParty m₁) s,
        fun r' => .and (.const _) SourceDid.stable, ?_, fun r' => ?_⟩
      · intro s r' s' hs hdid hc
        obtain ⟨hs', hguar⟩ := source_keeps hs (fun _ => rfl) hc
        have hdid' := hdid.call hc
        obtain ⟨⟨_, he⟩, -⟩ := hc
        have hexec : Memory.exec false sourceParty i s.mem.base =
            some (r, Memory.solo sourceParty m₁) := by
          rw [hdid.base]
          exact Memory.exec_solo hr
        change (Memory.exec false sourceParty i s.mem.base).map _ = _ at he
        rw [hexec] at he
        obtain ⟨hr', hmem⟩ := Prod.mk.inj (Option.some.inj he)
        refine ⟨hs', hguar, hr'.symm, ?_⟩
        rw [← hmem] at hdid'
        exact hdid'
      · refine .of_fact ?_
        intro heq
        rw [heq]
        exact ih r hk

/-- The three ways in which a call of the source ends. -/
inductive SourceEnds (T : StereoTraffic) (s : CameraShared) : SourceAnswer → Prop
  | empty
      (hdid : SourceDid T [] [] true (Memory.solo sourceParty (Memory.idle T.store.repo [])) s) :
      SourceEnds T s ⟨some {}, !T.mustTerminate⟩
  | failed {taken0 : List FrameRef}
      (hdid : SourceDid T taken0 [] false
        (Memory.solo sourceParty (Memory.idle T.store.repo [])) s) :
      SourceEnds T s ⟨none, !T.mustTerminate⟩
  | both {frame1 frame2 : FrameRef}
      (hdid : SourceDid T [frame1] [frame2] true (Memory.solo sourceParty
        (Memory.idle (T.store.repo.newStereoFrame T.camera0 frame1 T.camera1 frame2) [])) s) :
      SourceEnds T s ⟨some (CameraFrame.setStereo {} CameraFrame.first T.camera0 T.camera1
        (T.store.repo.number T.camera0)), !T.mustTerminate⟩

theorem source_triple (T : StereoTraffic) :
    Triple (stereoContract T.queues) cameraCalls sourceParty
      (SourceDid T [] [] true (Memory.solo sourceParty (Memory.idle T.store.repo [])))
      (CameraCall.stereoCameraSource T.camera0 T.camera1 T.mustTerminate)
      (fun a s => SourceEnds T s a) := by
  refine size_triple T.camera0 (fun qs1 => size_triple T.camera1 (fun qs2 => ?_))
  split_ifs
  · refine dequeue_triple T.camera0 (fun a => ?_)
    rw [if_pos rfl, if_neg T.ne]
    cases a with
    | none => exact .pure (fun s _ hdid => .failed hdid)
    | some frame1 =>
        refine dequeue_triple T.camera1 (fun a => ?_)
        rw [if_neg T.ne.symm, if_pos rfl]
        cases a with
        | none => exact .pure (fun s _ hdid => .failed hdid)
        | some frame2 =>
            have hregister := Call.alone_newStereoFrame (fun _ => false) T.store.repo []
              T.camera0 frame1 T.camera1 frame2
            refine (repository_triple hregister).bind (fun seq => .of_fact ?_)
            rintro rfl
            exact .pure (fun s _ hdid => .both hdid)
  · exact .pure (fun s _ hdid => .empty hdid)

end Source

/-! ### Runs -/

theorem program_triples (T : StereoTraffic) (t : QueueParty) :
    Triple (stereoContract T.queues) cameraCalls t
      (fun s => t = sourceParty →
        SourceDid T [] [] true (Memory.solo sourceParty (Memory.idle T.store.repo [])) s)
      (T.program t) (fun out s => t = sourceParty → ∃ a, out = some a ∧ SourceEnds T s a) := by
  cases t with
  | producer => exact .pure (fun s _ _ ht => by cases ht)
  | consumer j =>
      cases j with
      | zero =>
          have hcall := (source_triple T).bind (f := fun a => pure (some a))
            (Q := fun out s => ∃ a, out = some a ∧ SourceEnds T s a)
            (fun a => .pure (fun s _ hends => ⟨a, rfl, hends⟩))
          exact hcall.weaken (fun s _ hdid => hdid rfl) (fun out s _ hends _ => hends)
      | succ j =>
          have ht : QueueParty.consumer (j + 1) ≠ sourceParty := nofun
          have hcalls : Triple (stereoContract T.queues) cameraCalls (.consumer (j + 1))
              (fun _ => True) (T.program (.consumer (j + 1))) (fun _ _ => True) :=
            (other_consumer_triple ht (T.calls j)).bind
              (fun _ => .pure (fun _ _ _ => trivial))
          exact hcalls.weaken (fun _ _ _ => trivial) (fun _ _ _ _ heq => absurd heq ht)

theorem framesAccounted_start (T : StereoTraffic) : FramesAccounted T.queues T.pool.state where
  order _ := rfl
  found := iff_of_true trivial (List.forall_mem_nil _)

theorem sourceDid_start (T : StereoTraffic) :
    SourceDid T [] [] true (Memory.solo sourceParty (Memory.idle T.store.repo [])) T.pool.state :=
  ⟨rfl, rfl, rfl, rfl⟩

theorem pre_stable_source (T : StereoTraffic) (t : QueueParty) :
    (stereoContract T.queues).Stable t (fun s => t = sourceParty →
      SourceDid T [] [] true (Memory.solo sourceParty (Memory.idle T.store.repo [])) s) := by
  apply Contract.Stable.imp_const
  rintro rfl
  exact SourceDid.stable

variable {T : StereoTraffic} {s : CameraShared} {a : SourceAnswer}

/-- The frames stored after a registration. -/
theorem frames_registered (T : StereoTraffic) (frame1 frame2 : FrameRef) :
    (T.store.repo.newStereoFrame T.camera0 frame1 T.camera1 frame2).frame
        (T.camera0, T.store.repo.number T.camera0) = some frame1 ∧
      (T.store.repo.newStereoFrame T.camera0 frame1 T.camera1 frame2).frame
        (T.camera1, T.store.repo.number T.camera0) = some frame2 := by
  have hne : ((T.camera0, T.store.repo.number T.camera0) : Key) ≠
      (T.camera1, T.store.repo.number T.camera0) := fun h => T.ne (congrArg Prod.fst h)
  unfold Repository.newStereoFrame
  rw [Repository.frame_registerFrame_of_ne _ _ hne, Repository.frame_registerFrame_self,
    Repository.frame_registerFrame_self, Repository.frame_registerFrame_of_ne _ _ hne.symm,
    Repository.frame_nextSeqno, Repository.frame_nextSeqno, T.store.frame_number (.inl rfl),
    T.store.frame_number (.inr rfl)]
  exact ⟨rfl, rfl⟩

theorem emitted_of_more (m : Option CameraFrame) : (SourceAnswer.mk m !false).emitted = m := rfl

theorem emitted_of_terminate (m : Option CameraFrame) :
    (SourceAnswer.mk m !true).emitted = none := rfl

/-- A call that sends nothing is not all or nothing. -/
theorem not_allOrNothing_of_none (h : a.emitted = none) : ¬ AllOrNothing T s a := by
  rintro (⟨frame1, frame2, seq, -, -, -, -, hset⟩ | ⟨-, -, cameraFrame, hset, -⟩)
  · rw [h] at hset
    cases hset
  · rw [h] at hset
    cases hset

theorem SourceEnds.emitted_eq_none (hends : SourceEnds T s a) (hterm : T.mustTerminate = true) :
    a.emitted = none := by
  cases hends with
  | empty | failed | both =>
      rw [hterm]
      exact emitted_of_terminate _

/-- A call whose message is sent is all or nothing exactly if all its dequeues have found a
frame. -/
theorem allOrNothing_iff_found (hends : SourceEnds T s a) (hterm : T.mustTerminate = false) :
    AllOrNothing T s a ↔ (sourceEvents s.hist).all finds = true := by
  cases hends with
  | empty hdid =>
      rw [hterm, hdid.found]
      exact iff_of_true (.inr ⟨hdid.taken0, hdid.taken1, {}, emitted_of_more _, rfl⟩) rfl
  | failed hdid =>
      rw [hterm, hdid.found]
      exact iff_of_false (not_allOrNothing_of_none (emitted_of_more none)) Bool.false_ne_true
  | @both frame1 frame2 hdid =>
      obtain ⟨hframe1, hframe2⟩ := frames_registered T frame1 frame2
      rw [hterm, hdid.found]
      refine iff_of_true (.inl ⟨frame1, frame2, T.store.repo.number T.camera0, hdid.taken0,
        hdid.taken1, ?_, ?_, emitted_of_more _⟩) rfl
      · rw [hdid.base]
        exact hframe1
      · rw [hdid.base]
        exact hframe2

theorem allOrNothing_iff (hs : FramesAccounted T.queues s) (hends : SourceEnds T s a) :
    AllOrNothing T s a ↔ T.mustTerminate = false ∧ DequeuesFind T.queues s.hist := by
  cases hterm : T.mustTerminate with
  | false =>
      rw [allOrNothing_iff_found hends hterm, hs.found, List.all_eq_true]
      exact (and_iff_right rfl).symm
  | true =>
      exact iff_of_false (not_allOrNothing_of_none (hends.emitted_eq_none hterm))
        (fun h => Bool.false_ne_true h.1.symm)

/-- A call of the source takes a frame from each queue, registers both and names them, or takes none
and says so, if and only if the program is not to terminate and each of its dequeues comes before
the others have emptied the queue. -/
theorem takes_both_or_none_iff (T : StereoTraffic)
    {c : Pool QueueParty CameraOp CameraOp.Ans (Option SourceAnswer) CameraShared}
    {a : SourceAnswer} (hr : Pool.Reach cameraCalls T.pool c)
    (hdone : c.threads sourceParty = .pure (some a)) :
    AllOrNothing T c.state a ↔
      T.mustTerminate = false ∧ DequeuesFind T.queues c.state.hist := by
  have hpre (t : QueueParty) : t = sourceParty →
      SourceDid T [] [] true (Memory.solo sourceParty (Memory.idle T.store.repo [])) T.pool.state :=
    fun _ => sourceDid_start T
  have hinv := Contract.sound_inv (pre_stable_source T) (program_triples T)
    (framesAccounted_start T) hpre hr
  obtain ⟨a', ha, hends⟩ := Contract.sound_post (pre_stable_source T) (program_triples T)
    (framesAccounted_start T) hpre hr hdone rfl
  cases ha
  exact allOrNothing_iff hinv hends

/-- Two cameras with a frame each, and another consumer that clears the queue of the second. -/
def clearedQueue : StereoTraffic where
  camera0 := 0
  camera1 := 1
  ne := by decide
  mustTerminate := false
  queues := fun id => if id = 0 then [10] else if id = 1 then [11] else []
  capacity := fun _ => 5
  store := .ofNoFrames (({} : Repository).nextSeqno 0) (by decide) (fun _ => rfl)
  calls := fun j => if j = 0 then [(1, .clear)] else []

def clearedQueueRun (sched : List (QueueParty × Bool)) :=
  Pool.replay (fun _ => CameraMemory.exec) (fun _ _ _ _ => true) sched clearedQueue.pool

/-- The queue is cleared after the source has taken both frames. -/
theorem takes_both_or_none_iff_uncleared :
    ∃ c a, Pool.Reach cameraCalls clearedQueue.pool c ∧
      c.threads sourceParty = .pure (some a) ∧ sourceTaken 0 c.state.hist = [10] ∧
      sourceTaken 1 c.state.hist = [11] ∧
      (AllOrNothing clearedQueue c.state a ↔ clearedQueue.mustTerminate = false ∧
        DequeuesFind clearedQueue.queues c.state.hist) := by
  let consumer : QueueParty := .consumer 1
  have hrun : (clearedQueueRun (List.replicate 12 (sourceParty, true) ++
      [(consumer, true)])).any (fun p => (p.threads sourceParty).result.join.isSome ∧
        sourceTaken 0 p.state.hist = [10] ∧ sourceTaken 1 p.state.hist = [11]) = true := by
    decide
  obtain ⟨c, hc, hres⟩ := (Option.any_eq_true _ _).mp hrun
  obtain ⟨hdone, htaken0, htaken1⟩ := of_decide_eq_true hres
  obtain ⟨a, ha⟩ := Option.isSome_iff_exists.mp hdone
  have hreach := Pool.reach_of_replay_all _ _ _ hc
  have hthread := Prog.eq_pure_of_result (Option.join_eq_some_iff.mp ha)
  exact ⟨c, a, hreach, hthread, htaken0, htaken1, takes_both_or_none_iff _ hreach hthread⟩

/-- The queue is cleared after the source has looked at its size. -/
theorem cleared_queue_loses_frame :
    ¬∀ (T : StereoTraffic)
      (c : Pool QueueParty CameraOp CameraOp.Ans (Option SourceAnswer) CameraShared)
      (a : SourceAnswer), Pool.Reach cameraCalls T.pool c →
      c.threads sourceParty = .pure (some a) → AllOrNothing T c.state a := by
  let consumer : QueueParty := .consumer 1
  have hrun : (clearedQueueRun (List.replicate 3 (sourceParty, true) ++
      List.replicate 2 (consumer, true) ++ [(sourceParty, true)])).any (fun p =>
        (p.threads sourceParty).result.join.isSome ∧
        sourceTaken 0 p.state.hist = [10] ∧ sourceTaken 1 p.state.hist = []) = true := by
    decide
  obtain ⟨c, hc, hres⟩ := (Option.any_eq_true _ _).mp hrun
  obtain ⟨hdone, htaken0, htaken1⟩ := of_decide_eq_true hres
  obtain ⟨a, ha⟩ := Option.isSome_iff_exists.mp hdone
  intro h
  rcases h clearedQueue c a (Pool.reach_of_replay_all _ _ _ hc)
    (Prog.eq_pure_of_result (Option.join_eq_some_iff.mp ha)) with
    ⟨frame1, frame2, seq, -, hframe2, -⟩ | ⟨hnone, -⟩
  · exact List.cons_ne_nil _ _ (hframe2.symm.trans htaken1)
  · exact List.cons_ne_nil _ _ (htaken0.symm.trans hnone)

end ARArch

import ARArch.Router
import ARArch.CallEffects

/-!
# The frames of a stream

A camera added through `HardwareCamera.addCamera` has its counter at 0 when its first frame comes,
so that the n-th frame of its stream, counted from 0, is number n. The router skips number 0: the
first frame of every stream is offered to nobody and stays in the store. Every later frame is
accepted by a port or gone when the router returns.
-/

namespace ARArch

/-- The repository when `n` frames of camera `c` have come since the camera was added, whatever
else was done to it that leaves the counter of `c` alone. -/
inductive Stream (c : CameraId) : ℕ → Repository → Prop
  | added {r r' : Repository} (hnew : r.seqNumbers c = none)
      (h : r.call (Call.hardwareAddCamera c) = some (true, r')) : Stream c 0 r'
  | frame {n : ℕ} {r r' : Repository} {f : FrameRef} {m : CameraFrame} (h : Stream c n r)
      (hf : r.call (Call.monoCameraSource c (some f)) = some (m, r')) : Stream c (n + 1) r'
  | other {n : ℕ} {r r' : Repository} (h : Stream c n r)
      (hc : r'.seqNumbers c = r.seqNumbers c) : Stream c n r'

theorem call_monoCameraSource (r : Repository) (c : CameraId) (f : FrameRef) :
    r.call (Call.monoCameraSource c (some f)) =
      some (CameraFrame.set {} 0 c (r.number c), r.newFrame c f) := by
  apply Call.call_of_alone
  have hnew := Call.alone_newFrame (fun _ => false) r [] c f
  simp [Call.monoCameraSource, hnew]

theorem Stream.counter {c : CameraId} {n : ℕ} {r : Repository} (h : Stream c n r) :
    r.seqNumbers c = some n ∧ c ≠ noCamera := by
  induction h with
  | @added r r' hnew h =>
      rw [Repository.call_hardwareAddCamera] at h
      have h := Option.some.inj h
      have hadd : (r.addCamera c).1 = true := congrArg Prod.fst h
      have hr : r' = (r.addCamera c).2.nextSeqno c := by
        have hr := congrArg Prod.snd h
        simpa [Repository.hardwareAddCamera, hadd] using hr.symm
      have hc : ¬ (c = noCamera ∨ c ∈ r.cameras) := by
        intro hc
        simp [Repository.addCamera, hc] at hadd
      have hcount : (r.addCamera c).2.seqNumbers c = none := by
        simpa [Repository.addCamera, hc] using hnew
      rw [hr, Repository.seqNumbers_nextSeqno_self, hcount]
      exact ⟨rfl, fun he => hc (Or.inl he)⟩
  | @frame n r r' f m h hf ih =>
      rw [call_monoCameraSource] at hf
      cases hf
      rw [Repository.seqNumbers_newFrame, Repository.seqNumbers_nextSeqno_self, ih.1]
      exact ⟨rfl, ih.2⟩
  | other _ hc ih =>
      rw [hc]
      exact ih

/-- The n-th frame of a stream is announced as number n. -/
theorem Stream.message {c : CameraId} {n : ℕ} {r r' : Repository} (h : Stream c n r)
    {f : FrameRef} {m : CameraFrame}
    (hf : r.call (Call.monoCameraSource c (some f)) = some (m, r')) :
    m = CameraFrame.set {} 0 c n := by
  rw [call_monoCameraSource, Repository.number, h.counter.1] at hf
  cases hf
  rfl

/-- `portStart` is that of one of the four cameras. -/
def TBBRouterParameters.valid (params : TBBRouterParameters) : Prop :=
  params.portStart = 0 ∨ params.portStart = 3 ∨ params.portStart = 6 ∨ params.portStart = 9

namespace Call

variable (answer : Op → Bool) (r : Repository) (acc : List (Key × Consumer))

/-- Whether a consumer takes a frame that is offered. -/
def takes (isThere : Bool) (port : ℕ) (c : CameraId) (s : SeqNo) (u : Consumer) : Bool :=
  isThere && !answer (.busy c u) && answer (.tryPut port c s u)

theorem alone_offer (isThere : Bool) (port : ℕ) (c : CameraId) (s : SeqNo) (f : FrameRef)
    (u : Consumer) :
    (offer isThere port c s f u).alone answer (Memory.idle r acc) =
      some (takes answer isThere port c s u,
        if takes answer isThere port c s u then
          Memory.idle (r.modifyInfo f (·.setFlag u true)) (((c, s), u) :: acc)
        else Memory.idle r acc) := by
  cases isThere with
  | false => simp [offer, takes]
  | true =>
      cases hb : answer (.busy c u) <;> cases ha : answer (.tryPut port c s u) <;>
        simp [offer, takes, Memory.exec, Memory.idle, Memory.withRepo, ha, hb]

theorem alone_renderOrDelete (isThere isDelete : Bool) (port : ℕ) (c : CameraId) (s : SeqNo)
    (f : FrameRef) :
    (renderOrDelete isThere isDelete port c s f).alone answer (Memory.idle r acc) =
      some ((), if isThere then
          if answer (.tryPut port c s .renderer) then
            Memory.idle (r.modifyInfo f (·.setFlag .renderer true)) (((c, s), .renderer) :: acc)
          else Memory.idle (r.deleteFrame (c, s)) acc
        else if isDelete then Memory.idle (r.deleteFrame (c, s)) acc
        else Memory.idle r acc) := by
  have htry (b : Bool) : Memory.exec b () (.tryPut port c s .renderer) (Memory.idle r acc) =
      some (b, if b then Memory.idle r (((c, s), .renderer) :: acc) else Memory.idle r acc) := by
    cases b <;> rfl
  have hstore (b : Bool) (acc : List (Key × Consumer)) :
      Memory.exec b () (.store f .renderer true) (Memory.idle r acc) =
        some ((), Memory.idle (r.modifyInfo f (·.setFlag .renderer true)) acc) := rfl
  cases isThere <;> cases isDelete <;> cases ha : answer (.tryPut port c s .renderer) <;>
    simp [renderOrDelete, alone_deleteFrame, htry, hstore, ha]

/-- Routing puts no frame into the store. A frame whose flags are clear is accepted by somebody or
deleted, where there is a renderer or unclaimed frames are to be deleted. -/
theorem alone_routeFrom (port : ℕ) {params : TBBRouterParameters} {c : CameraId} {s : SeqNo}
    {f : FrameRef} (hp : params.renderer = true ∨ params.isDelete = true)
    (hf : r.frame (c, s) = some f) :
    ∃ r' acc, (routeFrom port params c s f).alone answer (Memory.idle r []) =
        some ((), Memory.idle r' acc) ∧
      (∀ j g, r'.frame j = some g → r.frame j = some g) ∧
      ((r.infos f).unclaimed = true →
        (∃ u, ((c, s), u) ∈ acc) ∨ r'.frame (c, s) = none) := by
  -- once somebody has accepted, nothing takes that back
  have hshrink (u : Consumer) (j : Key) (g : FrameRef)
      (h : ((r.modifyInfo f (·.setFlag u true)).deleteFrame (c, s)).frame j = some g) :
      r.frame j = some g := by
    have h' := Repository.frame_of_frame_deleteFrame h
    rwa [Repository.frame_modifyInfo] at h'
  have hkept (isThere isDelete : Bool) (u : Consumer) :
      ∃ r' acc, (renderOrDelete isThere isDelete (port + 2) c s f).alone answer
          (Memory.idle (r.modifyInfo f (·.setFlag u true)) [((c, s), u)]) =
            some ((), Memory.idle r' acc) ∧
        (∀ j g, r'.frame j = some g → r.frame j = some g) ∧
        ((r.infos f).unclaimed = true →
          (∃ u, ((c, s), u) ∈ acc) ∨ r'.frame (c, s) = none) := by
    rw [alone_renderOrDelete]
    split_ifs
    · exact ⟨_, _, rfl, fun _ _ h => h, fun _ => Or.inl ⟨u, by simp⟩⟩
    · exact ⟨_, _, rfl, hshrink u, fun _ => Or.inl ⟨u, by simp⟩⟩
    · exact ⟨_, _, rfl, hshrink u, fun _ => Or.inl ⟨u, by simp⟩⟩
    · exact ⟨_, _, rfl, fun _ _ h => h, fun _ => Or.inl ⟨u, by simp⟩⟩
  have hrest := alone_renderOrDelete answer r [] params.renderer params.isDelete (port + 2) c s f
  have hdelete (hu : (r.infos f).unclaimed = true) : (r.deleteFrame (c, s)).frame (c, s) = none :=
    Repository.frame_deleteFrame_self ⟨f, hf, hu⟩
  simp only [routeFrom, Atomic.Prog.run_bind, alone_offer, Option.bind_some]
  cases hd : takes answer params.detector port c s .detector with
  | true =>
      have hno : takes answer (params.tracker && !true) (port + 1) c s .tracker = false := by
        simp [takes]
      simp only [if_true, alone_offer, hno, Bool.false_eq_true, if_false, Option.bind_some]
      exact hkept _ _ _
  | false =>
      simp only [Bool.false_eq_true, if_false, alone_offer, Option.bind_some]
      cases ht : takes answer (params.tracker && !false) (port + 1) c s .tracker with
      | true =>
          simp only [if_true]
          exact hkept _ _ _
      | false =>
          simp only [Bool.false_eq_true, if_false, Bool.not_false, Bool.and_true]
          simp only [hrest]
          split_ifs with hr ha hdel
          · exact ⟨_, _, rfl, fun _ _ h => h, fun _ => Or.inl ⟨.renderer, by simp⟩⟩
          · exact ⟨_, _, rfl, fun _ _ h => Repository.frame_of_frame_deleteFrame h,
              fun hu => Or.inr (hdelete hu)⟩
          · exact ⟨_, _, rfl, fun _ _ h => Repository.frame_of_frame_deleteFrame h,
              fun hu => Or.inr (hdelete hu)⟩
          · exact (hp.elim hr hdel).elim

theorem routeFrame_eq {params : TBBRouterParameters} (hport : params.valid) {c : CameraId}
    {s : SeqNo} {f : FrameRef} :
    ∃ port, routeFrame params c s f = routeFrom port params c s f := by
  rcases hport with h | h | h | h
  · exact ⟨0, by simp [routeFrame, h]⟩
  · exact ⟨3, by simp [routeFrame, h]⟩
  · exact ⟨6, by simp [routeFrame, h]⟩
  · exact ⟨9, by simp [routeFrame, h]⟩

theorem alone_routeKey_zero (map : CameraId → Option TBBRouterParameters) (c : CameraId)
    (m : Memory Unit) : (routeKey map c 0).alone answer m = some ((), m) := by
  simp [routeKey]

/-- One turn of the router: it waits for ever if the frame has no colour data. -/
theorem alone_routeKey {map : CameraId → Option TBBRouterParameters} {c : CameraId} {s : SeqNo}
    (hs : s ≠ 0) {params : TBBRouterParameters} (hmap : map c = some params)
    (m : Memory Unit) (hm : (routeKey map c s).alone answer (Memory.idle r []) = some ((), m)) :
    (r.frame (c, s) = none ∧ m = Memory.idle r []) ∨
      ∃ f, r.frame (c, s) = some f ∧
        (routeFrame params c s f).alone answer (Memory.idle r []) = some ((), m) := by
  simp only [routeKey, if_neg hs, Atomic.Prog.run_bind, alone_getFrame, Repository.getFrame] at hm
  cases hf : r.frame (c, s) with
  | none =>
      simp [hf] at hm
      exact Or.inl ⟨rfl, hm.symm⟩
  | some f =>
      by_cases hl : 0 < (r.infos f).rgbaLen
      · simp [hf, hl, hmap] at hm
        exact Or.inr ⟨f, rfl, hm⟩
      · simp [hf, hl] at hm

/-- The router's work for one message with a single frame. -/
theorem alone_router_set (map : CameraId → Option TBBRouterParameters) {c : CameraId}
    (hc : c ≠ noCamera) (s : SeqNo) (m : Memory Unit) :
    (router map (CameraFrame.set {} 0 c s)).alone answer m =
      (routeKey map c s).alone answer m := by
  have hcameras : List.ofFn (CameraFrame.set {} 0 c s).cameras =
      [{ cameraId := c, seqno1 := s }, {}, {}, {}] := by
    simp [CameraFrame.set, List.ofFn_succ]
  have hcount : (CameraFrame.set {} 0 c s).count ≠ 0 := by simp [CameraFrame.set]
  rw [router, if_neg hcount, hcameras]
  cases hk : (routeKey map c s).alone answer m <;> simp [routeCameras, routeKeys, hc, hk]

end Call

/-- Somebody was offered the frame and accepted it, or it is not in the store. -/
def Handled (k : Key) (f : FrameRef) (m : Memory Unit) : Prop :=
  (∃ u, (k, u) ∈ m.accepted) ∨ m.repo.frame k ≠ some f

/-- The n-th frame of a stream is handled in every run of the router that returns, whatever the
ports answer, exactly if it is not the first one or was not in the store to begin with. -/
theorem stream_handled_iff {c : CameraId} {n : ℕ} {r r' : Repository} (hs : Stream c n r)
    {f : FrameRef} {msg : CameraFrame}
    (hmsg : r.call (Call.monoCameraSource c (some f)) = some (msg, r'))
    {map : CameraId → Option TBBRouterParameters} {params : TBBRouterParameters}
    (hmap : map c = some params) (hport : params.valid)
    (hp : params.renderer = true ∨ params.isDelete = true)
    (r'' : Repository) (hflags : (r''.infos f).unclaimed = true) :
    (∀ answer m, (Call.router map msg).alone answer (Memory.idle r'' []) = some ((), m) →
      Handled (c, n) f m) ↔ n ≠ 0 ∨ r''.frame (c, n) ≠ some f := by
  have hc := hs.counter.2
  rw [hs.message hmsg]
  simp only [Call.alone_router_set _ _ hc]
  constructor
  · intro h
    by_contra hn
    simp only [not_or, not_not] at hn
    obtain ⟨rfl, hf⟩ := hn
    have hskip := h (fun _ => false) (Memory.idle r'' []) (Call.alone_routeKey_zero _ _ _ _)
    rcases hskip with ⟨u, hu⟩ | hne
    · cases hu
    · exact hne hf
  · intro hn answer m hm
    by_cases hz : n = 0
    · subst hz
      have hf := hn.resolve_left (by simp)
      rw [Call.alone_routeKey_zero] at hm
      cases hm
      exact Or.inr hf
    · rcases Call.alone_routeKey answer r'' hz hmap m hm with ⟨hnone, rfl⟩ | ⟨g, hg, hroute⟩
      · refine Or.inr ?_
        intro hf
        have hnf := hnone.symm.trans hf
        cases hnf
      · obtain ⟨port, hrun⟩ := Call.routeFrame_eq (c := c) (s := n) (f := g) hport
        rw [hrun] at hroute
        obtain ⟨s', acc, hs', hshrink, hhandled⟩ :=
          Call.alone_routeFrom answer r'' port hp hg
        rw [hs'] at hroute
        cases hroute
        by_cases hgf : g = f
        · subst hgf
          rcases hhandled hflags with hu | hgone
          · exact Or.inl hu
          · refine Or.inr ?_
            intro hf
            have hgf := hgone.symm.trans hf
            cases hgf
        · refine Or.inr ?_
          intro hf
          have hgf' := hg.symm.trans (hshrink _ _ hf)
          cases hgf'
          exact hgf rfl

/-- A new camera 3, and the ports 0, 1 and 2 with a renderer only. -/
def streamStart : Repository :=
  ((Repository.initial fun _ => { rgbaLen := 4 }).hardwareAddCamera 3).2

def rendererOnly : CameraId → Option TBBRouterParameters := fun _ =>
  some { portStart := 0, detector := false, tracker := false, renderer := true, isDelete := false }

theorem streamStart_stream : Stream 3 0 streamStart :=
  .added (r := .initial fun _ => { rgbaLen := 4 }) rfl (Repository.call_hardwareAddCamera _ 3)

theorem stream_handled_iff_second :
    (∀ answer m, (Call.router rendererOnly (CameraFrame.set {} 0 3 1)).alone answer
        (Memory.idle ((streamStart.newFrame 3 7).newFrame 3 8) []) = some ((), m) →
      Handled (3, 1) 8 m) ↔
      1 ≠ 0 ∨ ((streamStart.newFrame 3 7).newFrame 3 8).frame (3, 1) ≠ some 8 := by
  have hs : Stream 3 1 (streamStart.newFrame 3 7) :=
    streamStart_stream.frame (call_monoCameraSource _ 3 7)
  have hmap : rendererOnly 3 = some _ := rfl
  exact stream_handled_iff hs (call_monoCameraSource _ 3 8) hmap (Or.inl rfl) (Or.inl rfl)
    ((streamStart.newFrame 3 7).newFrame 3 8) (by decide)

/-- The first frame of the stream stays in the store, offered to nobody. -/
theorem first_frame_not_handled :
    ∃ r' m, streamStart.call (Call.monoCameraSource 3 (some 7)) =
        some (CameraFrame.set {} 0 3 0, r') ∧
      (Call.router rendererOnly (CameraFrame.set {} 0 3 0)).alone (fun _ => true)
        (Memory.idle r' []) = some ((), m) ∧ ¬ Handled (3, 0) 7 m := by
  refine ⟨streamStart.newFrame 3 7, Memory.idle (streamStart.newFrame 3 7) [],
    call_monoCameraSource _ 3 7, ?_, ?_⟩
  · rw [Call.alone_router_set _ _ (by decide), Call.alone_routeKey_zero]
  · rintro (⟨u, hu⟩ | hf)
    · cases hu
    · exact hf (by decide)

end ARArch

import ARArch.SharedRepository
import ARArch.CallEffects

/-!
# Concurrent registration

Any number of threads register a frame each. A number is drawn once, so no two threads write under
the same key. What can go wrong is the map of a camera's frames: two threads that both find none
make one each, and only one of the two is put into the store. As long as nobody inserts a map
where there is one, every frame whose `new_frame` has returned is found.

Thread `t` registers `frame t` with camera `camera t`; a thread that is not wanted never moves.
-/

namespace ARArch

open Atomic

section Contract

variable (camera : ℕ → CameraId) (len : FrameRef → ℤ)

/-- Thread `t` drew number `n` from the counter of camera `c`. -/
def Drew (s : Shared ℕ) (t : ℕ) (c : CameraId) (n : SeqNo) : Prop := Did s t (.counterFetchAdd c) n

/-- The counter of the camera has passed `n`. -/
def Passed (r : Repository) (c : CameraId) (n : SeqNo) : Prop :=
  ∃ m, r.seqNumbers c = some m ∧ n < m

/-- What holds whenever threads register frames. -/
structure Registering (s : Shared ℕ) : Prop where
  primed : ∀ t, (s.mem.repo.seqNumbers (camera t)).isSome
  stored : ∀ t n f, s.mem.repo.frame (camera t, n) = some f → Passed s.mem.repo (camera t) n
  drawn : ∀ t c n, Drew s t c n → Passed s.mem.repo c n
  once : ∀ t u c n, Drew s t c n → Drew s u c n → t = u
  sized : ∀ f, (s.mem.repo.infos f).rgbaLen = len f

/-- What a step of thread `t` may do to the others: it stores only under keys it has drawn. -/
structure Registers (t : ℕ) (s s' : Shared ℕ) : Prop where
  history : ∀ u c n, Drew s u c n → Drew s' u c n
  kept : ∀ k f, s.mem.repo.frame k = some f → s'.mem.repo.frame k = some f
  added : ∀ k, s.mem.repo.frame k = none → (s'.mem.repo.frame k).isSome → Drew s t k.1 k.2
  entries : ∀ c, (s.mem.repo.cameraFrames c).isSome → (s'.mem.repo.cameraFrames c).isSome

def registration : Contract ℕ (Shared ℕ) where
  inv := Registering camera len
  guar := Registers

/-- A step changes neither counters nor stored frames. -/
structure Calm (r r' : Repository) : Prop where
  counters : r'.seqNumbers = r.seqNumbers
  frames : ∀ k, r'.frame k = r.frame k
  entries : ∀ c, (r.cameraFrames c).isSome → (r'.cameraFrames c).isSome
  sized : ∀ f, (r'.infos f).rgbaLen = (r.infos f).rgbaLen

end Contract

variable {camera : ℕ → CameraId} {len : FrameRef → ℤ} {frame : ℕ → FrameRef} {t : ℕ}
  {s s' : Shared ℕ} {c : CameraId} {n : SeqNo} {f : FrameRef}

theorem Calm.of_eq {r r' : Repository} (h : r' = r) : Calm r r' := by
  subst h
  exact ⟨rfl, fun _ => rfl, fun _ h => h, fun _ => rfl⟩

theorem Drew.mono {i : Op} {a : i.Ans} (h : calls t i s a s') {u : ℕ} (hd : Drew s u c n) :
    Drew s' u c n :=
  Did.mono h hd

theorem Drew.of_other {i : Op} {a : i.Ans} (h : calls t i s a s')
    (hi : ∀ c, i ≠ .counterFetchAdd c) {u : ℕ} (hd : Drew s' u c n) : Drew s u c n := by
  rcases Did.cases h hd with he | hd
  · have hop : Op.counterFetchAdd c = i := congrArg Event.op he
    exact (hi c hop.symm).elim
  · exact hd

theorem Registering.calm (h : Registering camera len s) {i : Op} {a : i.Ans}
    (hc : calls t i s a s') (hi : ∀ c, i ≠ .counterFetchAdd c)
    (hq : Calm s.mem.repo s'.mem.repo) : Registering camera len s' ∧ Registers t s s' := by
  have hpassed {c : CameraId} {n : SeqNo} (hp : Passed s.mem.repo c n) :
      Passed s'.mem.repo c n := by
    rwa [Passed, hq.counters]
  refine ⟨⟨?_, ?_, ?_, ?_, ?_⟩, ⟨?_, ?_, ?_, hq.entries⟩⟩
  · intro u
    rw [hq.counters]
    exact h.primed u
  · intro u n f hf
    rw [hq.frames] at hf
    exact hpassed (h.stored u n f hf)
  · intro u c n hd
    exact hpassed (h.drawn u c n (hd.of_other hc hi))
  · intro u v c n hu hv
    exact h.once u v c n (hu.of_other hc hi) (hv.of_other hc hi)
  · intro f
    rw [hq.sized]
    exact h.sized f
  · exact fun u c n hd => hd.mono hc
  · intro k f hf
    rwa [hq.frames]
  · intro k hk hk'
    rw [hq.frames, hk] at hk'
    cases hk'

/-- A number that was passed is not the one the counter stands at. -/
theorem not_passed {r : Repository} (hn : r.seqNumbers c = some n) : ¬ Passed r c n := by
  rintro ⟨m, hm, hlt⟩
  rw [hn] at hm
  cases hm
  exact Nat.lt_irrefl _ hlt

theorem Registering.not_drawn (h : Registering camera len s) {c : CameraId}
    (hn : s.mem.repo.seqNumbers c = some n) {u : ℕ} : ¬ Drew s u c n :=
  fun hd => not_passed hn (h.drawn u c n hd)

theorem Registering.not_stored (h : Registering camera len s)
    (hn : s.mem.repo.seqNumbers (camera t) = some n) : s.mem.repo.frame (camera t, n) = none := by
  by_contra hno
  obtain ⟨f, hf⟩ := Option.ne_none_iff_exists'.mp hno
  exact not_passed hn (h.stored t n f hf)

/-- Drawing a number: it is new, and nothing is stored under it. -/
theorem Registering.draw (h : Registering camera len s)
    (hc : calls t (.counterFetchAdd (camera t)) s n s') :
    Registering camera len s' ∧ Registers t s s' ∧ Drew s' t (camera t) n ∧
      s'.mem.repo.frame (camera t, n) = none := by
  obtain ⟨b, he⟩ := hc.1
  obtain ⟨hn, hm⟩ := Memory.exec_counterFetchAdd he
  have hcount (c : CameraId) : s'.mem.repo.seqNumbers c =
      if c = camera t then some (n + 1) else s.mem.repo.seqNumbers c := by
    rw [hm]
    exact Table.assign_apply _ _ _ _
  have hframe (k : Key) : s'.mem.repo.frame k = s.mem.repo.frame k := by
    rw [hm]
    rfl
  have hpassed {c : CameraId} {q : SeqNo} (hp : Passed s.mem.repo c q) :
      Passed s'.mem.repo c q := by
    obtain ⟨m, hm, hlt⟩ := hp
    rw [Passed, hcount]
    by_cases hcc : c = camera t
    · subst hcc
      rw [hn] at hm
      cases hm
      exact ⟨n + 1, if_pos rfl, Nat.lt_succ_of_lt hlt⟩
    · exact ⟨m, by rw [if_neg hcc, hm], hlt⟩
  have hsplit {u : ℕ} {c : CameraId} {q : SeqNo} (hd : Drew s' u c q) :
      (u = t ∧ c = camera t ∧ q = n) ∨ Drew s u c q := by
    rcases Did.cases hc hd with he | hd
    · cases he
      exact Or.inl ⟨rfl, rfl, rfl⟩
    · exact Or.inr hd
  refine ⟨⟨?_, ?_, ?_, ?_, ?_⟩, ⟨?_, ?_, ?_, ?_⟩, Did.of_calls hc, ?_⟩
  · intro u
    rw [hcount]
    split_ifs
    · rfl
    · exact h.primed u
  · intro u q f hf
    rw [hframe] at hf
    exact hpassed (h.stored u q f hf)
  · intro u c q hd
    rcases hsplit hd with ⟨_, rfl, rfl⟩ | hd
    · exact ⟨q + 1, by rw [hcount, if_pos rfl], Nat.lt_succ_self q⟩
    · exact hpassed (h.drawn u c q hd)
  · intro u v c q hu hv
    rcases hsplit hu with ⟨rfl, rfl, rfl⟩ | hu <;> rcases hsplit hv with ⟨rfl, hc', hq'⟩ | hv
    · rfl
    · exact (h.not_drawn hn hv).elim
    · rw [hc', hq'] at hu
      exact (h.not_drawn hn hu).elim
    · exact h.once u v c q hu hv
  · intro f
    rw [hm]
    exact h.sized f
  · exact fun u c n hd => hd.mono hc
  · intro k f hf
    rwa [hframe]
  · intro k hk hk'
    rw [hframe, hk] at hk'
    cases hk'
  · intro c hc'
    rwa [hm]
  · rw [hframe]
    exact h.not_stored hn

/-- Storing a frame under the number drawn for it. -/
theorem Registering.insert (h : Registering camera len s)
    (hc : calls t (.insertFrame (.linked (camera t)) n f) s () s')
    (hd : Drew s t (camera t) n) (hfree : s.mem.repo.frame (camera t, n) = none)
    (hentry : (s.mem.repo.cameraFrames (camera t)).isSome) :
    Registering camera len s' ∧ Registers t s s' ∧
      s'.mem.repo.frame (camera t, n) = some f := by
  obtain ⟨b, he⟩ := hc.1
  have hm := Memory.exec_insertFrame he
  have hcount : s'.mem.repo.seqNumbers = s.mem.repo.seqNumbers := by
    rw [hm]
    rfl
  have hself : s'.mem.repo.frame (camera t, n) = some f := by
    rw [hm]
    have hins := s.mem.repo.frame_insertFrame_self (camera t, n) f hentry
    rwa [hfree, Option.getD_none] at hins
  have hother (k : Key) (hk : k ≠ (camera t, n)) :
      s'.mem.repo.frame k = s.mem.repo.frame k := by
    rw [hm]
    exact s.mem.repo.frame_insertFrame_of_ne f hk
  have hi (c : CameraId) : Op.insertFrame (.linked (camera t)) n f ≠ .counterFetchAdd c := by
    intro h
    cases h
  have hpassed {c : CameraId} {q : SeqNo} (hp : Passed s.mem.repo c q) :
      Passed s'.mem.repo c q := by
    rwa [Passed, hcount]
  refine ⟨⟨?_, ?_, ?_, ?_, ?_⟩, ⟨?_, ?_, ?_, ?_⟩, hself⟩
  · intro u
    rw [hcount]
    exact h.primed u
  · intro u q g hg
    by_cases hk : ((camera u, q) : Key) = (camera t, n)
    · obtain ⟨hcu, rfl⟩ := Prod.mk.inj hk
      rw [hcu]
      exact hpassed (h.drawn t _ _ hd)
    · rw [hother _ hk] at hg
      exact hpassed (h.stored u q g hg)
  · intro u c q hu
    exact hpassed (h.drawn u c q (hu.of_other hc hi))
  · intro u v c q hu hv
    exact h.once u v c q (hu.of_other hc hi) (hv.of_other hc hi)
  · intro g
    rw [hm]
    exact h.sized g
  · exact fun u c n hd => hd.mono hc
  · intro k g hg
    have hk : k ≠ (camera t, n) := by
      rintro rfl
      rw [hfree] at hg
      cases hg
    rwa [hother k hk]
  · intro k hk hk'
    by_cases hkt : k = (camera t, n)
    · rw [hkt]
      exact hd
    · rw [hother k hkt, hk] at hk'
      cases hk'
  · intro c hc'
    rw [hm]
    exact Table.isSome_adjust hc'

/-! ### The threads -/

/-- Thread `t` has drawn `n` and not stored its frame yet. -/
def Holds (camera : ℕ → CameraId) (t : ℕ) (n : SeqNo) (s : Shared ℕ) : Prop :=
  Drew s t (camera t) n ∧ s.mem.repo.frame (camera t, n) = none

def HasEntry (c : CameraId) (s : Shared ℕ) : Prop := (s.mem.repo.cameraFrames c).isSome

/-- The frame of thread `t` is stored under `n`. -/
def IsStored (camera : ℕ → CameraId) (frame : ℕ → FrameRef) (t : ℕ) (n : SeqNo)
    (s : Shared ℕ) : Prop :=
  s.mem.repo.frame (camera t, n) = some (frame t)

theorem stable_holds : (registration camera len).Stable t (Holds camera t n) := by
  intro u s s' hu hi hg _ hh
  refine ⟨hg.history _ _ _ hh.1, ?_⟩
  by_contra hn
  have hadded := hg.added (camera t, n) hh.2 (Option.isSome_iff_ne_none.mpr hn)
  exact hu (hi.once u t _ _ hadded hh.1)

theorem stable_hasEntry : (registration camera len).Stable t (HasEntry c) :=
  fun _ _ _ _ _ hg _ hh => hg.entries c hh

theorem stable_isStored : (registration camera len).Stable t (IsStored camera frame t n) :=
  fun _ _ _ _ _ hg _ hh => hg.kept _ _ hh

/-- The condition: no map of frames is inserted for a camera that has one. -/
def InsertsNew (_ : ℕ) (i : Op) (s : Shared ℕ) (_ : i.Ans) : Prop :=
  ∀ c, i = .insertCamera c → s.mem.repo.cameraFrames c = none

def registrationStep : Action ℕ Op Op.Ans (Shared ℕ) := calls.restrict InsertsNew

/-- A step that keeps counters and stored frames keeps what a thread holds. -/
theorem Holds.calm {i : Op} {a : i.Ans} (hc : calls t i s a s')
    (hq : Calm s.mem.repo s'.mem.repo) (h : Holds camera t n s) : Holds camera t n s' :=
  ⟨h.1.mono hc, by rw [hq.frames, h.2]⟩

theorem triple_nextSeqno :
    Triple (registration camera len) registrationStep t (fun _ => True)
      (Call.nextSeqno (camera t)) (Holds camera t) := by
  refine Triple.perform_bind (fun b _ => b = true) (fun b => .const _) ?_ ?_
  · rintro s b s' hi _ ⟨hc, _⟩
    obtain ⟨b', he⟩ := hc.1
    obtain ⟨hb, hm⟩ := Memory.exec_counterFind he
    obtain ⟨hi', hg⟩ := hi.calm hc (fun _ h => by cases h) (.of_eq (by rw [hm]))
    refine ⟨hi', hg, ?_⟩
    rw [hb]
    exact hi.primed t
  · intro b
    cases b with
    | true =>
        refine Triple.perform (fun n => stable_holds) ?_
        rintro s n s' hi _ ⟨hc, _⟩
        obtain ⟨hi', hg, hd, hf⟩ := hi.draw hc
        exact ⟨hi', hg, hd, hf⟩
    | false => exact Triple.of_false (fun _ _ h => by cases h)

theorem triple_insertFrame :
    Triple (registration camera len) registrationStep t
      (fun s => Holds camera t n s ∧ HasEntry (camera t) s)
      (Call.perform (.insertFrame (.linked (camera t)) n (frame t)))
      (fun _ => IsStored camera frame t n) := by
  refine Triple.perform (fun _ => stable_isStored) ?_
  rintro s ⟨⟩ s' hi ⟨hh, hentry⟩ ⟨hc, _⟩
  exact hi.insert hc hh.1 hh.2 hentry

theorem triple_dropCamera :
    Triple (registration camera len) registrationStep t (IsStored camera frame t n)
      (Call.perform (.dropCamera (camera t))) (fun _ => IsStored camera frame t n) := by
  refine Triple.perform (fun _ => stable_isStored) ?_
  rintro s a s' hi hs ⟨hc, _⟩
  obtain ⟨b', he⟩ := hc.1
  have hm := (Memory.exec_dropCamera he).1
  obtain ⟨hi', hg⟩ := hi.calm hc (fun _ h => by cases h) (.of_eq hm)
  refine ⟨hi', hg, ?_⟩
  rw [IsStored, hm]
  exact hs

theorem triple_registerFrame :
    Triple (registration camera len) registrationStep t (Holds camera t n)
      (Call.registerFrame (camera t) n (frame t)) (fun _ => IsStored camera frame t n) := by
  refine Triple.perform_bind
    (fun b s => Holds camera t n s ∧ (b = true → HasEntry (camera t) s))
    (fun b => stable_holds.and (.imp_const fun _ => stable_hasEntry)) ?_ ?_
  · rintro s b s' hi hh ⟨hc, _⟩
    obtain ⟨b', he⟩ := hc.1
    have hm : s'.mem.repo = s.mem.repo := by
      rcases Memory.exec_findCamera he with ⟨_, _, hm⟩ | ⟨_, _, _, hm⟩ <;> rw [hm]
    obtain ⟨hi', hg⟩ := hi.calm hc (fun _ h => by cases h) (.of_eq hm)
    refine ⟨hi', hg, hh.calm hc (.of_eq hm), ?_⟩
    intro hb
    rw [HasEntry, hm]
    rcases Memory.exec_findCamera he with ⟨hb', _, _⟩ | ⟨_, hentry, _, _⟩
    · rw [hb] at hb'
      cases hb'
    · exact hentry
  · intro b
    cases b with
    | true =>
        refine Triple.bind ?_ (fun _ => triple_dropCamera)
        exact triple_insertFrame.weaken (fun s _ h => ⟨h.1, h.2 rfl⟩) (fun _ _ _ h => h)
    | false =>
        refine Triple.perform_bind
          (fun b s => b = true ∧ Holds camera t n s ∧ HasEntry (camera t) s)
          (fun b => .and (.const _) (stable_holds.and stable_hasEntry)) ?_ ?_
        · rintro s b s' hi ⟨hh, _⟩ ⟨hc, hok⟩
          obtain ⟨b', he⟩ := hc.1
          obtain ⟨hb, hm⟩ := Memory.exec_insertCamera he
          have hnone := hok (camera t) rfl
          have hq : Calm s.mem.repo s'.mem.repo := by
            rw [hm]
            refine ⟨rfl, ?_, ?_, fun _ => rfl⟩
            · intro k
              by_cases hk : k.1 = camera t
              · simp [Memory.withRepo, Repository.frame, hk, Table.insert_of_none hnone, hnone]
              · simp [Memory.withRepo, Repository.frame, hk]
            · intro c hentry
              by_cases hk : c = camera t
              · rw [hk, hnone] at hentry
                cases hentry
              · simpa [Memory.withRepo, hk] using hentry
          obtain ⟨hi', hg⟩ := hi.calm hc (fun _ h => by cases h) hq
          refine ⟨hi', hg, by rw [hb, hnone]; rfl, hh.calm hc hq, ?_⟩
          rw [HasEntry, hm]
          simp [Memory.withRepo, Table.insert_of_none hnone]
        · intro b
          cases b with
          | true => exact triple_insertFrame.weaken (fun _ _ h => h.2) (fun _ _ _ h => h)
          | false => exact Triple.of_false (fun _ _ h => by cases h.1)

theorem triple_newFrame :
    Triple (registration camera len) registrationStep t (fun _ => True)
      (Call.newFrame (camera t) (frame t)) (IsStored camera frame t) := by
  refine Triple.bind triple_nextSeqno (fun n => ?_)
  refine Triple.perform_bind (fun _ => Holds camera t n) (fun _ => stable_holds) ?_ ?_
  · rintro s a s' hi hh ⟨hc, _⟩
    obtain ⟨b', he⟩ := hc.1
    have hm := Memory.exec_setSeqno he
    have hq : Calm s.mem.repo s'.mem.repo := by
      rw [hm]
      refine ⟨rfl, fun _ => rfl, fun _ h => h, ?_⟩
      intro g
      simp only [Memory.withRepo, Repository.infos_modifyInfo]
      split_ifs with hg
      · rw [hg]
      · rfl
    obtain ⟨hi', hg⟩ := hi.calm hc (fun _ h => by cases h) hq
    exact ⟨hi', hg, hh.calm hc hq⟩
  · intro _
    refine Triple.bind triple_registerFrame (fun _ => ?_)
    exact Triple.pure (fun _ _ h => h)

/-- Threads that register `frame t` with `camera t`, on a repository where nobody is at work. -/
def registrations (camera : ℕ → CameraId) (frame : ℕ → FrameRef) (r : Repository) :
    Pool ℕ Op Op.Ans SeqNo (Shared ℕ) :=
  ⟨fun t => Call.newFrame (camera t) (frame t), ⟨{ repo := r }, []⟩⟩

/-- Where the cameras are primed, their keys from the counters on are free and the frames have
colour data, in every interleaving that inserts no map where there is one, a frame whose
registration has returned a number is given back by `get_frame` for that number. -/
theorem registered_frames_are_found {r : Repository}
    (hprimed : ∀ t, (r.seqNumbers (camera t)).isSome)
    (hfree : ∀ t n f, r.frame (camera t, n) = some f → Passed r (camera t) n)
    (hlen : 0 < (r.infos (frame t)).rgbaLen)
    {p : Pool ℕ Op Op.Ans SeqNo (Shared ℕ)}
    (hp : Pool.Reach registrationStep (registrations camera frame r) p)
    (ht : p.threads t = .pure n) :
    p.state.mem.repo.call (Call.getFrame (camera t) n) =
      some (some (frame t), p.state.mem.repo) := by
  have hinit : Registering camera (fun f => (r.infos f).rgbaLen) ⟨{ repo := r }, []⟩ :=
    ⟨hprimed, hfree, fun _ _ _ hd => (List.not_mem_nil hd).elim,
      fun _ _ _ _ hd => (List.not_mem_nil hd).elim, fun _ => rfl⟩
  have htriple (t : ℕ) : Triple (registration camera (fun f => (r.infos f).rgbaLen))
      registrationStep t (fun _ => True) (Call.newFrame (camera t) (frame t))
      (IsStored camera frame t) := triple_newFrame
  have hstored : IsStored camera frame t n p.state :=
    Contract.sound_post (fun _ => .const _) htriple hinit (fun _ => trivial) hp ht
  have hinv := Contract.sound_inv (fun _ => .const _) htriple hinit (fun _ => trivial) hp
  have hl : 0 < (p.state.mem.repo.infos (frame t)).rgbaLen := by
    rw [hinv.sized]
    exact hlen
  rw [Repository.call_getFrame, Repository.getFrame, hstored]
  simp [hl]

/-- Every camera is primed and has no map of frames yet. -/
def primedStart : Repository :=
  { seqNumbers := fun _ => some 0, infos := fun _ => { rgbaLen := 4 } }

def insertsNew (_ : ℕ) (i : Op) (s : Shared ℕ) (_ : i.Ans) : Bool :=
  match i with
  | .insertCamera c => (s.mem.repo.cameraFrames c).isNone
  | _ => true

theorem insertsNew_sound (t : ℕ) (i : Op) (s : Shared ℕ) (a : i.Ans)
    (h : insertsNew t i s a = true) : InsertsNew t i s a := by
  rintro c rfl
  simpa [insertsNew] using h

/-- A single thread on a new camera. -/
theorem registered_frames_are_found_alone :
    ∃ p, Pool.Reach registrationStep (registrations (fun _ => 0) (fun t => t) primedStart) p ∧
      p.state.mem.repo.call (Call.getFrame 0 0) = some (some 5, p.state.mem.repo) := by
  have hrun : (Pool.replay Memory.exec insertsNew (List.replicate 6 (5, true))
      (registrations (fun _ => 0) (fun t => t) primedStart)).map
        (fun p => (p.threads 5).result) = some (some 0) := by decide
  obtain ⟨p, hp, hres⟩ := Option.map_eq_some_iff.mp hrun
  have hreach := Pool.reach_of_replay insertsNew_sound _ _ _ hp
  refine ⟨p, hreach, ?_⟩
  exact registered_frames_are_found (t := 5) (fun _ => rfl) (fun _ _ _ h => by cases h) (by decide)
    hreach (Prog.eq_pure_of_result hres)

/-- Two threads both find no map for camera 0, and the frame of thread 1 goes into the map that
is not stored. -/
theorem registered_frame_is_lost :
    ∃ p, Pool.Reach calls (registrations (fun _ => 0) (fun t => t) primedStart) p ∧
      p.threads 1 = .pure 1 ∧
      p.state.mem.repo.call (Call.getFrame 0 1) = some (none, p.state.mem.repo) := by
  have hrun : (Pool.replay Memory.exec (fun _ _ _ _ => true)
      (List.replicate 4 (0, true) ++ List.replicate 4 (1, true) ++ List.replicate 2 (0, true) ++
        List.replicate 2 (1, true))
      (registrations (fun _ => 0) (fun t => t) primedStart)).map
        (fun p => ((p.threads 1).result, p.state.mem.repo.frame (0, 1))) =
      some (some 1, none) := by decide
  obtain ⟨p, hp, hres⟩ := Option.map_eq_some_iff.mp hrun
  obtain ⟨hres, hframe⟩ := Prod.mk.inj hres
  refine ⟨p, Pool.reach_of_replay_all _ _ _ hp, Prog.eq_pure_of_result hres, ?_⟩
  rw [Repository.call_getFrame, Repository.getFrame, hframe]
  rfl

end ARArch

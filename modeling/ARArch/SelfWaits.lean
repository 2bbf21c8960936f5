import ARArch.LockOrder
import ARArch.Requests

/-!
# Waiting for one's own lock

An accessor holds the lock of its element until it is dropped, and the lock is not reentrant: a
thread that asks for an element it holds waits for ever. One call does so. For a stored frame
without colour data `get_frame` calls `delete_frame` while its own accessors are still in scope,
and `delete_frame` begins with the camera's entry. Every other call takes the entry of a camera
first and a frame in it second, and drops both before it takes another entry.

A `const_accessor` lives until `count` has answered; nothing is asked for in between.
-/

namespace ARArch

open Atomic

/-- The operation asks for an element that thread `t` itself has locked. -/
def Memory.SelfWait {τ : Type} (t : τ) : Op → Memory τ → Prop
  | .findCamera c, m | .peekCamera c, m =>
    (m.repo.cameraFrames c).isSome = true ∧ m.cameraLock c = some t
  | .findFrame c s, m => (m.repo.frame (c, s)).isSome = true ∧ m.frameLock (c, s) = some t
  | _, _ => False

/-- A request, made alone, comes to wait for itself. -/
def Repository.WaitsOnItself (r : Repository) (q : Request) : Prop :=
  q.program.ComesTo (fun i => Memory.exec false () i) (Memory.SelfWait ()) (Memory.idle r [])

/-- `get_frame` answers `false` for a frame without colour data, which is gone then unless somebody
has claimed it. -/
def Repository.GivesUp (r : Repository) : Request → Prop
  | .getFrame c s => ∀ f, r.frame (c, s) = some f → (r.infos f).rgbaLen ≤ 0 →
    ∃ r', r.respond (.getFrame c s) = some (none, r') ∧
      ((r.infos f).unclaimed = true → r'.frame (c, s) = none)
  | _ => True

/-- What `get_frame` finds has colour data. -/
def Repository.HasData (r : Repository) : Request → Prop
  | .getFrame c s => ∀ f, r.frame (c, s) = some f → 0 < (r.infos f).rgbaLen
  | _ => True

theorem Memory.exec_of_selfWait {i : Op} {m : Memory Unit} (h : Memory.SelfWait () i m) :
    Memory.exec false () i m = none := by
  cases i with
  | findCamera c =>
      obtain ⟨hentry, hlock⟩ := h
      simp [exec, Option.isSome_iff_ne_none.mp hentry, hlock]
  | peekCamera c => simp [exec, h.2]
  | findFrame c s =>
      obtain ⟨hframe, hlock⟩ := h
      obtain ⟨f, hf⟩ := Option.isSome_iff_exists.mp hframe
      simp [exec, hf, hlock]
  | _ => exact h.elim

namespace Repository

variable {r : Repository} {q : Request}

theorem hasData_iff : r.HasData q ↔ (r.respond q).isSome = true := by
  rw [respond_eq]
  cases q with
  | getFrame c s =>
      simp only [HasData, Request.effect, Option.isSome_map, getFrame]
      cases hf : r.frame (c, s) with
      | none => simp
      | some f => by_cases hl : 0 < (r.infos f).rgbaLen <;> simp [hl]
  | _ => simp [HasData, Request.effect]

/-- A call that returns has not waited for itself. -/
theorem not_waitsOnItself (h : r.HasData q) : ¬ r.WaitsOnItself q := by
  obtain ⟨_, ha⟩ := Option.isSome_iff_exists.mp (hasData_iff.mp h)
  obtain ⟨p, hp, -⟩ := Option.map_eq_some_iff.mp ha
  exact Prog.not_comesTo_of_run (fun _ _ => Memory.exec_of_selfWait) hp

/-- Without colour data the call waits for the entry that it holds. -/
theorem waitsOnItself_getFrame {c : CameraId} {s : SeqNo} {f : FrameRef}
    (hf : r.frame (c, s) = some f) (hl : (r.infos f).rgbaLen ≤ 0) :
    r.WaitsOnItself (.getFrame c s) := by
  obtain ⟨frames, hm, -⟩ := Option.bind_eq_some_iff.mp hf
  have hcamera : Memory.exec false () (.findCamera c) (Memory.idle r []) =
      some (true, Memory.holding c r []) := Call.exec_findCamera r [] c false hm
  have hframe : Memory.exec false () (.findFrame c s) (Memory.holding c r []) =
      some (some f, { Memory.holding c r [] with
        frameLock := (Table.empty : Table Key Unit).assign (c, s) () }) := by
    simp [Memory.exec, Memory.holding, hf]
  refine Or.inr ⟨_, _, hcamera, Or.inr ⟨_, _, hframe, Or.inr ⟨_, _, rfl, ?_⟩⟩⟩
  change Prog.ComesTo _ _ (if 0 < (r.infos f).rgbaLen then _ else _) _
  rw [if_neg (not_lt.mpr hl)]
  refine Or.inr ⟨_, _, rfl, Or.inl ⟨?_, ?_⟩⟩
  · simp [Memory.holding, hm]
  · simp [Memory.holding]

theorem noSelfWait_iff : (¬ r.WaitsOnItself q ∧ r.GivesUp q) ↔ r.HasData q := by
  constructor
  · rintro ⟨hwait, _⟩
    cases q with
    | getFrame c s =>
        intro f hf
        by_contra hl
        exact hwait (waitsOnItself_getFrame hf (not_lt.mp hl))
    | _ => trivial
  · intro h
    refine ⟨not_waitsOnItself h, ?_⟩
    cases q with
    | getFrame c s => exact fun f hf hl => (not_lt.mpr hl (h f hf)).elim
    | _ => trivial

end Repository

/-! ### Threads that interleave -/

/-- The operation takes a lock or gives one back. -/
def Op.locks : Op → Bool
  | .findCamera _ | .dropCamera _ | .findFrame _ _ | .dropFrame _ _ | .eraseFrame _ _ => true
  | _ => false

/-- What a thread that holds `l` may ask for. -/
def Op.InOrder : Op → Locks → Prop
  | .findCamera _, l | .peekCamera _, l => l = {}
  | .findFrame c _, l | .dropCamera c, l => l = { camera := some c }
  | .dropFrame c s, l | .eraseFrame c s, l => l = { camera := some c, frame := some (c, s) }
  | _, _ => True

def Op.FindsData : (i : Op) → i.Ans → Prop
  | .rgbaLen _, len => 0 < len
  | _, _ => True

def lockOrder : Discipline Op Op.Ans Locks where
  allowed := Op.InOrder
  after := Op.after
  answers := Op.FindsData

section Programs

open Discipline

variable {c d : CameraId} {s : SeqNo} {f : FrameRef} {α : Type}

theorem follows_loadUnclaimed {l : Locks} :
    lockOrder.Follows l (Call.loadUnclaimed f) (fun _ => l) := by
  refine .step trivial (fun isDetecting _ => ?_)
  cases isDetecting with
  | true => exact .pure rfl
  | false =>
      refine .step trivial (fun isTracking _ => ?_)
      cases isTracking with
      | true => exact .pure rfl
      | false =>
          refine .step trivial (fun isRendering _ => ?_)
          cases isRendering <;> exact .pure rfl

theorem follows_loadUndetected {l : Locks} :
    lockOrder.Follows l (Call.loadUndetected f) (fun _ => l) := by
  refine .step trivial (fun isDetecting _ => ?_)
  cases isDetecting with
  | true => exact .pure rfl
  | false =>
      refine .step trivial (fun isTracking _ => ?_)
      cases isTracking <;> exact .pure rfl

theorem follows_eraseIf {mayErase : FrameRef → Call Bool}
    (h : ∀ f l, lockOrder.Follows l (mayErase f) (fun _ => l)) :
    lockOrder.Follows { camera := some c } (Call.eraseIf mayErase c s)
      (fun _ => { camera := some c }) := by
  refine .step rfl (fun a _ => ?_)
  cases a with
  | none => exact .pure rfl
  | some f =>
      refine (h f _).bind (fun isFree => ?_)
      cases isFree with
      | true => exact .step rfl (fun _ _ => .pure rfl)
      | false => exact .step rfl (fun _ _ => .pure rfl)

theorem follows_deleteStereoPair {l : Locks} :
    lockOrder.Follows l (Call.deleteStereoPair c s) (fun _ => l) := by
  refine .step trivial (fun a _ => ?_)
  cases a with
  | none => exact .pure rfl
  | some twin =>
      refine .step trivial (fun _ _ => .step trivial (fun b _ => ?_))
      cases b with
      | none => exact .pure rfl
      | some _ => exact .step trivial (fun _ _ => .pure rfl)

theorem follows_deleteTwin :
    lockOrder.Follows { camera := some c } (Call.deleteTwin c s) (fun _ => {}) := by
  refine .step trivial (fun twin _ => ?_)
  cases twin with
  | none => exact .last rfl (fun _ _ => rfl)
  | some twin =>
      refine .step rfl (fun _ _ => .step rfl (fun isCamera _ => ?_))
      cases isCamera with
      | true =>
          refine (follows_eraseIf (fun _ _ => follows_loadUndetected)).bind (fun _ => ?_)
          refine follows_deleteStereoPair.bind (fun _ => ?_)
          exact .last rfl (fun _ _ => rfl)
      | false => exact follows_deleteStereoPair.bind (fun _ => .pure rfl)

theorem follows_deleteFrame : lockOrder.Follows {} (Call.deleteFrame c s) (fun _ => {}) := by
  refine .step rfl (fun isCamera _ => ?_)
  cases isCamera with
  | true =>
      refine (follows_eraseIf (fun _ _ => follows_loadUnclaimed)).bind (fun isFound => ?_)
      cases isFound with
      | true => exact follows_deleteTwin
      | false => exact .last rfl (fun _ _ => rfl)
  | false => exact .pure rfl

theorem follows_getFrame : lockOrder.Follows {} (Call.getFrame c s) (fun _ => {}) := by
  refine .step rfl (fun isCamera _ => ?_)
  cases isCamera with
  | true =>
      refine .step rfl (fun a _ => ?_)
      cases a with
      | none => exact .step rfl (fun _ _ => .pure rfl)
      | some f =>
          refine .step trivial (fun len hlen => ?_)
          have hpos : 0 < len := hlen
          rw [if_pos hpos]
          exact .step rfl (fun _ _ => .step rfl (fun _ _ => .pure rfl))
  | false => exact .pure rfl

theorem follows_hasFrame : lockOrder.Follows {} (Call.hasFrame c s) (fun _ => {}) := by
  refine .step rfl (fun isCamera _ => ?_)
  cases isCamera with
  | true => exact .last trivial (fun _ _ => rfl)
  | false => exact .pure rfl

theorem follows_hasFrameIn (cameras : List CameraId) :
    lockOrder.Follows {} (Call.hasFrameIn s cameras) (fun _ => {}) := by
  induction cameras with
  | nil => exact .pure rfl
  | cons c cameras ih =>
      refine follows_hasFrame.bind (fun isThere => ?_)
      cases isThere with
      | true => exact .pure rfl
      | false => exact ih

theorem follows_deleteAllFrames :
    lockOrder.Follows {} (Call.deleteAllFrames s) (fun _ => {}) := by
  refine .step trivial (fun cameras _ => .forEach (fun c => ?_))
  refine .step rfl (fun isCamera _ => ?_)
  cases isCamera with
  | true =>
      refine (follows_eraseIf (fun _ _ => follows_loadUndetected)).bind (fun _ => ?_)
      exact .last rfl (fun _ _ => rfl)
  | false => exact .pure rfl

theorem follows_clearQueued : lockOrder.Follows {} (Call.clearQueued c) (fun _ => {}) := by
  refine .step rfl (fun isCamera _ => ?_)
  cases isCamera with
  | true => exact .step trivial (fun _ _ => .last rfl (fun _ _ => rfl))
  | false => exact .pure rfl

theorem follows_nextSeqno {l : Locks} :
    lockOrder.Follows l (Call.nextSeqno c) (fun _ => l) := by
  refine .step trivial (fun isKnown _ => ?_)
  cases isKnown with
  | true => exact .last trivial (fun _ _ => rfl)
  | false => exact .step trivial (fun _ _ => .pure rfl)

theorem follows_registerFrame :
    lockOrder.Follows {} (Call.registerFrame c s f) (fun _ => {}) := by
  refine .step rfl (fun isCamera _ => ?_)
  cases isCamera with
  | true => exact .step trivial (fun _ _ => .last rfl (fun _ _ => rfl))
  | false =>
      refine .step trivial (fun isNew _ => ?_)
      cases isNew <;> exact .last trivial (fun _ _ => rfl)

theorem follows_linkTwin {k j : Key} {l : Locks} :
    lockOrder.Follows l (Call.linkTwin k j) (fun _ => l) := by
  refine .step trivial (fun a _ => ?_)
  cases a <;> exact .last trivial (fun _ _ => rfl)

theorem follows_addCamera {l : Locks} :
    lockOrder.Follows l (Call.addCamera c) (fun _ => l) := by
  rw [Call.addCamera]
  split_ifs
  · exact .pure rfl
  · refine .step trivial (fun known _ => ?_)
    split_ifs
    · exact .pure rfl
    · exact .step trivial (fun _ _ => .pure rfl)

/-- Every request takes its locks in order and gives them back. -/
theorem follows_program (q : Request) : lockOrder.Follows {} q.program (fun _ => {}) := by
  cases q with
  | addCamera id => exact follows_addCamera
  | hardwareAddCamera id =>
      refine follows_addCamera.bind (fun isNew => ?_)
      cases isNew with
      | true => exact follows_nextSeqno.bind (fun _ => .pure rfl)
      | false => exact .pure rfl
  | nextSeqno camera => exact follows_nextSeqno
  | newFrame camera frame =>
      refine follows_nextSeqno.bind (fun seqno => .step trivial (fun _ _ => ?_))
      exact follows_registerFrame.bind (fun _ => .pure rfl)
  | newStereoFrame camera1 frame1 camera2 frame2 =>
      refine follows_nextSeqno.bind (fun seqno => ?_)
      refine follows_registerFrame.bind (fun _ => ?_)
      exact follows_registerFrame.bind (fun _ => .pure rfl)
  | getFrame camera seqno => exact follows_getFrame
  | hasFrame camera seqno => exact follows_hasFrame
  | hasFrameAny seqno => exact .step trivial (fun cameras _ => follows_hasFrameIn cameras)
  | deleteFrame camera seqno => exact follows_deleteFrame
  | deleteAllFrames seqno => exact follows_deleteAllFrames
  | clearQueued camera => exact follows_clearQueued
  | stereoPair key1 key2 => exact follows_linkTwin.bind (fun _ => follows_linkTwin)
  | stereoTwin camera seq => exact .last trivial (fun _ _ => rfl)
  | deleteStereoPair camera seq => exact follows_deleteStereoPair
  | setFlag frame u b => exact .last trivial (fun _ _ => rfl)

end Programs

/-- Threads that make requests one after another. -/
def requestPool {τ : Type} (requests : τ → List Request) (r : Repository) :
    Pool τ Op Op.Ans Unit (Memory τ) :=
  ⟨fun t => Prog.forEach (fun q => do
    let _ ← q.program
    pure ()) (requests t), { repo := r }⟩

/-- The steps of all threads, where no `get_frame` reads a length that is not positive. -/
def dataSteps {τ : Type} [DecidableEq τ] : Action τ Op Op.Ans (Memory τ) :=
  Action.restrict (fun t i m a m' => ∃ b, Memory.exec b t i m = some (a, m'))
    (fun _ i _ a => i.FindsData a)

/-- Thread `t` is about to ask for an element that it has locked. -/
def SelfWaiting {τ : Type} (p : Pool τ Op Op.Ans Unit (Memory τ)) (t : τ) : Prop :=
  ∃ i k, p.threads t = .call i k ∧ Memory.SelfWait t i p.state

section Threads

variable {τ : Type} {m m' : Memory τ} {t u : τ} {l : Locks} {i : Op} {a : i.Ans} {b : Bool}

/-- Thread `t` has locked nothing but `l`. -/
structure LocksOnly (t : τ) (l : Locks) (m : Memory τ) : Prop where
  camera : ∀ c, m.cameraLock c = some t → l.camera = some c
  frame : ∀ k, m.frameLock k = some t → l.frame = some k

theorem LocksOnly.congr (h : LocksOnly t l m) (hc : m'.cameraLock = m.cameraLock)
    (hf : m'.frameLock = m.frameLock) : LocksOnly t l m' := by
  constructor
  · rw [hc]
    exact h.camera
  · rw [hf]
    exact h.frame

theorem LocksOnly.not_selfWait (h : LocksOnly t l m) (hi : i.InOrder l) :
    ¬ Memory.SelfWait t i m := by
  cases i with
  | findCamera c =>
      cases hi
      rintro ⟨_, hlock⟩
      cases h.camera c hlock
  | peekCamera c =>
      cases hi
      rintro ⟨_, hlock⟩
      cases h.camera c hlock
  | findFrame c s =>
      cases hi
      rintro ⟨_, hlock⟩
      cases h.frame (c, s) hlock
  | _ => exact id

variable [DecidableEq τ]

theorem Memory.exec_of_locks_eq_false (hi : i.locks = false)
    (he : Memory.exec b t i m = some (a, m')) :
    m'.cameraLock = m.cameraLock ∧ m'.frameLock = m.frameLock := by
  cases i <;> simp only [Op.locks, Bool.true_eq_false] at hi
  case counterFetchAdd c =>
      obtain ⟨_, rfl⟩ := Memory.exec_counterFetchAdd he
      exact ⟨rfl, rfl⟩
  case insertFrame p s f => cases p <;> cases he <;> exact ⟨rfl, rfl⟩
  case peekCamera c =>
      rw [Memory.exec_peekCamera he]
      exact ⟨rfl, rfl⟩
  case tryPut port c s v =>
      rcases Memory.exec_tryPut he with ⟨_, rfl⟩ | ⟨_, rfl⟩ <;> exact ⟨rfl, rfl⟩
  case begin c s v =>
      obtain ⟨_, rfl⟩ := Memory.exec_begin he
      exact ⟨rfl, rfl⟩
  all_goals
    cases he
    exact ⟨rfl, rfl⟩

/-- Another thread's step locks nothing for `u`. -/
theorem LocksOnly.other (hu : u ≠ t) (h : LocksOnly u l m)
    (he : Memory.exec b t i m = some (a, m')) : LocksOnly u l m' := by
  cases i
  case findCamera c =>
      rcases Memory.exec_findCamera he with ⟨_, _, rfl⟩ | ⟨_, _, _, rfl⟩
      · exact h
      · refine ⟨fun d hd => ?_, h.frame⟩
        change m.cameraLock.assign c t d = some u at hd
        rw [Table.assign_apply] at hd
        split_ifs at hd
        · cases hd
          exact (hu rfl).elim
        · exact h.camera d hd
  case dropCamera c =>
      obtain ⟨_, hf, _, hc⟩ := Memory.exec_dropCamera he
      refine ⟨fun d hd => ?_, fun k hk => h.frame k (by rwa [hf] at hk)⟩
      rw [hc] at hd
      split_ifs at hd
      · exact h.camera d (Table.erase_eq_some.mp hd).2
      · exact h.camera d hd
  case findFrame c s =>
      rcases Memory.exec_findFrame he with ⟨_, _, rfl⟩ | ⟨f, _, _, _, rfl⟩
      · exact h
      · refine ⟨h.camera, fun k hk => ?_⟩
        change m.frameLock.assign (c, s) t k = some u at hk
        rw [Table.assign_apply] at hk
        split_ifs at hk
        · cases hk
          exact (hu rfl).elim
        · exact h.frame k hk
  case dropFrame c s =>
      cases he
      refine ⟨h.camera, fun k hk => ?_⟩
      dsimp only at hk
      split_ifs at hk
      · exact h.frame k (Table.erase_eq_some.mp hk).2
      · exact h.frame k hk
  case eraseFrame c s =>
      cases he
      exact ⟨h.camera, fun k hk => h.frame k (Table.erase_eq_some.mp hk).2⟩
  all_goals
    obtain ⟨hc, hf⟩ := Memory.exec_of_locks_eq_false rfl he
    exact h.congr hc hf

/-- What a step in order leaves to the thread that takes it. -/
theorem LocksOnly.self (h : LocksOnly t l m) (hi : i.InOrder l)
    (he : Memory.exec b t i m = some (a, m')) : LocksOnly t (i.after a l) m' := by
  cases i
  case findCamera c =>
      cases hi
      rcases Memory.exec_findCamera he with ⟨rfl, _, rfl⟩ | ⟨rfl, _, _, rfl⟩
      · exact h
      · refine ⟨fun d hd => ?_, h.frame⟩
        change m.cameraLock.assign c t d = some t at hd
        rw [Table.assign_apply] at hd
        split_ifs at hd with hdc
        · rw [hdc]
          rfl
        · cases h.camera d hd
  case dropCamera c =>
      cases hi
      obtain ⟨_, hf, _, hc⟩ := Memory.exec_dropCamera he
      refine ⟨fun d hd => ?_, fun k hk => h.frame k (by rwa [hf] at hk)⟩
      have hheld : m.cameraLock d = some t := by
        rw [hc] at hd
        split_ifs at hd
        · exact (Table.erase_eq_some.mp hd).2
        · exact hd
      cases h.camera d hheld
      rw [hc, if_pos hheld, Table.erase_self] at hd
      cases hd
  case findFrame c s =>
      cases hi
      rcases Memory.exec_findFrame he with ⟨rfl, _, rfl⟩ | ⟨f, rfl, _, _, rfl⟩
      · exact h
      · refine ⟨h.camera, fun k hk => ?_⟩
        change m.frameLock.assign (c, s) t k = some t at hk
        rw [Table.assign_apply] at hk
        split_ifs at hk with hkc
        · rw [hkc]
          rfl
        · cases h.frame k hk
  case dropFrame c s =>
      cases hi
      cases he
      refine ⟨h.camera, fun k hk => ?_⟩
      dsimp only at hk
      split_ifs at hk with hheld
      · obtain ⟨hne, hk⟩ := Table.erase_eq_some.mp hk
        cases h.frame k hk
        exact (hne rfl).elim
      · cases h.frame k hk
        exact (hheld hk).elim
  case eraseFrame c s =>
      cases hi
      cases he
      refine ⟨h.camera, fun k hk => ?_⟩
      obtain ⟨hne, hk⟩ := Table.erase_eq_some.mp hk
      cases h.frame k hk
      exact (hne rfl).elim
  all_goals
    obtain ⟨hc, hf⟩ := Memory.exec_of_locks_eq_false rfl he
    exact h.congr hc hf

/-- While no frame without colour data is asked for, no thread waits for itself. -/
theorem not_selfWaiting {requests : τ → List Request} {r : Repository}
    {p : Pool τ Op Op.Ans Unit (Memory τ)}
    (hr : Pool.Reach dataSteps (requestPool requests r) p) : ¬ SelfWaiting p t := by
  have hprog : ∀ t, lockOrder.Follows {} ((requestPool requests r).threads t) (fun _ => {}) :=
    fun t => .forEach (fun q => (follows_program q).bind (fun _ => .pure rfl))
  have h₀ : ∀ t, LocksOnly t {} (requestPool requests r).state := fun t => ⟨nofun, nofun⟩
  obtain ⟨l, hl, hf⟩ := Pool.follows_of_reach (D := lockOrder) (J := LocksOnly)
    (fun _ _ _ _ _ _ hJ hi _ ha => ha.elim (fun _ he => hJ.self hi he))
    (fun _ _ _ _ _ _ _ hu hJ ha => ha.elim (fun _ he => hJ.other hu he)) hprog h₀ hr t
  rintro ⟨i, k, hc, hwait⟩
  rw [hc] at hf
  exact hl.not_selfWait hf.1 hwait

end Threads

/-- A call made alone never waits for itself, and gives a frame without colour data up, exactly if
it is no `get_frame` of such a frame. Threads whose calls are none of these never do. -/
theorem no_self_wait (r : Repository) :
    (∀ q, (¬ r.WaitsOnItself q ∧ r.GivesUp q) ↔ r.HasData q) ∧
    ∀ (τ : Type) [DecidableEq τ] (requests : τ → List Request)
      (p : Pool τ Op Op.Ans Unit (Memory τ)),
      Pool.Reach dataSteps (requestPool requests r) p → ∀ t, ¬ SelfWaiting p t :=
  ⟨fun _ => Repository.noSelfWait_iff, fun _ _ _ _ hr _ => not_selfWaiting hr⟩

/-- A frame of camera 0 under number 1, with so many bytes of colour data. -/
def frameOfLength (n : ℤ) : Repository where
  cameras := [0]
  seqNumbers := Table.empty.assign 0 2
  cameraFrames := Table.empty.assign 0 (Table.empty.assign 1 7)
  infos := fun _ => { seqno := 1, rgbaLen := n }

/-- Two threads ask for one frame with colour data; the first has its camera, the second waits. -/
theorem no_self_wait_two : ¬ (frameOfLength 4).WaitsOnItself (.getFrame 0 1) ∧
    ∃ p, Pool.Reach dataSteps
      (requestPool (fun _ : Bool => [.getFrame 0 1]) (frameOfLength 4)) p ∧
      p.state.cameraLock 0 = some true ∧ ∀ t, ¬ SelfWaiting p t := by
  have hdata : (frameOfLength 4).HasData (.getFrame 0 1) := by
    intro f _
    change (0 : ℤ) < 4
    decide
  refine ⟨(((no_self_wait (frameOfLength 4)).1 _).mpr hdata).1, ?_⟩
  have hstep : Pool.Reach dataSteps (requestPool (fun _ : Bool => [.getFrame 0 1])
      (frameOfLength 4)) _ :=
    .single (.call (t := true) (r := true) rfl ⟨⟨false, rfl⟩, trivial⟩)
  exact ⟨_, hstep, by decide, (no_self_wait (frameOfLength 4)).2 Bool _ _ hstep⟩

theorem getFrame_waits_on_itself :
    (frameOfLength 0).WaitsOnItself (.getFrame 0 1) ∧
      ¬ (frameOfLength 0).GivesUp (.getFrame 0 1) := by
  have hf : (frameOfLength 0).frame (0, 1) = some 7 := by decide
  refine ⟨Repository.waitsOnItself_getFrame hf le_rfl, fun h => ?_⟩
  obtain ⟨r', hr', -⟩ := h 7 hf le_rfl
  have hnone : (frameOfLength 0).respond (.getFrame 0 1) = none := by
    rw [Repository.respond_eq]
    rfl
  rw [hnone] at hr'
  cases hr'

end ARArch

import ARArch.Following

/-!
# Nobody waits for ever

A party locks the entry of one camera at a time and, while it holds that entry, one frame in it.
So a party that waits for a camera holds nothing, a frame is never waited for, and whoever holds a
lock can move. A system in which nobody can move is therefore one in which nobody is at work.

This needs frames with colour data. For a frame without, `get_frame` calls `delete_frame` while it
still holds the camera, and waits for itself.
-/

namespace ARArch

open Atomic

/-- What a party holds: the entry of a camera, and a frame there. -/
structure Locks where
  camera : Option CameraId := none
  frame : Option Key := none

/-- What party `t` must hold to make a call. A node starts on its own message only. -/
def Op.Allowed (S : Scene) (t : Party) : Op → Locks → Prop
  | .begin c n u, l => S.routed ∧ t = .consumer (c, n) u ∧ l = {}
  | .findCamera _, l => l = {}
  | .findFrame c _, l | .dropCamera c, l => l = { camera := some c }
  | .dropFrame c n, l | .eraseFrame c n, l => l = { camera := some c, frame := some (c, n) }
  | .load _ _, _ | .store _ _ _, _ | .rgbaLen _, _ | .seqno _, _ | .stereoFind _, _
  | .busy _ _, _ | .tryPut _ _ _ _, _ | .exchangeRendering, _ | .resetRendering, _ => True
  | _, _ => False

/-- What it holds afterwards. -/
def Op.after : (i : Op) → i.Ans → Locks → Locks
  | .findCamera c, true, _ => { camera := some c }
  | .findFrame c n, some _, _ => { camera := some c, frame := some (c, n) }
  | .dropFrame c _, _, _ | .eraseFrame c _, _, _ => { camera := some c }
  | .dropCamera _, _, _ => {}
  | _, _, l => l

/-- The answers of a call where the frames of the scene have colour data. -/
def Op.Answers (S : Scene) : (i : Op) → i.Ans → Prop
  | .findFrame c n, a => ∀ f, a = some f → S.stored (c, n) = some f
  | .rgbaLen f, len => ∀ k, S.stored k = some f → 0 < len
  | .stereoFind _, a => a = none
  | _, _ => True

/-- A program of party `t`, which holds `l`, makes only calls it may make, and ends holding
`post`. -/
def Scene.Orderly {α : Type} (S : Scene) (t : Party) : Locks → Call α → (α → Locks) → Prop
  | l, .pure a, post => post a = l
  | l, .call i p, post => i.Allowed S t l ∧
    ∀ a, i.Answers S a → Orderly S t (i.after a l) (p a) post

section Programs

open Scene

variable {S : Scene} {t : Party} {l : Locks} {c : CameraId} {n : SeqNo} {f : FrameRef}
  {u : Consumer} {α β : Type}

theorem Scene.Orderly.bind {p : Call α} {g : α → Call β} {mid : α → Locks} {post : β → Locks}
    (hp : S.Orderly t l p mid) (hg : ∀ a, S.Orderly t (mid a) (g a) post) :
    S.Orderly t l (p >>= g) post := by
  induction p generalizing l with
  | pure a =>
      have hl : mid a = l := hp
      subst hl
      exact hg a
  | call i k ih => exact ⟨hp.1, fun a ha => ih a (hp.2 a ha)⟩

theorem Scene.Orderly.step {i : Op} {g : i.Ans → Call α} {post : α → Locks} (hi : i.Allowed S t l)
    (hg : ∀ a, i.Answers S a → S.Orderly t (i.after a l) (g a) post) :
    S.Orderly t l (Call.perform i >>= g) post :=
  ⟨hi, hg⟩

theorem Scene.Orderly.last {i : Op} {post : i.Ans → Locks} (hi : i.Allowed S t l)
    (hpost : ∀ a, i.Answers S a → post a = i.after a l) :
    S.Orderly t l (Call.perform i) post :=
  ⟨hi, hpost⟩

theorem orderly_loadUnclaimed : S.Orderly t l (Call.loadUnclaimed f) (fun _ => l) := by
  refine Orderly.step trivial (fun isDetecting _ => ?_)
  cases isDetecting with
  | true => rfl
  | false =>
      refine Orderly.step trivial (fun isTracking _ => ?_)
      cases isTracking with
      | true => rfl
      | false =>
          refine Orderly.step trivial (fun isRendering _ => ?_)
          cases isRendering <;> rfl

theorem orderly_eraseIf :
    S.Orderly t { camera := some c } (Call.eraseIf Call.loadUnclaimed c n)
      (fun _ => { camera := some c }) := by
  refine Orderly.step rfl (fun a _ => ?_)
  cases a with
  | none => rfl
  | some f =>
      refine Orderly.bind orderly_loadUnclaimed (fun mayErase => ?_)
      cases mayErase with
      | true => exact Orderly.step rfl (fun _ _ => rfl)
      | false => exact Orderly.step rfl (fun _ _ => rfl)

theorem orderly_deleteFrame : S.Orderly t {} (Call.deleteFrame c n) (fun _ => {}) := by
  refine Orderly.step rfl (fun isCamera _ => ?_)
  cases isCamera with
  | true =>
      refine Orderly.bind orderly_eraseIf (fun isFound => ?_)
      cases isFound with
      | true =>
          refine Orderly.step trivial (fun twin htwin => ?_)
          have hnone : twin = none := htwin
          subst hnone
          exact Orderly.last rfl (fun _ _ => rfl)
      | false => exact Orderly.last rfl (fun _ _ => rfl)
  | false => rfl

theorem orderly_offer {isThere : Bool} {port : ℕ} :
    S.Orderly t {} (Call.offer isThere port c n f u) (fun _ => {}) := by
  rw [Call.offer]
  split_ifs with hthere
  · refine Orderly.step trivial (fun busy _ => ?_)
    cases busy with
    | true => rfl
    | false =>
        refine Orderly.step trivial (fun accepts _ => ?_)
        cases accepts with
        | true => exact Orderly.step trivial (fun _ _ => rfl)
        | false => rfl
  · rfl

theorem orderly_renderOrDelete {isThere isDelete : Bool} {port : ℕ} :
    S.Orderly t {} (Call.renderOrDelete isThere isDelete port c n f) (fun _ => {}) := by
  rw [Call.renderOrDelete]
  split_ifs with hthere hdelete
  · refine Orderly.step trivial (fun accepts _ => ?_)
    cases accepts with
    | true => exact Orderly.last trivial (fun _ _ => rfl)
    | false => exact orderly_deleteFrame
  · exact orderly_deleteFrame
  · rfl

theorem orderly_routeFrom {port : ℕ} {params : TBBRouterParameters} :
    S.Orderly t {} (Call.routeFrom port params c n f) (fun _ => {}) := by
  refine Orderly.bind orderly_offer (fun _ => ?_)
  exact Orderly.bind orderly_offer (fun _ => orderly_renderOrDelete)

theorem orderly_routeFrame {params : TBBRouterParameters} :
    S.Orderly t {} (Call.routeFrame params c n f) (fun _ => {}) := by
  unfold Call.routeFrame
  split
  · exact orderly_routeFrom
  · exact orderly_routeFrom
  · exact orderly_routeFrom
  · exact orderly_routeFrom
  · rfl

theorem orderly_getFrame : S.Orderly t {} (Call.getFrame c n) (fun _ => {}) := by
  refine Orderly.step rfl (fun isCamera _ => ?_)
  cases isCamera with
  | true =>
      refine Orderly.step rfl (fun a hfound => ?_)
      cases a with
      | none => exact Orderly.step rfl (fun _ _ => rfl)
      | some f =>
          refine Orderly.step trivial (fun len hlen => ?_)
          have hpos : 0 < len := hlen (c, n) (hfound f rfl)
          rw [if_pos hpos]
          refine Orderly.step rfl (fun _ _ => ?_)
          exact Orderly.step rfl (fun _ _ => rfl)
  | false => rfl

theorem orderly_consume : S.Orderly t {} (Call.consume u c n) (fun _ => {}) := by
  refine Orderly.bind orderly_getFrame (fun a => ?_)
  cases a with
  | none => rfl
  | some f => exact Orderly.step trivial (fun _ _ => orderly_deleteFrame)

theorem orderly_render : S.Orderly t {} (Call.render c n) (fun _ => {}) := by
  refine Orderly.bind orderly_getFrame (fun a => ?_)
  cases a with
  | none => exact Orderly.step trivial (fun _ _ => orderly_deleteFrame)
  | some f =>
      refine Orderly.step trivial (fun _ _ => ?_)
      exact Orderly.step trivial (fun _ _ => orderly_deleteFrame)

theorem orderly_holder : S.Orderly t {} (Call.holder u c n) (fun _ => {}) := by
  cases u with
  | detector => exact orderly_consume
  | tracker => exact orderly_consume
  | renderer => exact orderly_render

theorem orderly_node : S.Orderly t {} (Call.node u c n) (fun _ => {}) := by
  cases u with
  | detector => exact orderly_consume
  | tracker => exact orderly_consume
  | renderer =>
      change S.Orderly t {} (Call.tbbRender c n) _
      rw [Call.tbbRender]
      split_ifs with hn
      · exact orderly_deleteFrame
      · refine Orderly.step trivial (fun isFree _ => ?_)
        cases isFree with
        | true => exact orderly_render
        | false => exact orderly_deleteFrame

variable {map : CameraId → Option TBBRouterParameters}

theorem orderly_routeKey : S.Orderly t {} (Call.routeKey map c n) (fun _ => {}) := by
  rw [Call.routeKey]
  split_ifs with hn
  · rfl
  · refine Orderly.bind orderly_getFrame (fun a => ?_)
    cases a with
    | none => rfl
    | some f =>
        cases map c with
        | none => rfl
        | some params => exact orderly_routeFrame

theorem orderly_routeKeys (keys : List Key) :
    S.Orderly t {} (Call.routeKeys map keys) (fun _ => {}) := by
  induction keys with
  | nil => rfl
  | cons k keys ih =>
      obtain ⟨c, n⟩ := k
      rw [Call.routeKeys]
      split_ifs with hc
      · rfl
      · exact Orderly.bind orderly_routeKey (fun _ => ih)

theorem orderly_routeCameras (ds : List CameraFrameData) :
    S.Orderly t {} (Call.routeCameras map ds) (fun _ => {}) := by
  induction ds with
  | nil => rfl
  | cons d ds ih =>
      rw [Call.routeCameras]
      split_ifs with hc
      · rfl
      · exact Orderly.bind (orderly_routeKeys _) (fun _ => ih)

theorem orderly_router (m : CameraFrame) :
    S.Orderly t {} (Call.router map m) (fun _ => {}) := by
  rw [Call.router]
  split_ifs with hm
  · rfl
  · exact orderly_routeCameras _

end Programs

/-! ### Who holds what -/

variable {S : Scene} {m m' : Memory Party} {t v : Party} {i : Op} {a : i.Ans} {b : Bool}
  {l l' lv : Locks} {c : CameraId} {n : SeqNo} {k : Key}

/-- Party `t` holds exactly the locks `l`. -/
structure HasLocks (m : Memory Party) (t : Party) (l : Locks) : Prop where
  camera : ∀ c, m.cameraLock c = some t ↔ l.camera = some c
  frame : ∀ k, m.frameLock k = some t ↔ l.frame = some k
  inside : ∀ k, l.frame = some k → l.camera = some k.1

/-- How the locks change when a party that held `l` holds `l'`. -/
inductive Locking (m m' : Memory Party) (t : Party) : Locks → Locks → Prop
  | same {l : Locks} (hc : m'.cameraLock = m.cameraLock) (hf : m'.frameLock = m.frameLock) :
      Locking m m' t l l
  | takeCamera {c : CameraId} (hfree : m.cameraLock c = none)
      (hc : m'.cameraLock = m.cameraLock.assign c t) (hf : m'.frameLock = m.frameLock) :
      Locking m m' t {} { camera := some c }
  | takeFrame {c : CameraId} {n : SeqNo} (hfree : m.frameLock (c, n) = none)
      (hc : m'.cameraLock = m.cameraLock) (hf : m'.frameLock = m.frameLock.assign (c, n) t) :
      Locking m m' t { camera := some c } { camera := some c, frame := some (c, n) }
  | dropFrame {c : CameraId} {n : SeqNo} (hc : m'.cameraLock = m.cameraLock)
      (hf : m'.frameLock = m.frameLock.erase (c, n)) :
      Locking m m' t { camera := some c, frame := some (c, n) } { camera := some c }
  | dropCamera {c : CameraId} (hc : m'.cameraLock = m.cameraLock.erase c)
      (hf : m'.frameLock = m.frameLock) : Locking m m' t { camera := some c } {}

theorem HasLocks.locking (ht : HasLocks m t l) (hi : i.Allowed S t l)
    (h : Memory.exec b t i m = some (a, m')) : Locking m m' t l (i.after a l) := by
  cases i
  case findCamera c =>
      cases hi
      rcases Memory.exec_findCamera h with ⟨rfl, _, rfl⟩ | ⟨rfl, _, hfree, rfl⟩
      · exact .same rfl rfl
      · exact .takeCamera hfree rfl rfl
  case dropCamera c =>
      cases hi
      obtain ⟨_, hf, _, hc⟩ := Memory.exec_dropCamera h
      rw [if_pos ((ht.camera c).mpr rfl)] at hc
      exact .dropCamera hc hf
  case findFrame c n =>
      cases hi
      rcases Memory.exec_findFrame h with ⟨rfl, _, rfl⟩ | ⟨f, rfl, _, hfree, rfl⟩
      · exact .same rfl rfl
      · exact .takeFrame hfree rfl rfl
  case dropFrame c n =>
      cases hi
      have hlock := (ht.frame (c, n)).mpr rfl
      cases h
      exact .dropFrame rfl (if_pos hlock)
  case eraseFrame c n =>
      cases hi
      cases h
      exact .dropFrame rfl rfl
  case tryPut port c n u =>
      rcases Memory.exec_tryPut h with ⟨_, rfl⟩ | ⟨_, rfl⟩ <;> exact .same rfl rfl
  case begin c n u =>
      obtain ⟨_, rfl⟩ := Memory.exec_begin h
      exact .same rfl rfl
  all_goals first
    | exact hi.elim
    | cases h
      exact .same rfl rfl

/-- What the party that calls holds afterwards. -/
theorem HasLocks.self (ht : HasLocks m t l) (h : Locking m m' t l l') : HasLocks m' t l' := by
  cases h with
  | same hc hf => exact ⟨by rw [hc]; exact ht.camera, by rw [hf]; exact ht.frame, ht.inside⟩
  | @takeCamera c hfree hc hf =>
      refine ⟨fun d => ?_, by rw [hf]; exact ht.frame, nofun⟩
      rw [hc, Table.assign_apply]
      split_ifs with hd
      · simp [hd]
      · rw [ht.camera d]
        simp [Ne.symm hd]
  | @takeFrame c n hfree hc hf =>
      refine ⟨by rw [hc]; exact ht.camera, fun k => ?_, ?_⟩
      · rw [hf, Table.assign_apply]
        split_ifs with hk
        · simp [hk]
        · rw [ht.frame k]
          simp [Ne.symm hk]
      · intro k hk
        cases hk
        rfl
  | @dropFrame c n hc hf =>
      refine ⟨by rw [hc]; exact ht.camera, fun k => ?_, nofun⟩
      rw [hf, Table.erase_apply]
      split_ifs with hk
      · simp
      · rw [ht.frame k]
        simp [Ne.symm hk]
  | @dropCamera c hc hf =>
      refine ⟨fun d => ?_, by rw [hf]; exact ht.frame, nofun⟩
      rw [hc, Table.erase_apply]
      split_ifs with hd
      · simp
      · rw [ht.camera d]
        simp [Ne.symm hd]

/-- A call leaves what the others hold. -/
theorem HasLocks.other (ht : HasLocks m t l) (hv : HasLocks m v lv) (hne : v ≠ t)
    (h : Locking m m' t l l') : HasLocks m' v lv := by
  cases h with
  | same hc hf => exact ⟨by rw [hc]; exact hv.camera, by rw [hf]; exact hv.frame, hv.inside⟩
  | @takeCamera c hfree hc hf =>
      refine ⟨fun d => ?_, by rw [hf]; exact hv.frame, hv.inside⟩
      rw [← hv.camera d, hc, Table.assign_apply]
      split_ifs with hd
      · simp [hd, hfree, Ne.symm hne]
      · rfl
  | @takeFrame c n hfree hc hf =>
      refine ⟨by rw [hc]; exact hv.camera, fun k => ?_, hv.inside⟩
      rw [← hv.frame k, hf, Table.assign_apply]
      split_ifs with hk
      · simp [hk, hfree, Ne.symm hne]
      · rfl
  | @dropFrame c n hc hf =>
      refine ⟨by rw [hc]; exact hv.camera, fun k => ?_, hv.inside⟩
      rw [← hv.frame k, hf, Table.erase_apply]
      split_ifs with hk
      · simp [hk, (ht.frame (c, n)).mpr rfl, Ne.symm hne]
      · rfl
  | @dropCamera c hc hf =>
      refine ⟨fun d => ?_, by rw [hf]; exact hv.frame, hv.inside⟩
      rw [← hv.camera d, hc, Table.erase_apply]
      split_ifs with hd
      · simp [hd, (ht.camera c).mpr rfl, Ne.symm hne]
      · rfl

/-! ### Progress -/

/-- The operation cannot proceed: the camera's entry is locked, or no message has come. -/
def Op.Waits (m : Memory Party) : Op → Prop
  | .findCamera c => (m.cameraLock c).isSome
  | .begin c n u => ((c, n), u) ∉ m.accepted
  | _ => False

/-- Whoever locks a frame holds its camera, so nobody waits for a frame. -/
theorem HasLocks.frame_free (hall : ∀ v, ∃ lv, HasLocks m v lv)
    (ht : HasLocks m t { camera := some c }) : m.frameLock (c, n) = none := by
  by_contra hlock
  obtain ⟨v, hv⟩ := Option.ne_none_iff_exists'.mp hlock
  obtain ⟨lv, hold⟩ := hall v
  have hcamera : m.cameraLock c = some v :=
    (hold.camera c).mpr (hold.inside (c, n) ((hold.frame (c, n)).mp hv))
  rw [(ht.camera c).mpr rfl] at hcamera
  cases hcamera
  cases (ht.frame (c, n)).mp hv

/-- A party can make every call it may make, unless it has to wait. -/
theorem HasLocks.proceeds (hall : ∀ v, ∃ lv, HasLocks m v lv) (ht : HasLocks m t l)
    (hi : i.Allowed S t l) (hw : ¬ i.Waits m) : ∃ a m', Memory.exec b t i m = some (a, m') := by
  cases i
  case findCamera c =>
      by_cases hc : (m.repo.cameraFrames c).isNone
      · exact ⟨false, m, if_pos hc⟩
      · exact ⟨true, _, (if_neg hc).trans (if_neg hw)⟩
  case findFrame c n =>
      cases hi
      have hfree := ht.frame_free (n := n) hall
      cases hf : m.repo.frame (c, n) with
      | none => exact ⟨none, m, by simp [Memory.exec, hf]⟩
      | some f =>
          refine ⟨some f, { m with frameLock := m.frameLock.assign (c, n) t }, ?_⟩
          simp [Memory.exec, hf, hfree]
  case begin c n u => exact ⟨(), m, if_pos (not_not.mp hw)⟩
  all_goals first
    | exact hi.elim
    | exact ⟨_, _, rfl⟩

/-- Whoever holds a lock need not wait. -/
theorem Op.Allowed.not_waits (hi : i.Allowed S t l) (hl : l ≠ {}) : ¬ i.Waits m := by
  cases i
  case findCamera c => exact (hl hi).elim
  case begin c n u => exact (hl hi.2.2).elim
  all_goals exact id

variable {p p' : Pool Party Op Op.Ans Unit (Shared Party)} {s s' : Shared Party}

/-- Every party holds what its program has come to. -/
def Scene.Tidy (S : Scene) (p : Pool Party Op Op.Ans Unit (Shared Party)) : Prop :=
  ∀ t, ∃ l, S.Orderly t l (p.threads t) (fun _ => {}) ∧ HasLocks p.state.mem t l

/-- The frames of the scene have colour data. -/
def Scene.Coloured (S : Scene) (s : Shared Party) : Prop :=
  ∀ k f, S.stored k = some f → 0 < (s.mem.repo.infos f).rgbaLen

theorem Scene.Coloured.step (h : S.Coloured s) (hf : S.Follows s t i a)
    (hc : calls t i s a s') : S.Coloured s' := by
  intro k f hk
  have hlen := h k f hk
  cases hf.change hc with
  | still hr ha => rwa [hr]
  | erased hr ha => rwa [hr, Repository.infos_eraseFrame]
  | stored hr ha =>
      rw [hr, Repository.infos_modifyInfo]
      split_ifs with hg
      · rwa [FrameInfo.rgbaLen_setFlag, ← hg]
      · exact hlen
  | accepted hr ha => rwa [hr]

theorem Scene.Inv.answers (h : S.Inv s) (hcolour : S.Coloured s) (hc : calls t i s a s') :
    i.Answers S a := by
  obtain ⟨b, he⟩ := hc.1
  cases i
  case findFrame c n =>
      rcases Memory.exec_findFrame he with ⟨rfl, _, _⟩ | ⟨f, rfl, hf, _, _⟩
      · exact nofun
      · rintro g ⟨⟩
        exact h.stored (c, n) f hf
  case rgbaLen f =>
      obtain ⟨rfl, _⟩ := Memory.exec_rgbaLen he
      exact fun k hk => hcolour k f hk
  case stereoFind x =>
      obtain ⟨rfl, _⟩ := Memory.exec_stereoFind he
      rw [Op.Answers, h.single]
      rfl
  all_goals exact trivial

theorem Scene.Tidy.step (h : S.Tidy p) (hi : S.Inv p.state) (hcolour : S.Coloured p.state)
    (hs : Pool.Step calls p p') : S.Tidy p' := by
  cases hs with
  | @call t i g a s' hcall hc =>
      obtain ⟨l, ho, ht⟩ := h t
      rw [hcall] at ho
      obtain ⟨b, he⟩ := hc.1
      have hlocking := ht.locking ho.1 he
      intro v
      by_cases hv : v = t
      · subst hv
        refine ⟨i.after a l, ?_, ht.self hlocking⟩
        simpa using ho.2 a (hi.answers hcolour hc)
      · obtain ⟨lv, hov, hold⟩ := h v
        refine ⟨lv, ?_, ht.other hold hv hlocking⟩
        simpa [Function.update_of_ne hv] using hov

theorem step_of_exec {g : i.Ans → Call Unit} (ht : p.threads t = .call i g)
    (h : ∃ a m', Memory.exec b t i p.state.mem = some (a, m')) :
    ∃ p', Pool.Step calls p p' := by
  obtain ⟨a, m', he⟩ := h
  have hc : calls t i p.state a ⟨m', ⟨t, i, a⟩ :: p.state.hist⟩ := ⟨⟨b, he⟩, rfl⟩
  exact ⟨_, Pool.Step.call ht hc⟩

namespace Scene.Tidy

theorem hasLocks (h : S.Tidy p) (t : Party) : ∃ l, HasLocks p.state.mem t l :=
  (h t).imp (fun _ ht => ht.2)

/-- Whoever holds the entry of a camera can move. -/
theorem holder_moves (h : S.Tidy p) (hv : p.state.mem.cameraLock c = some v) :
    ∃ p', Pool.Step calls p p' := by
  obtain ⟨lv, ho, hold⟩ := h v
  have hlv : lv ≠ {} := by
    rintro rfl
    cases (hold.camera c).mp hv
  cases hcall : p.threads v with
  | pure a =>
      rw [hcall] at ho
      exact (hlv ho.symm).elim
  | call j g =>
      rw [hcall] at ho
      have hproceeds := hold.proceeds (b := true) h.hasLocks ho.1 (ho.1.not_waits hlv)
      exact step_of_exec hcall hproceeds

/-- A party that has not finished moves, or waits for one that moves, or for its message. -/
theorem progress (h : S.Tidy p) (ht : p.threads t ≠ .pure ())
    (hstarted : ∀ k u, t = .consumer k u → S.routed → (k, u) ∈ p.state.mem.accepted) :
    ∃ p', Pool.Step calls p p' := by
  cases hcall : p.threads t with
  | pure a => exact (ht hcall).elim
  | call i g =>
      obtain ⟨l, ho, hold⟩ := h t
      rw [hcall] at ho
      by_cases hw : i.Waits p.state.mem
      · cases i
        case findCamera c =>
            obtain ⟨v, hv⟩ := Option.isSome_iff_exists.mp hw
            exact h.holder_moves hv
        case begin c n u =>
            obtain ⟨hr, rfl, _⟩ := ho.1
            exact (hw (hstarted (c, n) u rfl hr)).elim
        all_goals exact hw.elim
      · exact step_of_exec hcall (hold.proceeds (b := true) h.hasLocks ho.1 hw)

theorem reach (h : S.Tidy p)
    (hinv : ∀ q, Pool.Reach calls p q → S.Inv q.state ∧ S.Coloured q.state)
    (hp : Pool.Reach calls p p') : S.Tidy p' := by
  induction hp with
  | refl => exact h
  | tail hreach hs ih => exact ih.step (hinv _ hreach).1 (hinv _ hreach).2 hs

end Scene.Tidy

variable {T : Traffic} {r : Repository} {holds : Key → Consumer → Bool}

theorem HasLocks.initial : HasLocks { repo := r } t {} := by
  refine ⟨fun c => ?_, fun k => ?_, nofun⟩
  · simp
  · simp

theorem Traffic.tidy (hr : r.stereoFrames = Table.empty)
    (hcolour : ∀ k f, r.frame k = some f → 0 < (r.infos f).rgbaLen)
    (hp : Pool.Reach calls (T.pool r) p) : (Scene.ofTraffic r).Tidy p := by
  refine Scene.Tidy.reach (p := T.pool r) ?_ ?_ hp
  · intro t
    refine ⟨{}, ?_, .initial⟩
    cases t with
    | router i => exact orderly_router (T.message i)
    | consumer k u => exact Scene.Orderly.step ⟨trivial, rfl, rfl⟩ (fun _ _ => orderly_node)
  · intro q hq
    have hq' := (Pool.reach_restrict_true calls).mpr hq
    refine Traffic.invariant (I := fun s => _ ∧ _) hr ⟨.ofTraffic hr, hcolour⟩ ?_ hq'
    intro t i a s s' hi hf hc _ h
    exact ⟨hi.step hf hc, h.2.step hf hc⟩

/-- Where nobody can move, everybody is through. -/
theorem Traffic.quiescent_of_stuck (hr : r.stereoFrames = Table.empty)
    (hcolour : ∀ k f, r.frame k = some f → 0 < (r.infos f).rgbaLen)
    (hp : Pool.Reach calls (T.pool r) p) (hstuck : ∀ p', ¬ Pool.Step calls p p') :
    Quiescent T p := by
  have htidy : (Scene.ofTraffic r).Tidy p := Traffic.tidy hr hcolour hp
  refine ⟨fun i => Or.inl ?_, fun k u ha => ?_⟩
  · by_contra hi
    obtain ⟨p', hs⟩ := htidy.progress hi (fun _ _ h => by cases h)
    exact hstuck p' hs
  · by_contra hu
    have hstarted : ∀ j v, Party.consumer k u = .consumer j v → (Scene.ofTraffic r).routed →
        (j, v) ∈ p.state.mem.accepted := by
      rintro j v ⟨⟩ _
      exact ha
    obtain ⟨p', hs⟩ := htidy.progress hu hstarted
    exact hstuck p' hs

theorem holders_tidy (hr : r.stereoFrames = Table.empty)
    (hcolour : ∀ k f, r.frame k = some f → 0 < (r.infos f).rgbaLen)
    (hp : Pool.Reach calls (holders r holds) p) : (Scene.ofHolders r holds).Tidy p := by
  refine Scene.Tidy.reach (p := holders r holds) ?_ ?_ hp
  · intro t
    refine ⟨{}, ?_, .initial⟩
    cases t with
    | router i => rfl
    | consumer k u =>
        simp only [holders]
        split_ifs with hk
        · exact orderly_holder
        · rfl
  · intro q hq
    refine holders_invariant (I := fun s => _ ∧ _) hr ⟨.ofHolders hr, hcolour⟩ ?_ hq
    intro t i a s s' hi hf hc h
    exact ⟨hi.step hf hc, h.2.step hf hc⟩

/-- As long as somebody has not finished, somebody can move. -/
theorem holders_progress (hr : r.stereoFrames = Table.empty)
    (hcolour : ∀ k f, r.frame k = some f → 0 < (r.infos f).rgbaLen)
    (hp : Pool.Reach calls (holders r holds) p) (ht : p.threads t ≠ .pure ()) :
    ∃ p', Pool.Step calls p p' :=
  (holders_tidy hr hcolour hp).progress ht (fun _ _ _ h => h.elim)

end ARArch

import ARArch.Consumers

/-!
# What routers and consumers may do to a frame

The steps of routers and nodes follow a protocol: nobody reads the claims of a frame but for
deleting it and under the camera's lock, a node does so only after it has let its own claim go, a
frame is erased only by a party that has read all its claims as cleared, and only routers set
claims, for frames that a port has accepted. `Scene.follows` derives this from the programs once,
for all interleavings, so that what is said about flags and frames elsewhere is said about steps
that follow the protocol.

A scene tells the frames that were stored when it began, when a node has been started on a frame,
and whether there are routers.
-/

namespace ARArch

open Atomic

structure Scene where
  stored : Key → Option FrameRef
  started : Key → Consumer → Shared Party → Prop
  routed : Prop
  started_mono : ∀ {k u s s'}, (∀ x ∈ s.mem.accepted, x ∈ s'.mem.accepted) → started k u s →
    started k u s'
  started_of_accepted : ∀ {k u s}, routed → (k, u) ∈ s.mem.accepted → started k u s

/-- The frames of a repository, routed to nodes that start on accepted messages. -/
def Scene.ofTraffic (r : Repository) : Scene where
  stored := r.frame
  started := fun k u s => (k, u) ∈ s.mem.accepted
  routed := True
  started_mono := fun h hs => h _ hs
  started_of_accepted := fun _ h => h

/-- The frames of a repository, claimed by holders that let them go. -/
def Scene.ofHolders (r : Repository) (holds : Key → Consumer → Bool) : Scene where
  stored := r.frame
  started := fun k u _ => holds k u = true
  routed := False
  started_mono := fun _ hs => hs
  started_of_accepted := False.elim

/-- A party that may be moving. -/
def Scene.AtWork (S : Scene) : Party → Shared Party → Prop
  | .router _, _ => S.routed
  | .consumer k u, s => S.started k u s

/-- The consumer has let its claim go: its flag is cleared, or its node has given up, because
another rendering was in progress. -/
def Released (s : Shared Party) (k : Key) (u : Consumer) : Prop :=
  (∃ f, Did s (.consumer k u) (.store f u false) ()) ∨
    Did s (.consumer k u) .exchangeRendering false

/-- The party found a claim on the frame it was to delete. -/
def Refused (s : Shared Party) (t : Party) : Prop := ∃ f v, Did s t (.load f v) true

/-- A node may ask for deletion only after it has released its claim. -/
def MayDelete : Party → Shared Party → Prop
  | .router _, _ => True
  | .consumer k u, s => Released s k u

/-- A node is concerned with its own frame. -/
def Concerns : Party → Key → Prop
  | .router _, _ => True
  | .consumer k _, j => j = k

def Locked (t : Party) (c : CameraId) (s : Shared Party) : Prop := s.mem.cameraLock c = some t

/-- The party holds the entry of the camera and has found the frame there. -/
structure Holding (t : Party) (k : Key) (f : FrameRef) (s : Shared Party) : Prop where
  locked : Locked t k.1 s
  frame : s.mem.repo.frame k = some f

/-- The operations that leave frames, claims and ports alone. -/
def Op.looks : Op → Bool
  | .findCamera _ | .dropCamera _ | .findFrame _ _ | .dropFrame _ _ | .rgbaLen _ | .seqno _
  | .stereoFind _ | .busy _ _ | .resetRendering => true
  | _ => false

inductive Scene.Follows (S : Scene) (s : Shared Party) : Party → (i : Op) → i.Ans → Prop
  | look {t : Party} {i : Op} {a : i.Ans} (hi : i.looks = true) (ht : S.AtWork t s) :
      Follows S s t i a
  | load {t : Party} {k : Key} {f : FrameRef} {v : Consumer} {b : Bool} (ht : S.AtWork t s)
      (hk : Concerns t k) (hh : Holding t k f s) (hm : MayDelete t s) :
      Follows S s t (.load f v) b
  | erase {t : Party} {c : CameraId} {n : SeqNo} {f : FrameRef} (ht : S.AtWork t s)
      (hh : Holding t (c, n) f s) (hl : ∀ v, Did s t (.load f v) false) :
      Follows S s t (.eraseFrame c n) ()
  | claim {i : ℕ} {k : Key} {f : FrameRef} {u : Consumer} (hr : S.routed)
      (hk : S.stored k = some f) (ha : (k, u) ∈ s.mem.accepted) :
      Follows S s (.router i) (.store f u true) ()
  | release {k : Key} {u : Consumer} {f : FrameRef} (hs : S.started k u s)
      (hk : S.stored k = some f) (hd : Did s (.consumer k u) (.findFrame k.1 k.2) (some f)) :
      Follows S s (.consumer k u) (.store f u false) ()
  | offer {i port : ℕ} {c : CameraId} {n : SeqNo} {u : Consumer} {b : Bool} (hr : S.routed)
      (hk : (S.stored (c, n)).isSome) (hn : n ≠ 0) :
      Follows S s (.router i) (.tryPut port c n u) b
  | begin {k : Key} {u : Consumer} : Follows S s (.consumer k u) (.begin k.1 k.2 u) ()
  | exchange {k : Key} {b : Bool} (hr : S.routed) (hs : S.started k .renderer s) :
      Follows S s (.consumer k .renderer) .exchangeRendering b

/-- The frames stored are those of the scene, there are no stereo pairs, and ports have accepted
numbers from 1 on. -/
structure Scene.Inv (S : Scene) (s : Shared Party) : Prop where
  stored : ∀ k f, s.mem.repo.frame k = some f → S.stored k = some f
  single : s.mem.repo.stereoFrames = Table.empty
  numbered : ∀ x ∈ s.mem.accepted, x.1.2 ≠ 0

/-- What a step of `t` leaves to the others. -/
structure Cleans (t : Party) (s s' : Shared Party) : Prop where
  history : ∀ e ∈ s.hist, e ∈ s'.hist
  accepted : ∀ x ∈ s.mem.accepted, x ∈ s'.mem.accepted
  frames : ∀ k f, s'.mem.repo.frame k = some f → s.mem.repo.frame k = some f
  kept : ∀ k f, s.mem.repo.frame k = some f → s'.mem.repo.frame k = some f ∨ Locked t k.1 s
  locks : ∀ c u, u ≠ t → Locked u c s → Locked u c s'

variable {S : Scene} {s s' : Shared Party} {t : Party} {i : Op} {a : i.Ans} {b : Bool}
  {k : Key} {f : FrameRef} {u : Consumer} {c : CameraId} {n : SeqNo}

theorem Memory.exec_looks {m m' : Memory Party} (hi : i.looks = true)
    (h : Memory.exec b t i m = some (a, m')) : m'.repo = m.repo ∧ m'.accepted = m.accepted := by
  cases i <;> simp only [Op.looks, Bool.false_eq_true] at hi
  case findCamera c =>
      rcases exec_findCamera h with ⟨_, _, hm⟩ | ⟨_, _, _, hm⟩ <;> exact hm ▸ ⟨rfl, rfl⟩
  case findFrame c n =>
      rcases exec_findFrame h with ⟨_, _, hm⟩ | ⟨f, _, _, _, hm⟩ <;> exact hm ▸ ⟨rfl, rfl⟩
  all_goals
    cases h
    exact ⟨rfl, rfl⟩

/-- A step of `t` keeps the camera locks of the others. -/
theorem Memory.exec_locks {m m' : Memory Party} (h : Memory.exec b t i m = some (a, m'))
    {v : Party} (hv : v ≠ t) (hl : m.cameraLock c = some v) : m'.cameraLock c = some v := by
  cases i
  case findCamera d =>
      rcases exec_findCamera h with ⟨_, _, hm⟩ | ⟨_, _, hfree, hm⟩
      · rwa [hm]
      · have hcd : c ≠ d := by
          rintro rfl
          rw [hfree] at hl
          cases hl
        rw [hm]
        simpa [hcd] using hl
  case dropCamera d =>
      obtain ⟨_, _, _, hm⟩ := exec_dropCamera h
      rw [hm]
      split_ifs with hd
      · have hcd : c ≠ d := by
          rintro rfl
          rw [hd] at hl
          exact hv (Option.some.inj hl).symm
        simpa [Table.erase_apply, hcd] using hl
      · exact hl
  case findFrame d n =>
      rcases exec_findFrame h with ⟨_, _, hm⟩ | ⟨f, _, _, _, hm⟩ <;> rwa [hm]
  case peekCamera d =>
      simp only [exec] at h
      split_ifs at h
      cases h
      exact hl
  case counterFetchAdd d => rwa [(exec_counterFetchAdd h).2]
  case insertFrame p n f => cases p <;> cases h <;> exact hl
  case tryPut port d n w => rcases exec_tryPut h with ⟨_, hm⟩ | ⟨_, hm⟩ <;> rwa [hm]
  case begin d n w => rwa [(exec_begin h).2]
  all_goals
    cases h
    exact hl

/-! ### Steps that follow the protocol -/

/-- What a step that follows the protocol changes, besides locks and `is_rendering`. -/
inductive Memory.Change (m m' : Memory Party) : Op → Prop
  | still {i : Op} (hr : m'.repo = m.repo) (ha : m'.accepted = m.accepted) : Change m m' i
  | erased {c : CameraId} {n : SeqNo} (hr : m'.repo = m.repo.eraseFrame (c, n))
      (ha : m'.accepted = m.accepted) : Change m m' (.eraseFrame c n)
  | stored {f : FrameRef} {u : Consumer} {b : Bool}
      (hr : m'.repo = m.repo.modifyInfo f (·.setFlag u b)) (ha : m'.accepted = m.accepted) :
      Change m m' (.store f u b)
  | accepted {port : ℕ} {c : CameraId} {n : SeqNo} {u : Consumer} (hr : m'.repo = m.repo)
      (ha : m'.accepted = ((c, n), u) :: m.accepted) : Change m m' (.tryPut port c n u)

theorem Scene.Follows.change (hf : S.Follows s t i a) (hc : calls t i s a s') :
    Memory.Change s.mem s'.mem i := by
  obtain ⟨b, he⟩ := hc.1
  cases hf with
  | look hi ht =>
      obtain ⟨hr, ha⟩ := Memory.exec_looks hi he
      exact .still hr ha
  | load ht hk hh hm =>
      rw [(Memory.exec_load he).2]
      exact .still rfl rfl
  | erase ht hh hl =>
      obtain ⟨hr, _, ha⟩ := Memory.exec_eraseFrame he
      exact .erased hr ha
  | claim hr hk ha =>
      rw [Memory.exec_store he]
      exact .stored rfl rfl
  | release hs hk hd =>
      rw [Memory.exec_store he]
      exact .stored rfl rfl
  | offer hr hk hn =>
      rcases Memory.exec_tryPut he with ⟨_, hm⟩ | ⟨_, hm⟩
      · rw [hm]
        exact .still rfl rfl
      · rw [hm]
        exact .accepted rfl rfl
  | begin =>
      rw [(Memory.exec_begin he).2]
      exact .still rfl rfl
  | exchange hr hs =>
      obtain ⟨_, hm⟩ := Memory.exec_exchangeRendering he
      rw [hm]
      exact .still rfl rfl

/-- Frames leave the store by erasure only, and none enters it. -/
theorem Memory.Change.frame {m m' : Memory Party} (h : Memory.Change m m' i) (k : Key) :
    m'.repo.frame k = m.repo.frame k ∨ (i = .eraseFrame k.1 k.2 ∧ m'.repo.frame k = none) := by
  cases h with
  | still hr ha => exact Or.inl (by rw [hr])
  | @erased c n hr ha =>
      rw [hr, Repository.frame_eraseFrame]
      split_ifs with hk
      · exact Or.inr ⟨by rw [hk], rfl⟩
      · exact Or.inl rfl
  | stored hr ha => exact Or.inl (by rw [hr, Repository.frame_modifyInfo])
  | accepted hr ha => exact Or.inl (by rw [hr])

/-- Claims are set and cleared only by storing them. -/
theorem Memory.Change.flag {m m' : Memory Party} (h : Memory.Change m m' i)
    (hf : (m'.repo.infos f).flag u = b) :
    (m.repo.infos f).flag u = b ∨ i = .store f u b := by
  cases h with
  | still hr ha => exact Or.inl (by rwa [hr] at hf)
  | erased hr ha => exact Or.inl (by rwa [hr, Repository.infos_eraseFrame] at hf)
  | @stored g v b' hr ha =>
      rw [hr, Repository.infos_modifyInfo] at hf
      split_ifs at hf with hg
      · subst hg
        rw [FrameInfo.flag_setFlag] at hf
        split_ifs at hf with hv
        · subst hv
          subst hf
          exact Or.inr rfl
        · exact Or.inl hf
      · exact Or.inl hf
  | accepted hr ha => exact Or.inl (by rwa [hr] at hf)

theorem Memory.Change.accepted_mono {m m' : Memory Party} (h : Memory.Change m m' i) :
    ∀ x ∈ m.accepted, x ∈ m'.accepted := by
  intro x hx
  cases h with
  | still hr ha => rwa [ha]
  | erased hr ha => rwa [ha]
  | stored hr ha => rwa [ha]
  | accepted hr ha =>
      rw [ha]
      exact List.mem_cons_of_mem _ hx

theorem Scene.Follows.cleans (hf : S.Follows s t i a) (hc : calls t i s a s') :
    Cleans t s s' := by
  have hchange := hf.change hc
  obtain ⟨b, he⟩ := hc.1
  refine ⟨?_, hchange.accepted_mono, ?_, ?_, ?_⟩
  · intro e hmem
    rw [hc.2]
    exact List.mem_cons_of_mem _ hmem
  · intro k f hk
    rcases hchange.frame k with h | ⟨_, h⟩
    · rwa [← h]
    · rw [h] at hk
      cases hk
  · intro k f hk
    rcases hchange.frame k with h | ⟨hi, _⟩
    · exact Or.inl (by rw [h, hk])
    · subst hi
      cases hf with
      | look hi ht => cases hi
      | erase ht hh hl => exact Or.inr hh.locked
  · intro c u hu hl
    exact Memory.exec_locks he hu hl

theorem Scene.Inv.step (h : S.Inv s) (hf : S.Follows s t i a) (hc : calls t i s a s') :
    S.Inv s' := by
  refine ⟨fun k f hk => h.stored k f ((hf.cleans hc).frames k f hk), ?_, ?_⟩
  · have hsingle := h.single
    cases hf.change hc with
    | still hr ha => rwa [hr]
    | erased hr ha => rwa [hr]
    | stored hr ha => rwa [hr]
    | accepted hr ha => rwa [hr]
  · have hnumbered := h.numbered
    cases hf.change hc with
    | still hr ha => rwa [ha]
    | erased hr ha => rwa [ha]
    | stored hr ha => rwa [ha]
    | accepted hr ha =>
        rw [ha]
        cases hf with
        | look hi ht => cases hi
        | offer _ hk hn => exact List.forall_mem_cons.mpr ⟨hn, hnumbered⟩

end ARArch

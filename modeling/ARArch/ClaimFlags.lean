import ARArch.Following

/-!
# Claims on frames

A claim flag keeps its frame in the store until the consumer releases it, and the consumers of a
frame that are not through with it see to its deletion. Of the nodes that have asked for the
deletion, each but the last found a claim of one that had not; hence a frame that nobody deletes
is awaited by some node, and where no node is at work no accepted frame is left.

This rests on the claims being set in time. The router sets a flag only after the port has
accepted, when the node may be through already: such a flag is never cleared again. The same
holds for the flag of a node that gives up.
-/

namespace ARArch

open Atomic

/-- The claims on the frames in the store. -/
structure Claims (S : Scene) (s : Shared Party) : Prop where
  /-- A claim is that of a consumer which has not released it. -/
  owned : ∀ k f u, s.mem.repo.frame k = some f → (s.mem.repo.infos f).flag u = true →
    S.started k u s ∧ ¬ Released s k u
  /-- Some consumer of the frame has not been refused its deletion. -/
  awaited : ∀ k f u, s.mem.repo.frame k = some f → S.started k u s →
    ∃ v, S.started k v s ∧ ¬ Refused s (.consumer k v)
  ordered : ∀ k u, Refused s (.consumer k u) → S.started k u s ∧ Released s k u

/-- Claims in time: no claim is set on a frame in the store when its consumer has released it,
and no render node gives up a frame in the store while the claim is set. -/
def ClaimsInTime : Condition
  | _, .store f u true, s, _ => ∀ k, s.mem.repo.frame k = some f → ¬ Released s k u
  | .consumer k _, .exchangeRendering, s, _ => s.mem.isRendering = true →
    ∀ f, s.mem.repo.frame k = some f → (s.mem.repo.infos f).isRendering = false
  | _, _, _, _ => True

variable {S : Scene} {s s' : Shared Party} {t : Party} {i : Op} {a : i.Ans} {k : Key}
  {f : FrameRef} {u v : Consumer}

theorem Refused.of_step (hc : calls t i s a s') {t' : Party} (h : Refused s' t') :
    Refused s t' ∨ ∃ f v, (⟨t', .load f v, true⟩ : Event Party Op Op.Ans) = ⟨t, i, a⟩ := by
  obtain ⟨f, v, hd⟩ := h
  rcases Did.cases hc hd with he | hd
  · exact Or.inr ⟨f, v, he⟩
  · exact Or.inl ⟨f, v, hd⟩

theorem Released.of_step (hc : calls t i s a s') (h : Released s' k u) :
    Released s k u ∨
      (∃ f, (⟨.consumer k u, .store f u false, ()⟩ : Event Party Op Op.Ans) = ⟨t, i, a⟩) ∨
      (⟨.consumer k u, .exchangeRendering, false⟩ : Event Party Op Op.Ans) = ⟨t, i, a⟩ := by
  rcases h with ⟨f, hd⟩ | hd
  · rcases Did.cases hc hd with he | hd
    · exact Or.inr (Or.inl ⟨f, he⟩)
    · exact Or.inl (Or.inl ⟨f, hd⟩)
  · rcases Did.cases hc hd with he | hd
    · exact Or.inr (Or.inr he)
    · exact Or.inl (Or.inr hd)

/-- A party reads the claims of its own frame while it is in the store, after its release. -/
theorem Scene.Follows.load_inv (hf : S.Follows s t (.load f v) true) :
    S.AtWork t s ∧ MayDelete t s ∧ ∃ k, Concerns t k ∧ s.mem.repo.frame k = some f := by
  cases hf with
  | look hi ht => cases hi
  | load ht hk hh hm => exact ⟨ht, hm, _, hk, hh.frame⟩

theorem Scene.Follows.release_inv (hf : S.Follows s (.consumer k u) (.store f v false) ()) :
    S.stored k = some f ∧ Did s (.consumer k u) (.findFrame k.1 k.2) (some f) := by
  cases hf with
  | look hi ht => cases hi
  | release hs hk hd => exact ⟨hk, hd⟩

theorem Scene.Follows.claim_inv (hf : S.Follows s t (.store f u true) ()) :
    S.routed ∧ ∃ k, S.stored k = some f ∧ (k, u) ∈ s.mem.accepted := by
  cases hf with
  | look hi ht => cases hi
  | claim hr hk ha => exact ⟨hr, _, hk, ha⟩

theorem Scene.Follows.exchange_inv
    (hf : S.Follows s (.consumer k u) .exchangeRendering false) : S.routed ∧ u = .renderer := by
  cases hf with
  | look hi ht => cases hi
  | exchange hr hs => exact ⟨hr, rfl⟩

/-- Where nobody routes, claims are not set at all. -/
theorem Scene.Follows.claimsInTime (hf : S.Follows s t i a) (hr : ¬ S.routed) :
    ClaimsInTime t i s a := by
  cases hf with
  | look hi ht => cases i <;> trivial
  | claim hr' hk ha => exact (hr hr').elim
  | exchange hr' hs => exact (hr hr').elim
  | _ => trivial

namespace Claims

/-- A claim found on a frame was owned before the step, or is being set now. -/
theorem owned_before (h : Claims S s)
    (hinj : ∀ j k f, S.stored j = some f → S.stored k = some f → j = k) (hi : S.Inv s)
    (hf : S.Follows s t i a) (hc : calls t i s a s') (hok : ClaimsInTime t i s a)
    (hk : s.mem.repo.frame k = some f)
    (hflag : (s'.mem.repo.infos f).flag u = true) :
    S.started k u s ∧ ¬ Released s k u := by
  rcases (hf.change hc).flag hflag with hold | rfl
  · exact h.owned k f u hk hold
  · obtain ⟨hr, j, hj, ha⟩ := hf.claim_inv
    have hjk := hinj j k f hj (hi.stored k f hk)
    subst hjk
    exact ⟨S.started_of_accepted hr ha, hok j hk⟩

/-- A release clears the claim. -/
theorem released_flag (hc : calls t (.store f u false) s () s') :
    (s'.mem.repo.infos f).flag u = false := by
  obtain ⟨b, he⟩ := hc.1
  rw [Memory.exec_store he]
  simp [Memory.withRepo]

/-- The claim that refuses the deletion is that of another consumer, which has not been refused. -/
theorem awaited_other (h : Claims S s)
    (hf : S.Follows s (.consumer k u) (.load f v) true)
    (hc : calls (.consumer k u) (.load f v) s true s') :
    S.started k v s ∧ ¬ Refused s' (.consumer k v) := by
  obtain ⟨hu, hrel, j, hj, hk⟩ := hf.load_inv
  have hjk : j = k := hj
  subst hjk
  obtain ⟨b, he⟩ := hc.1
  have hflag : (s.mem.repo.infos f).flag v = true := (Memory.exec_load he).1.symm
  obtain ⟨hv, hnot⟩ := h.owned j f v hk hflag
  refine ⟨hv, ?_⟩
  intro href
  rcases Refused.of_step hc href with hold | ⟨f', v', he⟩
  · exact hnot (h.ordered j v hold).2
  · have huv : v = u := by injection congrArg Event.thread he
    rw [huv] at hnot
    exact hnot hrel

theorem step (h : Claims S s)
    (hinj : ∀ j k f, S.stored j = some f → S.stored k = some f → j = k) (hi : S.Inv s)
    (hf : S.Follows s t i a) (hc : calls t i s a s') (hok : ClaimsInTime t i s a) :
    Claims S s' := by
  have hclean := hf.cleans hc
  refine ⟨?_, ?_, ?_⟩
  · intro k f u hk hflag
    have hk₀ := hclean.frames k f hk
    obtain ⟨hs, hnot⟩ := h.owned_before hinj hi hf hc hok hk₀ hflag
    refine ⟨S.started_mono hclean.accepted hs, ?_⟩
    intro hrel
    rcases hrel.of_step hc with hold | ⟨g, he⟩ | he
    · exact hnot hold
    · cases he
      obtain ⟨hg, _⟩ := hf.release_inv
      have hgf : f = g := Option.some.inj ((hi.stored k f hk₀).symm.trans hg)
      rw [hgf, released_flag hc] at hflag
      cases hflag
    · cases he
      obtain ⟨_, rfl⟩ := hf.exchange_inv
      obtain ⟨b, he⟩ := hc.1
      obtain ⟨hfree, hm⟩ := Memory.exec_exchangeRendering he
      have hnone := hok (by simpa using hfree) f hk₀
      rw [hm] at hflag
      simp [FrameInfo.flag, hnone] at hflag
  · intro k f u hk hs
    have hk₀ := hclean.frames k f hk
    by_cases hu : S.started k u s
    · obtain ⟨v, hv, hnot⟩ := h.awaited k f u hk₀ hu
      by_cases href : Refused s' (.consumer k v)
      · rcases href.of_step hc with hold | ⟨g, w, he⟩
        · exact (hnot hold).elim
        · cases he
          obtain ⟨hw, hnot'⟩ := h.awaited_other hf hc
          exact ⟨w, S.started_mono hclean.accepted hw, hnot'⟩
      · exact ⟨v, S.started_mono hclean.accepted hv, href⟩
    · refine ⟨u, hs, ?_⟩
      intro href
      rcases href.of_step hc with hold | ⟨g, w, he⟩
      · exact hu (h.ordered k u hold).1
      · cases he
        exact hu hf.load_inv.1
  · intro k u href
    rcases href.of_step hc with hold | ⟨g, w, he⟩
    · obtain ⟨hs, hrel⟩ := h.ordered k u hold
      exact ⟨S.started_mono hclean.accepted hs, Lasting.released k u t s s' hclean hrel⟩
    · cases he
      obtain ⟨hs, hrel, _⟩ := hf.load_inv
      exact ⟨S.started_mono hclean.accepted hs, Lasting.released k u _ s s' hclean hrel⟩

/-- A frame whose consumers have all finished is not in the store. -/
theorem gone (h : Claims S s) (hu : S.started k u s)
    (hfinished : ∀ v, S.started k v s → Gone k s ∨ Refused s (.consumer k v)) : Gone k s := by
  by_contra hn
  obtain ⟨f, hf⟩ := Option.ne_none_iff_exists'.mp hn
  obtain ⟨v, hv, hnot⟩ := h.awaited k f u hf hu
  exact (hfinished v hv).elim hn hnot

end Claims

section Leaks

variable {T : Traffic} {r : Repository} {p : Pool Party Op Op.Ans Unit (Shared Party)}

/-- No frame is stored under two keys. -/
def Repository.Distinct (r : Repository) : Prop :=
  ∀ j k f, r.frame j = some f → r.frame k = some f → j = k

theorem Claims.initial (hclear : ∀ k f, r.frame k = some f → (r.infos f).unclaimed = true) :
    Claims (.ofTraffic r) ⟨{ repo := r }, []⟩ := by
  refine ⟨?_, fun _ _ _ _ h => (List.not_mem_nil h).elim, ?_⟩
  · intro k f u hk hflag
    rw [(FrameInfo.unclaimed_iff _).mp (hclear k f hk) u] at hflag
    cases hflag
  · rintro k u ⟨f, v, hd⟩
    exact (List.not_mem_nil hd).elim

/-- In every interleaving of routers and nodes that sets its claims in time, where everybody is
through, no frame that a port has accepted is left in the store. -/
theorem no_frame_leaks (hsingle : r.stereoFrames = Table.empty) (hdistinct : r.Distinct)
    (hclear : ∀ k f, r.frame k = some f → (r.infos f).unclaimed = true)
    (hp : Pool.Reach (calls.restrict ClaimsInTime) (T.pool r) p) (hq : Quiescent T p)
    (ha : (k, u) ∈ p.state.mem.accepted) : p.state.mem.repo.frame k = none := by
  have hclaims : Claims (.ofTraffic r) p.state := by
    refine Traffic.invariant hsingle (Claims.initial hclear) ?_ hp
    intro t i a s s' hi hf hc hok h
    exact h.step hdistinct hi hf hc hok
  refine hclaims.gone ha (fun v hv => ?_)
  exact Traffic.finished hsingle hp (hq.nodes k v hv)

/-- Camera 0 with frame 1, which has colour data. -/
def oneFrame : Repository where
  cameras := [0]
  cameraFrames := Table.empty.assign 0 (Table.empty.assign 1 0)
  infos := fun _ => { seqno := 1, rgbaLen := 4 }

/-- The only message names that frame. -/
def oneMessage (i : ℕ) : CameraFrame := if i = 0 then CameraFrame.mono 0 1 else {}

theorem oneMessage_nodup (i : ℕ) : (oneMessage i).keys.Nodup := by
  rw [oneMessage]
  split_ifs <;> decide

theorem oneMessage_once (i j : ℕ) (k : Key) (hi : k ∈ (oneMessage i).keys)
    (hj : k ∈ (oneMessage j).keys) : i = j := by
  have hkeys : CameraFrame.keys {} = [] := by decide
  rw [oneMessage] at hi hj
  split_ifs at hi hj with hi₀ hj₀
  · rw [hi₀, hj₀]
  all_goals
    rw [hkeys] at *
    contradiction

/-- That message, and the consumers that there are. -/
def oneRoute (detector renderer : Bool) : Traffic where
  map := fun _ => some
    { portStart := 0, detector := detector, tracker := false, renderer := renderer
      isDelete := false }
  message := oneMessage
  nodup := oneMessage_nodup
  once := oneMessage_once

theorem eq_of_oneFrame {k : Key} {f : FrameRef} (h : oneFrame.frame k = some f) :
    k = (0, 1) := by
  obtain ⟨c, n⟩ := k
  by_cases hc : c = 0
  · subst hc
    by_cases hn : n = 1
    · rw [hn]
    · simp [Repository.frame, oneFrame, hn] at h
  · simp [Repository.frame, oneFrame, hc] at h

theorem oneFrame_distinct : oneFrame.Distinct := by
  intro j k f hj hk
  rw [eq_of_oneFrame hj, eq_of_oneFrame hk]

/-- A schedule that runs the first router and the nodes of all accepted messages to their end
leaves nobody at work. -/
theorem quiescent_of_replay {b : Bool × Bool}
    {check : Party → (i : Op) → Shared Party → i.Ans → Bool} {sched : List (Party × Bool)}
    (hsched : ∀ i, .router i ∈ sched.map Prod.fst → i = 0)
    (hrun : Pool.replay Memory.exec check sched ((oneRoute b.1 b.2).pool r) = some p)
    (hrouter : (p.threads (.router 0)).result = some ())
    (hnodes : ∀ x ∈ p.state.mem.accepted, (p.threads (.consumer x.1 x.2)).result = some ()) :
    Quiescent (oneRoute b.1 b.2) p := by
  refine ⟨?_, fun k u ha => Prog.eq_pure_of_result (hnodes (k, u) ha)⟩
  intro i
  by_cases hi : i = 0
  · subst hi
    exact Or.inl (Prog.eq_pure_of_result hrouter)
  · right
    rw [Pool.replay_threads_of_notMem sched (fun hmem => hi (hsched i hmem)) _ _ hrun]
    rfl

/-- The steps of a run in which no flag is set late and no node gives up. -/
def claimsInTime (_ : Party) (i : Op) (s : Shared Party) (_ : i.Ans) : Bool :=
  match i with
  | .store _ _ true => s.hist.all fun e =>
    match e.op with
    | .store _ _ false | .exchangeRendering => false
    | _ => true
  | .exchangeRendering => !s.mem.isRendering
  | _ => true

theorem claimsInTime_sound (t : Party) (i : Op) (s : Shared Party) (a : i.Ans)
    (h : claimsInTime t i s a = true) : ClaimsInTime t i s a := by
  cases i with
  | store f u b =>
      cases b with
      | true =>
          rintro k _ (⟨g, hd⟩ | hd) <;> cases List.all_eq_true.mp h _ hd
      | false => trivial
  | exchangeRendering =>
      cases t with
      | router i => trivial
      | consumer k u =>
          intro hr
          simp [claimsInTime, hr] at h
  | _ => trivial

/-- The detector takes the frame and deletes it. -/
theorem no_frame_leaks_detected :
    ∃ p, Pool.Reach (calls.restrict ClaimsInTime) ((oneRoute true false).pool oneFrame) p ∧
      Quiescent (oneRoute true false) p ∧ ((0, 1), .detector) ∈ p.state.mem.accepted ∧
      p.state.mem.repo.frame (0, 1) = none := by
  let router : Party := .router 0
  let detector : Party := .consumer (0, 1) .detector
  let sched : List (Party × Bool) :=
    List.replicate 5 (router, true) ++ [(router, false)] ++
      List.replicate 2 (router, true) ++ List.replicate 15 (detector, true)
  have hrun : (Pool.replay Memory.exec claimsInTime sched
      ((oneRoute true false).pool oneFrame)).any (fun p =>
        (p.threads (.router 0)).result = some () ∧ (p.threads detector).result = some () ∧
          p.state.mem.accepted = [((0, 1), .detector)]) = true := by decide
  obtain ⟨p, hp, hres⟩ := (Option.any_eq_true _ _).mp hrun
  obtain ⟨hrouter, hnode, hacc⟩ := of_decide_eq_true hres
  have hreach := Pool.reach_of_replay claimsInTime_sound _ _ _ hp
  have hq : Quiescent (oneRoute true false) p := by
    refine quiescent_of_replay (b := (true, false)) ?_ hp hrouter ?_
    · simp [sched, router, detector]
    · simp [hacc, hnode, detector]
  have ha : ((0, 1), .detector) ∈ p.state.mem.accepted := by simp [hacc]
  refine ⟨p, hreach, hq, ha, ?_⟩
  exact no_frame_leaks rfl oneFrame_distinct (fun _ _ _ => rfl) hreach hq ha

/-- The detector clears its flag before the router sets it, and is then refused the deletion. -/
theorem frame_leaks :
    ∃ p, Pool.Reach calls ((oneRoute true false).pool oneFrame) p ∧
      Quiescent (oneRoute true false) p ∧ ((0, 1), .detector) ∈ p.state.mem.accepted ∧
      p.state.mem.repo.frame (0, 1) = some 0 := by
  let router : Party := .router 0
  let detector : Party := .consumer (0, 1) .detector
  let sched : List (Party × Bool) :=
    List.replicate 5 (router, true) ++ [(router, false), (router, true)] ++
      List.replicate 7 (detector, true) ++ [(router, true)] ++
      List.replicate 5 (detector, true)
  have hrun : (Pool.replay Memory.exec (fun _ _ _ _ => true) sched
      ((oneRoute true false).pool oneFrame)).any (fun p =>
        (p.threads (.router 0)).result = some () ∧ (p.threads detector).result = some () ∧
          p.state.mem.accepted = [((0, 1), .detector)] ∧
          p.state.mem.repo.frame (0, 1) = some 0) = true := by decide
  obtain ⟨p, hp, hres⟩ := (Option.any_eq_true _ _).mp hrun
  obtain ⟨hrouter, hnode, hacc, hframe⟩ := of_decide_eq_true hres
  refine ⟨p, Pool.reach_of_replay_all _ _ _ hp, ?_, by simp [hacc], hframe⟩
  refine quiescent_of_replay (b := (true, false)) ?_ hp hrouter ?_
  · simp [sched, router, detector]
  · simp [hacc, hnode, detector]

end Leaks
end ARArch

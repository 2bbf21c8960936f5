import ARArch.ClaimFlags

/-!
# What a consumer finds first

The first lookup that a node makes of its frame is the one of its `get_frame`, unless the node
gives up before it. It finds the frame if nobody lets the frame go too early: a deleter reads a
claim as cleared although the port has accepted and the node has not looked yet, because the
router has still to set the flag; or the port accepts only after a deleter has read the claim as
cleared.
-/

namespace ARArch

open Atomic

/-- What a call tells party `t` about the presence of its frame. -/
def lookup (t : Party) (k : Key) (e : Event Party Op Op.Ans) : Option Bool :=
  if e.thread = t then
    match e with
    | ⟨_, .findCamera c, false⟩ => if c = k.1 then some false else none
    | ⟨_, .findFrame c n, a⟩ => if (c, n) = k then some a.isSome else none
    | _ => none
  else none

/-- The outcome of the first lookup that a party has made. -/
def firstLookup (s : Shared Party) (t : Party) (k : Key) : Option Bool :=
  s.hist.reverse.findSome? (lookup t k)

def Found (s : Shared Party) (t : Party) (k : Key) : Prop := firstLookup s t k = some true

def Missed (s : Shared Party) (t : Party) (k : Key) : Prop := firstLookup s t k = some false

/-- The node has found another rendering in progress, and does not look its frame up. -/
def GaveUp (s : Shared Party) (k : Key) (u : Consumer) : Prop :=
  Did s (.consumer k u) .exchangeRendering false

variable {s s' : Shared Party} {t t' : Party} {i : Op} {a : i.Ans} {k : Key} {f : FrameRef}
  {u : Consumer}

theorem firstLookup_step (hc : calls t i s a s') (t' : Party) (k : Key) :
    firstLookup s' t' k = (firstLookup s t' k).or (lookup t' k ⟨t, i, a⟩) := by
  rw [firstLookup, hc.2, List.reverse_cons, List.findSome?_append, List.findSome?_singleton]
  rfl

theorem Found.step (hc : calls t i s a s') (h : Found s t' k) : Found s' t' k := by
  rw [Found, firstLookup_step hc, h]
  rfl

/-- A party misses its frame only where it is gone. -/
theorem gone_of_lookup (hc : calls t i s a s') (h : lookup t' k ⟨t, i, a⟩ = some false) :
    t' = t ∧ i.looks = true ∧ Gone k s := by
  obtain ⟨b, he⟩ := hc.1
  simp only [lookup] at h
  split_ifs at h with ht
  split at h
  · rename_i c heq
    injection heq with _ hop hans
    subst hop
    cases hans
    split_ifs at h with hck
    obtain ⟨c', n⟩ := k
    subst hck
    rcases Memory.exec_findCamera he with ⟨_, hnone, _⟩ | ⟨hf, _⟩
    · refine ⟨ht.symm, rfl, ?_⟩
      rw [Gone, Repository.frame, hnone]
      rfl
    · cases hf
  · rename_i c n a' heq
    injection heq with _ hop hans
    subst hop
    cases hans
    split_ifs at h with hck
    rcases Memory.exec_findFrame he with ⟨_, hnone, _⟩ | ⟨f, rfl, _⟩
    · refine ⟨ht.symm, rfl, ?_⟩
      rw [Gone, ← hck]
      exact hnone
    · cases h
  · cases h

/-- A party misses its frame now, or has missed it before. -/
theorem Missed.of_step (hc : calls t i s a s') (h : Missed s' t' k) :
    Missed s t' k ∨ (t' = t ∧ i.looks = true ∧ Gone k s ∧ ¬ Found s t' k) := by
  rw [Missed, firstLookup_step hc, Option.or_eq_some_iff] at h
  rcases h with hold | ⟨hnone, hnew⟩
  · exact Or.inl hold
  · obtain ⟨ht, hi, hk⟩ := gone_of_lookup hc hnew
    refine Or.inr ⟨ht, hi, hk, ?_⟩
    rw [Found, hnone]
    nofun

/-- Nobody lets a frame go too early. -/
def SeenInTime (stored : Key → Option FrameRef) : Condition
  | _, .load f u, s, _ => (s.mem.repo.infos f).flag u = false → ∀ k,
    s.mem.repo.frame k = some f → (k, u) ∈ s.mem.accepted →
      Found s (.consumer k u) k ∨ GaveUp s k u
  | _, .tryPut _ c n u, s, accepts => accepts = true → ∀ f, stored (c, n) = some f →
    ∀ t, ¬ Did s t (.load f u) false
  | _, _, _, _ => True

/-- What nodes have seen of their frames. -/
structure Sightings (r : Repository) (s : Shared Party) : Prop where
  accepted : ∀ k u, (k, u) ∈ s.mem.accepted → (r.frame k).isSome
  /-- A claim read as cleared is that of a consumer which has seen its frame. -/
  read : ∀ t k f u, r.frame k = some f → Did s t (.load f u) false →
    (k, u) ∈ s.mem.accepted → Found s (.consumer k u) k ∨ GaveUp s k u
  erased : ∀ k f, r.frame k = some f → Gone k s → ∀ u, ∃ t, Did s t (.load f u) false
  missed : ∀ k u, Missed s (.consumer k u) k → GaveUp s k u

namespace Sightings

variable {r : Repository}

theorem initial : Sightings r ⟨{ repo := r }, []⟩ := by
  refine ⟨fun _ _ h => (List.not_mem_nil h).elim, fun _ _ _ _ _ h => (List.not_mem_nil h).elim,
    ?_, fun _ _ h => by cases h⟩
  intro k f hk hgone
  rw [Gone, hk] at hgone
  cases hgone

/-- A port that accepts now accepts a frame of the repository. -/
theorem accepted_of_step (hf : (Scene.ofTraffic r).Follows s t i a) (hc : calls t i s a s')
    (ha : (k, u) ∈ s'.mem.accepted) :
    (k, u) ∈ s.mem.accepted ∨ (r.frame k).isSome ∧
      ∃ port, (⟨t, i, a⟩ : Event Party Op Op.Ans) = ⟨t, .tryPut port k.1 k.2 u, true⟩ := by
  obtain ⟨b, he⟩ := hc.1
  cases hf.change hc with
  | still _ hacc => exact Or.inl (by rwa [hacc] at ha)
  | erased _ hacc => exact Or.inl (by rwa [hacc] at ha)
  | stored _ hacc => exact Or.inl (by rwa [hacc] at ha)
  | accepted _ hacc =>
      rw [hacc] at ha
      rcases List.mem_cons.mp ha with heq | hold
      · cases heq
        cases hf with
        | look hi ht => cases hi
        | offer _ hk hn =>
            rcases Memory.exec_tryPut he with ⟨_, hm⟩ | ⟨rfl, _⟩
            · left
              rw [hm] at hacc
              rw [hacc]
              exact List.mem_cons_self
            · exact Or.inr ⟨hk, _, rfl⟩
      · exact Or.inl hold

/-- A frame that is gone now has had all its claims read as cleared. -/
theorem erased_of_step (hi : (Scene.ofTraffic r).Inv s)
    (hf : (Scene.ofTraffic r).Follows s t i a) (hc : calls t i s a s')
    (hk : r.frame k = some f) (hgone : Gone k s') :
    Gone k s ∨ ∀ u, Did s t (.load f u) false := by
  rcases (hf.change hc).frame k with h | ⟨rfl, _⟩
  · left
    rwa [Gone, ← h]
  · cases hf with
    | look hi ht => cases hi
    | @erase _ _ _ g ht hh hl =>
        have hg : r.frame k = some g := hi.stored k g hh.frame
        have hfg : f = g := Option.some.inj (hk.symm.trans hg)
        rw [hfg]
        exact Or.inr hl

theorem step (h : Sightings r s) (hdistinct : r.Distinct) (hi : (Scene.ofTraffic r).Inv s)
    (hf : (Scene.ofTraffic r).Follows s t i a) (hc : calls t i s a s')
    (hok : SeenInTime r.frame t i s a) : Sightings r s' := by
  have hclean := hf.cleans hc
  have hseen {k : Key} {u : Consumer} (hs : Found s (.consumer k u) k ∨ GaveUp s k u) :
      Found s' (.consumer k u) k ∨ GaveUp s' k u :=
    hs.imp (fun hfound => hfound.step hc) (fun hgave => hgave.mono hc)
  refine ⟨?_, ?_, ?_, ?_⟩
  · intro k u ha
    rcases accepted_of_step hf hc ha with hold | ⟨hk, _⟩
    · exact h.accepted k u hold
    · exact hk
  · intro t' k f u hk hd ha
    rcases accepted_of_step hf hc ha with hacc | ⟨_, port, he⟩
    · rcases Did.cases hc hd with he | hold
      · cases he
        cases hf with
        | look hi ht => cases hi
        | @load _ j _ _ _ ht hj hh hm =>
            have hjk : j = k := hdistinct j k f (hi.stored j f hh.frame) hk
            subst hjk
            obtain ⟨b, he⟩ := hc.1
            exact hseen (hok (Memory.exec_load he).1.symm j hh.frame hacc)
      · exact hseen (h.read t' k f u hk hold hacc)
    · cases he
      rcases Did.cases hc hd with he | hold
      · cases he
      · exact (hok rfl f hk t' hold).elim
  · intro k f hk hgone u
    rcases erased_of_step hi hf hc hk hgone with hold | hread
    · obtain ⟨t', hd⟩ := h.erased k f hk hold u
      exact ⟨t', hd.mono hc⟩
    · exact ⟨t, (hread u).mono hc⟩
  · intro k u hm
    rcases hm.of_step hc with hold | ⟨rfl, hlook, hgone, hnot⟩
    · exact (h.missed k u hold).mono hc
    · have ha : (k, u) ∈ s.mem.accepted := by
        cases hf with
        | look hi ht => exact ht
        | _ => cases hlook
      obtain ⟨f, hk⟩ := Option.isSome_iff_exists.mp (h.accepted k u ha)
      obtain ⟨t', hd⟩ := h.erased k f hk hgone u
      rcases h.read t' k f u hk hd ha with hfound | hgave
      · exact (hnot hfound).elim
      · exact hgave.mono hc

end Sightings

variable {T : Traffic} {r : Repository} {p : Pool Party Op Op.Ans Unit (Shared Party)}

/-- In every interleaving in which nobody lets a frame go too early, a node whose port has
accepted a frame finds it when it first looks, unless the node gives up. -/
theorem frames_are_seen (hsingle : r.stereoFrames = Table.empty) (hdistinct : r.Distinct)
    (hp : Pool.Reach (calls.restrict (SeenInTime r.frame)) (T.pool r) p)
    (hm : Missed p.state (.consumer k u) k) : GaveUp p.state k u := by
  have hs : Sightings r p.state := by
    refine Traffic.invariant hsingle Sightings.initial ?_ hp
    intro t i a s s' hi hf hc hok h
    exact h.step hdistinct hi hf hc hok
  exact hs.missed k u hm

/-- The claims of an accepted frame are read only when set, and no port accepts after a deleter
has read a claim as cleared. -/
def seenInTime (_ : Party) (i : Op) (s : Shared Party) (_ : i.Ans) : Bool :=
  match i with
  | .load f u => (s.mem.repo.infos f).flag u || s.mem.accepted.all (fun x => x.2 ≠ u) ||
    s.mem.accepted.all (fun x => firstLookup s (.consumer x.1 x.2) x.1 = some true)
  | .tryPut _ _ _ _ => s.hist.all fun e =>
    match e.op with
    | .load _ _ => false
    | _ => true
  | _ => true

theorem seenInTime_sound (stored : Key → Option FrameRef) (t : Party) (i : Op)
    (s : Shared Party) (a : i.Ans) (h : seenInTime t i s a = true) :
    SeenInTime stored t i s a := by
  cases i with
  | load f u =>
      intro hflag k _ ha
      simp only [seenInTime, hflag, Bool.false_or, Bool.or_eq_true, List.all_eq_true,
        decide_eq_true_eq] at h
      rcases h with hnot | hfound
      · exact (hnot _ ha rfl).elim
      · exact Or.inl (hfound _ ha)
  | tryPut port c n u =>
      intro _ f _ t' hd
      cases List.all_eq_true.mp h _ hd
  | _ => trivial

/-- Detector and renderer both find the frame, and the detector deletes it. -/
theorem frames_are_seen_both :
    ∃ p, Pool.Reach (calls.restrict (SeenInTime oneFrame.frame))
        ((oneRoute true true).pool oneFrame) p ∧
      ((0, 1), .renderer) ∈ p.state.mem.accepted ∧
      (Missed p.state (.consumer (0, 1) .renderer) (0, 1) →
        GaveUp p.state (0, 1) .renderer) := by
  let router : Party := .router 0
  let detector : Party := .consumer (0, 1) .detector
  let renderer : Party := .consumer (0, 1) .renderer
  let sched : List (Party × Bool) :=
    List.replicate 5 (router, true) ++ [(router, false)] ++
      List.replicate 4 (router, true) ++ List.replicate 9 (renderer, true) ++
      List.replicate 15 (detector, true)
  have hrun : (Pool.replay Memory.exec seenInTime sched
      ((oneRoute true true).pool oneFrame)).any (fun p =>
        ((0, 1), .renderer) ∈ p.state.mem.accepted) = true := by decide
  obtain ⟨p, hp, hacc⟩ := (Option.any_eq_true _ _).mp hrun
  have hreach := Pool.reach_of_replay (seenInTime_sound oneFrame.frame) _ _ _ hp
  refine ⟨p, hreach, of_decide_eq_true hacc, ?_⟩
  exact frames_are_seen rfl oneFrame_distinct hreach

def isGivingUp : Event Party Op Op.Ans → Bool
  | ⟨_, .exchangeRendering, false⟩ => true
  | _ => false

/-- The detector is through with the frame and deletes it before the renderer is offered it. -/
theorem frame_is_missed :
    ∃ p, Pool.Reach calls ((oneRoute true true).pool oneFrame) p ∧
      ((0, 1), .renderer) ∈ p.state.mem.accepted ∧
      Missed p.state (.consumer (0, 1) .renderer) (0, 1) ∧
      ¬ GaveUp p.state (0, 1) .renderer := by
  let router : Party := .router 0
  let detector : Party := .consumer (0, 1) .detector
  let renderer : Party := .consumer (0, 1) .renderer
  let sched : List (Party × Bool) :=
    List.replicate 5 (router, true) ++ [(router, false)] ++
      List.replicate 2 (router, true) ++ List.replicate 15 (detector, true) ++
      List.replicate 2 (router, true) ++ List.replicate 4 (renderer, true)
  have hrun : (Pool.replay Memory.exec (fun _ _ _ _ => true) sched
      ((oneRoute true true).pool oneFrame)).any (fun p =>
        ((0, 1), .renderer) ∈ p.state.mem.accepted ∧
          firstLookup p.state renderer (0, 1) = some false ∧
          p.state.hist.all (fun e => !isGivingUp e)) = true := by decide
  obtain ⟨p, hp, hres⟩ := (Option.any_eq_true _ _).mp hrun
  obtain ⟨hacc, hmissed, hgave⟩ := of_decide_eq_true hres
  refine ⟨p, Pool.reach_of_replay_all _ _ _ hp, hacc, hmissed, ?_⟩
  intro hd
  cases List.all_eq_true.mp hgave _ hd

end ARArch

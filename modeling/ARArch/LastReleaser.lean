import ARArch.FirstLookup
import ARArch.LockOrder

/-!
# The last releaser deletes

Frames are in the store with their claims set, and every holder of a claim looks its frame up,
clears its claim and asks for the deletion. Claims are only cleared here, so a claim read as
cleared stays so, and the three readings of `delete_frame`, though made one after another, are
true together when the frame is erased. Nobody finds a frame gone that it still holds, and the
frame is erased once.
-/

namespace ARArch

open Atomic

/-- The claims set on the frames of a repository are those of their holders. -/
structure Held (r : Repository) (holds : Key → Consumer → Bool) : Prop where
  single : r.stereoFrames = Table.empty
  distinct : r.Distinct
  stored : ∀ k u, holds k u = true → (r.frame k).isSome
  claims : ∀ k f u, r.frame k = some f → (r.infos f).flag u = holds k u

def isErasure (k : Key) (e : Event Party Op Op.Ans) : Bool :=
  match e.op with
  | .eraseFrame c n => (c, n) = k
  | _ => false

/-- How often a frame has been erased. -/
def erasures (s : Shared Party) (k : Key) : ℕ := s.hist.countP (isErasure k)

variable {r : Repository} {holds : Key → Consumer → Bool} {s s' : Shared Party} {t : Party}
  {i : Op} {a : i.Ans} {k : Key} {f : FrameRef} {u v : Consumer}

theorem erasures_step (hc : calls t i s a s') (k : Key) :
    erasures s' k = erasures s k + if isErasure k ⟨t, i, a⟩ then 1 else 0 := by
  rw [erasures, hc.2, List.countP_cons]
  rfl

theorem isErasure_iff {e : Event Party Op Op.Ans} :
    isErasure k e = true ↔ e.op = .eraseFrame k.1 k.2 := by
  obtain ⟨t, i, a⟩ := e
  cases i <;> simp [isErasure, Prod.ext_iff]

theorem firstLookup_ne_none (h : Did s t (.findFrame k.1 k.2) (some f)) :
    firstLookup s t k ≠ none := by
  rw [← Option.isSome_iff_ne_none, firstLookup, List.findSome?_isSome_iff]
  exact ⟨_, List.mem_reverse.mpr h, by simp [lookup]⟩

/-- What holds while holders let their frames go. -/
structure Releasing (r : Repository) (holds : Key → Consumer → Bool) (s : Shared Party) :
    Prop where
  claims : Claims (.ofHolders r holds) s
  /-- A claim is set until it is released. -/
  held : ∀ k f u, r.frame k = some f → holds k u = true → ¬ Released s k u →
    (s.mem.repo.infos f).flag u = true
  read : ∀ t f v, Did s t (.load f v) false → (s.mem.repo.infos f).flag v = false
  /-- A frame with a claim is in the store. -/
  stored : ∀ k f u, r.frame k = some f → (s.mem.repo.infos f).flag u = true →
    s.mem.repo.frame k = some f
  seen : ∀ k u, Released s k u → Found s (.consumer k u) k
  present : ∀ k u, holds k u = true → ¬ Missed s (.consumer k u) k
  erased : ∀ k, (r.frame k).isSome →
    erasures s k = if (s.mem.repo.frame k).isNone then 1 else 0

namespace Releasing

theorem initial (h : Held r holds) : Releasing r holds ⟨{ repo := r }, []⟩ := by
  have hnot (k : Key) (u : Consumer) : ¬ Released ⟨{ repo := r }, []⟩ k u := by
    rintro (⟨f, hd⟩ | hd) <;> exact List.not_mem_nil hd
  refine ⟨⟨?_, ?_, ?_⟩, ?_, ?_, ?_, ?_, ?_, ?_⟩
  · intro k f u hk hflag
    refine ⟨?_, hnot k u⟩
    exact (h.claims k f u hk).symm.trans hflag
  · intro k f u _ hu
    refine ⟨u, hu, ?_⟩
    rintro ⟨g, v, hd⟩
    exact List.not_mem_nil hd
  · rintro k u ⟨g, v, hd⟩
    exact (List.not_mem_nil hd).elim
  · intro k f u hk hu _
    exact (h.claims k f u hk).trans hu
  · exact fun _ _ _ hd => (List.not_mem_nil hd).elim
  · exact fun k f u hk _ => hk
  · exact fun k u hrel => (hnot k u hrel).elim
  · exact fun k u _ hm => by cases hm
  · intro k hk
    rw [Option.isNone_eq_false_iff.mpr hk]
    rfl

/-- Claims are only cleared. -/
theorem flag_of_step (hf : (Scene.ofHolders r holds).Follows s t i a) (hc : calls t i s a s')
    (hflag : (s'.mem.repo.infos f).flag u = true) : (s.mem.repo.infos f).flag u = true := by
  rcases (hf.change hc).flag hflag with hold | rfl
  · exact hold
  · exact hf.claim_inv.1.elim

theorem held_step (h : Releasing r holds s) (hdistinct : r.Distinct)
    (hf : (Scene.ofHolders r holds).Follows s t i a) (hc : calls t i s a s')
    (hk : r.frame k = some f) (hu : holds k u = true) (hnot : ¬ Released s' k u) :
    (s'.mem.repo.infos f).flag u = true := by
  have hflag : (s.mem.repo.infos f).flag u = true := by
    refine h.held k f u hk hu (fun hrel => hnot ?_)
    exact Lasting.released k u t s s' (hf.cleans hc) hrel
  by_contra hfalse
  rcases (hf.change hc).flag (Bool.eq_false_of_not_eq_true hfalse) with hold | rfl
  · rw [hflag] at hold
    cases hold
  · cases hf with
    | look hi ht => cases hi
    | @release j _ _ hs hj hd =>
        have hjk : j = k := hdistinct j k f hj hk
        subst hjk
        exact hnot (Or.inl ⟨f, Did.of_calls hc⟩)

theorem read_step (h : Releasing r holds s)
    (hf : (Scene.ofHolders r holds).Follows s t i a) (hc : calls t i s a s') {t' : Party}
    (hd : Did s' t' (.load f v) false) : (s'.mem.repo.infos f).flag v = false := by
  have hflag : (s.mem.repo.infos f).flag v = false := by
    rcases Did.cases hc hd with he | hold
    · cases he
      obtain ⟨b, he⟩ := hc.1
      exact (Memory.exec_load he).1.symm
    · exact h.read t' f v hold
  by_contra htrue
  have hold := flag_of_step hf hc (Bool.eq_true_of_not_eq_false htrue)
  rw [hflag] at hold
  cases hold

/-- An erased frame had no claim left. -/
theorem stored_step (h : Releasing r holds s)
    (hf : (Scene.ofHolders r holds).Follows s t i a) (hc : calls t i s a s')
    (hk : r.frame k = some f) (hflag : (s'.mem.repo.infos f).flag u = true) :
    s'.mem.repo.frame k = some f := by
  have hold := flag_of_step hf hc hflag
  have hk₀ := h.stored k f u hk hold
  rcases (hf.change hc).frame k with hsame | ⟨rfl, _⟩
  · rw [hsame, hk₀]
  · cases hf with
    | look hi ht => cases hi
    | @erase _ _ _ g ht hh hl =>
        have hgf : some g = some f := hh.frame.symm.trans hk₀
        cases hgf
        rw [h.read t f u (hl u)] at hold
        cases hold

theorem seen_step (h : Releasing r holds s)
    (hf : (Scene.ofHolders r holds).Follows s t i a) (hc : calls t i s a s')
    (hrel : Released s' k u) : Found s' (.consumer k u) k := by
  rcases hrel.of_step hc with hold | ⟨g, he⟩ | he
  · exact (h.seen k u hold).step hc
  · cases he
    obtain ⟨_, hd⟩ := hf.release_inv
    have hu : holds k u = true := by
      cases hf with
      | look hi ht => cases hi
      | release hs _ _ => exact hs
    refine Found.step hc ?_
    obtain ⟨b, hb⟩ := Option.ne_none_iff_exists'.mp (firstLookup_ne_none hd)
    cases b with
    | true => exact hb
    | false => exact (h.present k u hu hb).elim
  · cases he
    exact hf.exchange_inv.1.elim

theorem present_step (h : Releasing r holds s) (hheld : Held r holds)
    (hc : calls t i s a s') (hu : holds k u = true) : ¬ Missed s' (.consumer k u) k := by
  intro hm
  rcases hm.of_step hc with hold | ⟨_, _, hgone, hnot⟩
  · exact h.present k u hu hold
  · obtain ⟨f, hk⟩ := Option.isSome_iff_exists.mp (hheld.stored k u hu)
    have hflag := h.held k f u hk hu (fun hrel => hnot (h.seen k u hrel))
    rw [Gone, h.stored k f u hk hflag] at hgone
    cases hgone

theorem erased_step (h : Releasing r holds s)
    (hf : (Scene.ofHolders r holds).Follows s t i a) (hc : calls t i s a s')
    (hk : (r.frame k).isSome) :
    erasures s' k = if (s'.mem.repo.frame k).isNone then 1 else 0 := by
  rw [erasures_step hc, h.erased k hk]
  rcases (hf.change hc).frame k with hsame | ⟨rfl, hnone⟩
  · have hno : isErasure k ⟨t, i, a⟩ = false := by
      by_contra herase
      have hop : i = .eraseFrame k.1 k.2 := isErasure_iff.mp (Bool.eq_true_of_not_eq_false herase)
      subst hop
      cases hf with
      | look hi ht => cases hi
      | erase ht hh hl =>
          obtain ⟨b, he⟩ := hc.1
          rw [(Memory.exec_eraseFrame he).1, Repository.frame_eraseFrame_self, hh.frame] at hsame
          cases hsame
    rw [hno, hsame]
    rfl
  · cases hf with
    | look hi ht => cases hi
    | @erase _ _ _ g ht hh hl =>
        have hg : s.mem.repo.frame k = some g := hh.frame
        rw [hg, hnone, isErasure_iff.mpr rfl]
        rfl

theorem step (h : Releasing r holds s) (hheld : Held r holds)
    (hi : (Scene.ofHolders r holds).Inv s)
    (hf : (Scene.ofHolders r holds).Follows s t i a) (hc : calls t i s a s') :
    Releasing r holds s' where
  claims := h.claims.step hheld.distinct hi hf hc (hf.claimsInTime id)
  held _ _ _ hk hu hnot := h.held_step hheld.distinct hf hc hk hu hnot
  read _ _ _ hd := h.read_step hf hc hd
  stored _ _ _ hk hflag := h.stored_step hf hc hk hflag
  seen _ _ hrel := h.seen_step hf hc hrel
  present _ _ hu := h.present_step hheld hc hu
  erased _ hk := h.erased_step hf hc hk

end Releasing

variable {p : Pool Party Op Op.Ans Unit (Shared Party)}

/-- In every interleaving of the holders, no holder misses its frame, a frame with a claim is in
the store, and no frame is erased twice; when the holders of a frame have all finished, they have
all found and released it, and it has been erased once. Where the frames have colour data, the
holders go on until all have finished. -/
theorem last_releaser_deletes (h : Held r holds)
    (hp : Pool.Reach calls (holders r holds) p) :
    (∀ k u, holds k u = true → ¬ Missed p.state (.consumer k u) k) ∧
    (∀ k f u, r.frame k = some f → (p.state.mem.repo.infos f).flag u = true →
      p.state.mem.repo.frame k = some f) ∧
    (∀ k, (r.frame k).isSome → erasures p.state k ≤ 1) ∧
    (∀ k u, holds k u = true → (∀ v, p.threads (.consumer k v) = .pure ()) →
      Found p.state (.consumer k u) k ∧ Released p.state k u ∧ erasures p.state k = 1 ∧
        p.state.mem.repo.frame k = none) ∧
    ((∀ k f, r.frame k = some f → 0 < (r.infos f).rgbaLen) →
      ∀ t, p.threads t ≠ .pure () → ∃ p', Pool.Step calls p p') := by
  have hrel : Releasing r holds p.state := by
    refine holders_invariant h.single (.initial h) ?_ hp
    intro t i a s s' hi hf hc hrel
    exact hrel.step h hi hf hc
  refine ⟨hrel.present, hrel.stored, ?_, ?_, ?_⟩
  · intro k hk
    rw [hrel.erased k hk]
    split_ifs <;> omega
  · intro k u hu hdone
    have hgone : Gone k p.state := by
      refine hrel.claims.gone hu (fun v hv => ?_)
      exact holders_finished h.single hp hv (hdone v)
    obtain ⟨f, hk⟩ := Option.isSome_iff_exists.mp (h.stored k u hu)
    have hreleased : Released p.state k u := by
      -- a claim still set would keep the frame in the store
      by_contra hnot
      have hin := hrel.stored k f u hk (hrel.held k f u hk hu hnot)
      rw [Gone, hin] at hgone
      cases hgone
    refine ⟨hrel.seen k u hreleased, hreleased, ?_, hgone⟩
    have hsome : (r.frame k).isSome := by rw [hk]; rfl
    rw [hrel.erased k hsome, hgone]
    rfl
  · intro hcolour t ht
    exact holders_progress h.single hcolour hp ht

/-- Frame 1 of camera 0, claimed by the detector and the renderer. -/
def claimedFrame : Repository :=
  { oneFrame with
    infos := fun _ => { seqno := 1, rgbaLen := 4, isDetecting := true, isRendering := true } }

def claimedBy (k : Key) (u : Consumer) : Bool := k = (0, 1) ∧ u ≠ .tracker

theorem claimedFrame_held : Held claimedFrame claimedBy := by
  refine ⟨rfl, oneFrame_distinct, ?_, ?_⟩
  · intro k u hu
    obtain ⟨rfl, _⟩ := of_decide_eq_true hu
    rfl
  · intro k f u hk
    have hk₁ : k = (0, 1) := eq_of_oneFrame hk
    subst hk₁
    cases u <;> rfl

/-- The detector clears its claim first, the renderer deletes. -/
theorem last_releaser_deletes_renderer :
    ∃ p, Pool.Reach calls (holders claimedFrame claimedBy) p ∧
      Found p.state (.consumer (0, 1) .renderer) (0, 1) ∧
      Released p.state (0, 1) .renderer ∧ erasures p.state (0, 1) = 1 ∧
      p.state.mem.repo.frame (0, 1) = none := by
  let detector : Party := .consumer (0, 1) .detector
  let renderer : Party := .consumer (0, 1) .renderer
  have hrun : (Pool.replay Memory.exec (fun _ _ _ _ => true)
      (List.replicate 5 (renderer, true) ++ List.replicate 13 (detector, true) ++
        List.replicate 10 (renderer, true))
      (holders claimedFrame claimedBy)).any (fun p =>
        ∀ u, (p.threads (.consumer (0, 1) u)).result = some ()) = true := by decide
  obtain ⟨p, hp, hres⟩ := (Option.any_eq_true _ _).mp hrun
  have hdone := of_decide_eq_true hres
  have hreach := Pool.reach_of_replay_all _ _ _ hp
  refine ⟨p, hreach, ?_⟩
  exact (last_releaser_deletes claimedFrame_held hreach).2.2.2.1 (0, 1) .renderer rfl
    (fun u => Prog.eq_pure_of_result (hdone u))

end ARArch

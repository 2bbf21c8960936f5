import ARArch.CallEffects
import ARArch.SharedRepository
import ARArch.Router

/-!
# What an offer changes

A router that works alone offers a frame to the consumers of its camera one after the other, sets
the flag of each that accepts, and deletes the frame that nobody has accepted. `Offers` is what
holds of the frame all the time, `Settled` what holds when the router is through with it, and
`Works` says what all this leaves of the other frames.
-/

namespace ARArch

open Atomic

/-- The port of a consumer, counted from `portStart`. -/
def Consumer.offset : Consumer → ℕ
  | .detector => 0
  | .tracker => 1
  | .renderer => 2

/-- The frame that a call offers to a port. -/
def Op.offered : Op → Option Key
  | .tryPut _ c n _ => some (c, n)
  | _ => none

/-- The offers made of the frame `f` under its key, and the claims that they leave. -/
structure Offers (portStart : ℤ) (k : Key) (f : FrameRef) (s : Shared Unit) : Prop where
  ports : ∀ port u a, Did s () (.tryPut port k.1 k.2 u) a → (port : ℤ) = portStart + u.offset
  exclusive : ¬ ((k, .detector) ∈ s.mem.accepted ∧ (k, .tracker) ∈ s.mem.accepted)
  untracked : ∀ port a, Did s () (.tryPut port k.1 k.2 .tracker) a →
    (k, .detector) ∉ s.mem.accepted
  /-- An offer to the tracker follows at once on its answer that it is not busy. -/
  asked : ∀ port a h, ⟨(), .tryPut port k.1 k.2 .tracker, a⟩ :: h <:+ s.hist →
    ∃ h', h = ⟨(), .busy k.1 .tracker, false⟩ :: h'
  flags : ∀ u, (s.mem.repo.infos f).flag u = true ↔ (k, u) ∈ s.mem.accepted

/-- A frame that somebody has accepted is still stored; one that nobody has is gone if it is to be
deleted. -/
structure Settled (portStart : ℤ) (k : Key) (f : FrameRef) (isDeleted : Prop) (s : Shared Unit) :
    Prop extends Offers portStart k f s where
  kept : ∀ u, (k, u) ∈ s.mem.accepted → s.mem.repo.frame k = some f
  removed : (∀ u, (k, u) ∉ s.mem.accepted) → isDeleted → s.mem.repo.frame k = none

/-- The router is through with the frame `f`. -/
abbrev Dispatched (params : TBBRouterParameters) (k : Key) (f : FrameRef) (s : Shared Unit) :
    Prop :=
  Settled params.portStart k f (params.renderer = true ∨ params.isDelete = true) s

/-- No lock is held and no frame has a twin. -/
def Free (s : Shared Unit) : Prop :=
  s.mem = Memory.idle s.mem.repo s.mem.accepted ∧ s.mem.repo.stereoFrames = Table.empty

/-- What work on the frames of some keys changes. -/
structure Works (keys : List Key) (s s' : Shared Unit) : Prop where
  hist : ∃ es, s'.hist = es ++ s.hist ∧ ∀ e ∈ es, ∀ k, e.op.offered = some k → k ∈ keys
  accepted : ∀ k u, k ∉ keys → ((k, u) ∈ s'.mem.accepted ↔ (k, u) ∈ s.mem.accepted)
  grows : s.mem.accepted ⊆ s'.mem.accepted
  frame : ∀ k, k ∉ keys → s'.mem.repo.frame k = s.mem.repo.frame k
  stored : ∀ k f, s'.mem.repo.frame k = some f → s.mem.repo.frame k = some f
  infos : ∀ f, (∀ k ∈ keys, s.mem.repo.frame k ≠ some f) →
    s'.mem.repo.infos f = s.mem.repo.infos f
  rgbaLen : ∀ f, (s'.mem.repo.infos f).rgbaLen = (s.mem.repo.infos f).rgbaLen
  free : Free s → Free s'

/-- A stored frame that nobody has been offered and nobody has claimed. -/
structure Fresh (k : Key) (f : FrameRef) (s : Shared Unit) : Prop where
  stored : s.mem.repo.frame k = some f
  unoffered : ∀ e ∈ s.hist, e.op.offered ≠ some k
  unaccepted : ∀ u, (k, u) ∉ s.mem.accepted
  unclaimed : (s.mem.repo.infos f).unclaimed = true

/-- The frames stored under some keys have colour data. -/
def Colored (keys : List Key) (s : Shared Unit) : Prop :=
  ∀ j ∈ keys, ∀ g, s.mem.repo.frame j = some g → 0 < (s.mem.repo.infos g).rgbaLen

theorem colored_cons {keys : List Key} {k : Key} {s : Shared Unit} : Colored (k :: keys) s ↔
    (∀ g, s.mem.repo.frame k = some g → 0 < (s.mem.repo.infos g).rgbaLen) ∧ Colored keys s :=
  List.forall_mem_cons

namespace Works

variable {keys keys' : List Key} {s s' s'' : Shared Unit}

/-- Calls that only answer. -/
theorem of_silent (keys : List Key) {es : List (Event Unit Op Op.Ans)}
    (hes : ∀ e ∈ es, e.op.offered = none) : Works keys s ⟨s.mem, es ++ s.hist⟩ where
  hist := by
    refine ⟨es, rfl, fun e he k hk => ?_⟩
    rw [hes e he] at hk
    cases hk
  accepted _ _ _ := Iff.rfl
  grows _ h := h
  frame _ _ := rfl
  stored _ _ h := h
  infos _ _ := rfl
  rgbaLen _ := rfl
  free h := h

theorem refl : Works keys s s :=
  of_silent keys (List.forall_mem_nil _)

theorem mono (hkeys : keys ⊆ keys') (h : Works keys s s') : Works keys' s s' where
  hist := by
    obtain ⟨es, hes, hoff⟩ := h.hist
    exact ⟨es, hes, fun e he k hk => hkeys (hoff e he k hk)⟩
  accepted k u hk := h.accepted k u (fun hmem => hk (hkeys hmem))
  grows := h.grows
  frame k hk := h.frame k (fun hmem => hk (hkeys hmem))
  stored := h.stored
  infos f hf := h.infos f (fun k hk => hf k (hkeys hk))
  rgbaLen := h.rgbaLen
  free := h.free

theorem trans (h : Works keys s s') (h' : Works keys s' s'') : Works keys s s'' where
  hist := by
    obtain ⟨es, hes, hoff⟩ := h.hist
    obtain ⟨es', hes', hoff'⟩ := h'.hist
    refine ⟨es' ++ es, by rw [hes', hes, List.append_assoc], ?_⟩
    intro e he
    rcases List.mem_append.mp he with he | he
    · exact hoff' e he
    · exact hoff e he
  accepted k u hk := (h'.accepted k u hk).trans (h.accepted k u hk)
  grows _ hx := h'.grows (h.grows hx)
  frame k hk := (h'.frame k hk).trans (h.frame k hk)
  stored k f hf := h.stored k f (h'.stored k f hf)
  infos f hf := by
    rw [h'.infos f (fun k hk hf' => hf k hk (h.stored k f hf')), h.infos f hf]
  rgbaLen f := (h'.rgbaLen f).trans (h.rgbaLen f)
  free hs := h'.free (h.free hs)

theorem colored (h : Works keys s s') (hdata : Colored keys' s) : Colored keys' s' := by
  intro j hj g hg
  rw [h.rgbaLen g]
  exact hdata j hj g (h.stored j g hg)

end Works

theorem suffix_of_suffix_append {α : Type} {e : α} {h es l : List α} (hs : e :: h <:+ es ++ l)
    (he : e ∉ es) : e :: h <:+ l := by
  induction es with
  | nil => exact hs
  | cons x es ih =>
      rcases List.suffix_cons_iff.mp hs with hx | hs'
      · cases hx
        exact (he List.mem_cons_self).elim
      · exact ih hs' (List.not_mem_of_not_mem_cons he)

/-! ### The states after an offer -/

section States

variable {P : ℤ} {port : ℕ} {k : Key} {f : FrameRef} {u v : Consumer} {a : Bool}
  {s s' : Shared Unit} {e : Event Unit Op Op.Ans}

/-- The state after a call that only answers. -/
def noted (e : Event Unit Op Op.Ans) (s : Shared Unit) : Shared Unit := ⟨s.mem, e :: s.hist⟩

/-- The state after an offer. Where the port accepts, the router sets the flag. -/
def answered (port : ℕ) (k : Key) (f : FrameRef) (u : Consumer) (a : Bool) (s : Shared Unit) :
    Shared Unit :=
  if a then
    ⟨{ s.mem with
        repo := s.mem.repo.modifyInfo f (·.setFlag u true)
        accepted := (k, u) :: s.mem.accepted },
      ⟨(), .store f u true, ()⟩ :: ⟨(), .tryPut port k.1 k.2 u, true⟩ :: s.hist⟩
  else noted ⟨(), .tryPut port k.1 k.2 u, false⟩ s

theorem did_noted {i : Op} {r : i.Ans} :
    Did (noted e s) () i r ↔ (⟨(), i, r⟩ : Event Unit Op Op.Ans) = e ∨ Did s () i r :=
  List.mem_cons

theorem mem_accepted_answered {x : Key × Consumer} :
    x ∈ (answered port k f u a s).mem.accepted ↔ (a = true ∧ x = (k, u)) ∨ x ∈ s.mem.accepted := by
  cases a
  · simp [answered, noted]
  · simp [answered]

@[simp] theorem frame_answered {j : Key} :
    (answered port k f u a s).mem.repo.frame j = s.mem.repo.frame j := by
  cases a <;> rfl

theorem flag_answered : ((answered port k f u a s).mem.repo.infos f).flag v = true ↔
    (a = true ∧ v = u) ∨ (s.mem.repo.infos f).flag v = true := by
  cases a
  · simp [answered, noted]
  · by_cases hv : v = u <;> simp [answered, hv]

theorem infos_answered_of_ne {g : FrameRef} (hg : g ≠ f) :
    (answered port k f u a s).mem.repo.infos g = s.mem.repo.infos g := by
  cases a
  · rfl
  · simp [answered, Repository.infos_modifyInfo, hg]

theorem rgbaLen_answered {g : FrameRef} :
    ((answered port k f u a s).mem.repo.infos g).rgbaLen = (s.mem.repo.infos g).rgbaLen := by
  by_cases hg : g = f
  · subst hg
    cases a
    · rfl
    · simp [answered]
  · rw [infos_answered_of_ne hg]

/-- An offer made is the latest or an earlier one. -/
theorem did_answered {p : ℕ} {j : Key} {b : Bool}
    (h : Did (answered port k f u a s) () (.tryPut p j.1 j.2 v) b) :
    (p = port ∧ v = u) ∨ Did s () (.tryPut p j.1 j.2 v) b := by
  have h' : ((p = port ∧ j.1 = k.1 ∧ j.2 = k.2 ∧ v = u) ∧ b = a) ∨
      Did s () (.tryPut p j.1 j.2 v) b := by
    cases a
    · simpa [answered, Did, noted] using h
    · simpa [answered, Did] using h
  rcases h' with ⟨⟨hp, _, _, hv⟩, _⟩ | h'
  · exact .inl ⟨hp, hv⟩
  · exact .inr h'

theorem suffix_answered {p : ℕ} {j : Key} {b : Bool} {h : List (Event Unit Op Op.Ans)}
    (hs : ⟨(), .tryPut p j.1 j.2 v, b⟩ :: h <:+ (answered port k f u a s).hist) :
    (v = u ∧ h = s.hist) ∨ ⟨(), .tryPut p j.1 j.2 v, b⟩ :: h <:+ s.hist := by
  have hs' : (((p = port ∧ j.1 = k.1 ∧ j.2 = k.2 ∧ v = u) ∧ b = a) ∧ h = s.hist) ∨
      ⟨(), .tryPut p j.1 j.2 v, b⟩ :: h <:+ s.hist := by
    cases a
    · simpa [answered, noted, List.suffix_cons_iff] using hs
    · simpa [answered, List.suffix_cons_iff] using hs
  rcases hs' with ⟨⟨⟨_, _, _, hv⟩, _⟩, hh⟩ | hs'
  · exact .inl ⟨hv, hh⟩
  · exact .inr hs'

theorem Works.of_answered (hf : s.mem.repo.frame k = some f) :
    Works [k] s (answered port k f u a s) where
  hist := by
    cases a
    · refine ⟨[⟨(), .tryPut port k.1 k.2 u, false⟩], rfl, fun e he j hj => ?_⟩
      cases List.mem_singleton.mp he
      cases hj
      exact List.mem_singleton_self k
    · refine ⟨[⟨(), .store f u true, ()⟩, ⟨(), .tryPut port k.1 k.2 u, true⟩], rfl, ?_⟩
      intro e he j hj
      rcases List.mem_pair.mp he with rfl | rfl
      · cases hj
      · cases hj
        exact List.mem_singleton_self k
  accepted j v hj := by
    have hne : (j, v) ≠ (k, u) := fun h => hj (List.mem_singleton.mpr (Prod.ext_iff.mp h).1)
    simp [mem_accepted_answered, hne]
  grows _ h := mem_accepted_answered.mpr (.inr h)
  frame _ _ := frame_answered
  stored j g h := by rwa [frame_answered] at h
  infos g hg := by
    have hne : g ≠ f := fun h => hg k (List.mem_singleton_self k) (h ▸ hf)
    exact infos_answered_of_ne hne
  rgbaLen _ := rgbaLen_answered
  free := by
    rintro ⟨hidle, hsingle⟩
    cases a
    · exact ⟨hidle, hsingle⟩
    · exact ⟨congrArg (fun m => { m with
          repo := s.mem.repo.modifyInfo f (·.setFlag u true)
          accepted := (k, u) :: s.mem.accepted }) hidle, hsingle⟩

theorem Fresh.of_works {keys : List Key} (h : Fresh k f s) (hw : Works keys s s')
    (hk : k ∉ keys) (hf : ∀ j ∈ keys, s.mem.repo.frame j ≠ some f) : Fresh k f s' where
  stored := (hw.frame k hk).trans h.stored
  unoffered e he hoff := by
    obtain ⟨es, hes, hkeys⟩ := hw.hist
    rw [hes] at he
    rcases List.mem_append.mp he with he | he
    · exact hk (hkeys e he k hoff)
    · exact h.unoffered e he hoff
  unaccepted u hu := h.unaccepted u ((hw.accepted k u hk).mp hu)
  unclaimed := by
    rw [hw.infos f hf]
    exact h.unclaimed

namespace Offers

/-- Before the first offer. -/
theorem of_fresh (h : Fresh k f s) : Offers P k f s where
  ports _ _ _ hd := (h.unoffered _ hd rfl).elim
  exclusive ha := h.unaccepted _ ha.1
  untracked _ _ hd := (h.unoffered _ hd rfl).elim
  asked _ _ _ hs := (h.unoffered _ (hs.subset List.mem_cons_self) rfl).elim
  flags u := by
    rw [(FrameInfo.unclaimed_iff _).mp h.unclaimed u]
    simp [h.unaccepted u]

theorem of_answered (h : Offers P k f s) (hport : (port : ℤ) = P + u.offset)
    (hfirst : u = .detector → (k, .tracker) ∉ s.mem.accepted ∧
      ∀ p b, ¬ Did s () (.tryPut p k.1 k.2 .tracker) b)
    (hfree : u = .tracker → (k, .detector) ∉ s.mem.accepted ∧
      ∃ h', s.hist = ⟨(), .busy k.1 .tracker, false⟩ :: h') :
    Offers P k f (answered port k f u a s) where
  ports p v b hd := by
    rcases did_answered hd with ⟨hp, hv⟩ | hd
    · rw [hp, hv]
      exact hport
    · exact h.ports p v b hd
  exclusive := by
    rintro ⟨hdetector, htracker⟩
    rcases mem_accepted_answered.mp hdetector with ⟨_, hu⟩ | hbefore
    · cases hu
      rcases mem_accepted_answered.mp htracker with ⟨_, hu⟩ | hbefore
      · cases hu
      · exact (hfirst rfl).1 hbefore
    · rcases mem_accepted_answered.mp htracker with ⟨_, hu⟩ | hbefore'
      · cases hu
        exact (hfree rfl).1 hbefore
      · exact h.exclusive ⟨hbefore, hbefore'⟩
  untracked p b hd hdetector := by
    rcases mem_accepted_answered.mp hdetector with ⟨_, hu⟩ | hbefore
    · cases hu
      rcases did_answered hd with ⟨_, hv⟩ | hd'
      · cases hv
      · exact (hfirst rfl).2 p b hd'
    · rcases did_answered hd with ⟨_, hv⟩ | hd'
      · exact (hfree hv.symm).1 hbefore
      · exact h.untracked p b hd' hbefore
  asked p b h' hs := by
    rcases suffix_answered hs with ⟨hv, hh⟩ | hs
    · rw [hh]
      exact (hfree hv.symm).2
    · exact h.asked p b h' hs
  flags v := by
    have hkey : (k, v) = (k, u) ↔ v = u := by simp
    rw [flag_answered, mem_accepted_answered, h.flags v, hkey]

/-- Work that does not offer the frame and leaves its claims alone. -/
theorem of_hist (h : Offers P k f s) (es : List (Event Unit Op Op.Ans))
    (hes : s'.hist = es ++ s.hist) (hoff : ∀ e ∈ es, e.op.offered ≠ some k)
    (hacc : ∀ u, (k, u) ∈ s'.mem.accepted ↔ (k, u) ∈ s.mem.accepted)
    (hinfos : s'.mem.repo.infos f = s.mem.repo.infos f) : Offers P k f s' := by
  have hdid (p : ℕ) (v : Consumer) (b : Bool) (hd : Did s' () (.tryPut p k.1 k.2 v) b) :
      Did s () (.tryPut p k.1 k.2 v) b := by
    rw [Did, hes] at hd
    exact (List.mem_append.mp hd).resolve_left (fun he => hoff _ he rfl)
  refine ⟨fun p v b hd => h.ports p v b (hdid p v b hd), ?_, ?_, ?_, ?_⟩
  · rw [hacc, hacc]
    exact h.exclusive
  · intro p b hd
    rw [hacc]
    exact h.untracked p b (hdid p _ b hd)
  · intro p b h' hs
    rw [hes] at hs
    exact h.asked p b h' (suffix_of_suffix_append hs (fun he => hoff _ he rfl))
  · intro v
    rw [hinfos, hacc]
    exact h.flags v

end Offers

/-- The state after `delete_frame`, where no frame has a twin. -/
def erased (k : Key) (es : List (Event Unit Op Op.Ans)) (s : Shared Unit) : Shared Unit :=
  ⟨Memory.idle (s.mem.repo.eraseIf FrameInfo.unclaimed k) s.mem.accepted, es ++ s.hist⟩

section Erased

variable {es : List (Event Unit Op Op.Ans)} (hes : ∀ e ∈ es, e.op.offered = none)

include hes

theorem Works.of_erased : Works [k] s (erased k es s) where
  hist := by
    refine ⟨es, rfl, fun e he j hj => ?_⟩
    rw [hes e he] at hj
    cases hj
  accepted _ _ _ := Iff.rfl
  grows _ h := h
  frame j hj := Repository.frame_eraseIf_of_ne (fun h => hj (List.mem_singleton.mpr h))
  stored j g h := (Repository.frame_eraseIf.mp h).1
  infos g _ := congrFun (Repository.infos_eraseIf s.mem.repo) g
  rgbaLen g := congrArg FrameInfo.rgbaLen (congrFun (Repository.infos_eraseIf s.mem.repo) g)
  free h := ⟨rfl, (Repository.stereoFrames_eraseIf s.mem.repo).trans h.2⟩

theorem Offers.of_erased (h : Offers P k f s) : Offers P k f (erased k es s) := by
  apply h.of_hist es rfl
  · intro e he hk
    rw [hes e he] at hk
    cases hk
  · exact fun u => Iff.rfl
  · exact congrFun (Repository.infos_eraseIf s.mem.repo) f

theorem Settled.of_erased (h : Offers P k f s) (hf : s.mem.repo.frame k = some f)
    (isDeleted : Prop) : Settled P k f isDeleted (erased k es s) where
  toOffers := h.of_erased hes
  kept u hu := by
    apply Repository.frame_eraseIf.mpr
    refine ⟨hf, fun hfree => ?_⟩
    have hflag := (FrameInfo.unclaimed_iff _).mp hfree.2 u
    rw [(h.flags u).mpr hu] at hflag
    cases hflag
  removed hnone _ := by
    have hclear : (s.mem.repo.infos f).unclaimed = true := by
      rw [FrameInfo.unclaimed_iff]
      intro u
      have hflag := (h.flags u).not.mpr (hnone u)
      simpa using hflag
    have herase : s.mem.repo.eraseIf FrameInfo.unclaimed k = s.mem.repo.eraseFrame k :=
      Repository.eraseIf_of_lets ⟨f, hf, hclear⟩
    change (s.mem.repo.eraseIf FrameInfo.unclaimed k).frame k = none
    rw [herase, Repository.frame_eraseFrame_self]

end Erased

theorem Settled.of_works {isDeleted : Prop} {keys : List Key} (h : Settled P k f isDeleted s)
    (hw : Works keys s s') (hk : k ∉ keys) (hf : ∀ j ∈ keys, s.mem.repo.frame j ≠ some f) :
    Settled P k f isDeleted s' := by
  obtain ⟨es, hes, hkeys⟩ := hw.hist
  refine ⟨h.toOffers.of_hist es hes (fun e he hoff => hk (hkeys e he k hoff))
    (fun u => hw.accepted k u hk) (hw.infos f hf), fun u hu => ?_, fun hnone hthere => ?_⟩
  · rw [hw.frame k hk]
    exact h.kept u ((hw.accepted k u hk).mp hu)
  · rw [hw.frame k hk]
    exact h.removed (fun u hu => hnone u ((hw.accepted k u hk).mpr hu)) hthere

end States

end ARArch

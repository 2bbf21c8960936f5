import ARArch.StereoPairing

/-!
# Stale pairs

`delete_frame` forgets the pair of the frame it removes, also when the twin is in use and stays.
`delete_all_frames` and `clear_queued` remove frames and leave the table of pairs alone, so that
the entry of a paired frame outlives the frame.
-/

namespace ARArch

/-- A `stereo_pair` call linked `k` with `w`, in either order. -/
def PairedWith (done : History) (k w : Key) : Prop :=
  ∃ d ∈ done, d.request = .stereoPair k w ∨ d.request = .stereoPair w k

def Linked (done : History) (k : Key) : Prop := ∃ d ∈ done, k ∈ d.request.linked

/-- The entry under the hash of `k` is the one made for `k`. -/
def OwnsEntry (done : History) (r : Repository) (k : Key) : Prop :=
  ∃ w, r.stereoFrames (pairHasher k) = some w ∧ PairedWith done k w

/-- Each entry left is the entry of a frame that is still stored. -/
def NoStalePairs (done : History) (r : Repository) : Prop :=
  ∀ h w, r.stereoFrames h = some w →
    ∃ k, pairHasher k = h ∧ PairedWith done k w ∧ (r.frame k).isSome

/-- A `stereo_pair` call names two stored frames, and no two keys paired so far share a hash. -/
def PairsStoredFrames (done : History) (r : Repository) (q : Request) : Prop :=
  ∀ k ∈ q.linked, (r.frame k).isSome ∧
    ∀ k', (k' ∈ q.linked ∨ Linked done k') → pairHasher k' = pairHasher k → k' = k

/-- `clear_queued` and `delete_all_frames` remove no frame that has an entry of its own. -/
def SparesPaired (done : History) (r : Repository) : Request → Prop
  | .clearQueued c => ∀ k, k.1 = c → (r.frame k).isSome → ¬ OwnsEntry done r k
  | .deleteAllFrames s =>
    ∀ c ∈ r.cameras, r.lets FrameInfo.undetected (c, s) → ¬ OwnsEntry done r (c, s)
  | _ => True

theorem PairedWith.linked {done : History} {k w : Key} (h : PairedWith done k w) :
    Linked done k := by
  obtain ⟨d, hd, hq⟩ := h
  refine ⟨d, hd, ?_⟩
  rcases hq with hq | hq <;> simp [hq, Request.linked]

theorem PairedWith.cons {done : History} {k w : Key} (d : Done Request Request.Ans)
    (h : PairedWith done k w) : PairedWith (d :: done) k w := by
  obtain ⟨e, he, hq⟩ := h
  exact ⟨e, List.mem_cons_of_mem d he, hq⟩

theorem PairedWith.of_cons {done : History} {q : Request} {a : q.Ans} {k w : Key}
    (h : PairedWith (⟨q, a⟩ :: done) k w) (hq : q.linked = []) : PairedWith done k w := by
  obtain ⟨e, he, hk⟩ := h
  rcases List.mem_cons.mp he with rfl | he
  · have hk : q = .stereoPair k w ∨ q = .stereoPair w k := hk
    rcases hk with hk | hk <;> rw [hk] at hq <;> cases hq
  · exact ⟨e, he, hk⟩

/-- No two keys that were ever paired share a hash. -/
theorem linked_hashes_distinct {P : History → Repository → Request → Prop}
    (hP : ∀ done r q, P done r q → PairsStoredFrames done r q) {r₀ r : Repository}
    {done : History} (h : Session Repository.respond P r₀ done r) {k k' : Key}
    (hk : Linked done k) (hk' : Linked done k') (he : pairHasher k' = pairHasher k) : k' = k := by
  induction h with
  | start =>
      obtain ⟨d, hd, _⟩ := hk
      cases hd
  | @call done r r' q a _ hok _ ih =>
      have hq := hP _ _ _ hok
      have hsplit {j : Key} (hj : Linked (⟨q, a⟩ :: done) j) : j ∈ q.linked ∨ Linked done j := by
        obtain ⟨d, hd, hm⟩ := hj
        rcases List.mem_cons.mp hd with rfl | hd
        · exact Or.inl hm
        · exact Or.inr ⟨d, hd, hm⟩
      rcases hsplit hk with hk | hk
      · exact (hq k hk).2 k' (hsplit hk') he
      · rcases hsplit hk' with hk' | hk'
        · exact ((hq k' hk').2 k (Or.inr hk) he.symm).symm
        · exact ih hk hk'

namespace NoStalePairs

variable {done : History} {r r' : Repository}

/-- Entries that stay, of frames that stay. -/
theorem mono (h : NoStalePairs done r) (d : Done Request Request.Ans)
    (hentries : ∀ x w, r'.stereoFrames x = some w → r.stereoFrames x = some w)
    (hframes : ∀ k w, r'.stereoFrames (pairHasher k) = some w → PairedWith done k w →
      (r.frame k).isSome → (r'.frame k).isSome) :
    NoStalePairs (d :: done) r' := by
  intro x w hx
  obtain ⟨k, rfl, hp, hf⟩ := h x w (hentries x w hx)
  exact ⟨k, rfl, hp.cons d, hframes k w hx hp hf⟩

theorem stereoPair (h : NoStalePairs done r) {k1 k2 : Key}
    (hok : PairsStoredFrames done r (.stereoPair k1 k2)) :
    NoStalePairs (⟨.stereoPair k1 k2, ()⟩ :: done) (r.stereoPair k1 k2) := by
  have h1 := (hok k1 (by simp [Request.linked])).1
  have h2 := (hok k2 (by simp [Request.linked])).1
  intro x w hx
  rw [Repository.stereoFrames_stereoPair] at hx
  split_ifs at hx with hx2 hx1
  · cases hx
    exact ⟨k2, hx2.symm, ⟨_, List.mem_cons_self, Or.inr rfl⟩, h2⟩
  · cases hx
    exact ⟨k1, hx1.symm, ⟨_, List.mem_cons_self, Or.inl rfl⟩, h1⟩
  · obtain ⟨k, hk, hp, hf⟩ := h x w hx
    exact ⟨k, hk, hp.cons _, hf⟩

/-- The frames that go with `delete_frame` take their entries along. -/
theorem deleteFrame (h : NoStalePairs done r) (k : Key) (d : Done Request Request.Ans) :
    NoStalePairs (d :: done) (r.deleteFrame k) := by
  by_cases hl : r.lets FrameInfo.unclaimed k
  · cases ht : r.stereoFrames (pairHasher k) with
    | none =>
        rw [Repository.deleteFrame_of_unpaired ht, Repository.eraseIf_of_lets hl]
        refine h.mono d (fun x w hx => hx) ?_
        intro j w hj _ hf
        have hjk : j ≠ k := by
          rintro rfl
          rw [Repository.stereoFrames_eraseFrame, ht] at hj
          cases hj
        rwa [Repository.frame_eraseFrame_of_ne r hjk]
    | some twin =>
        rw [Repository.deleteFrame_of_paired ht hl]
        let r' := (r.eraseFrame k).eraseIf FrameInfo.undetected twin
        have ht' : r'.stereoFrames (pairHasher k) = some twin := by
          rw [Repository.stereoFrames_eraseIf, Repository.stereoFrames_eraseFrame, ht]
        have hentry (x : ℕ) (w : Key) : (r'.deleteStereoPair k).stereoFrames x = some w ↔
            x ≠ pairHasher k ∧ x ≠ pairHasher twin ∧ r'.stereoFrames x = some w :=
          Repository.stereoFrames_deleteStereoPair ht'
        refine h.mono d ?_ ?_
        · intro x w hx
          have hx' := ((hentry x w).mp hx).2.2
          rwa [Repository.stereoFrames_eraseIf] at hx'
        · intro j w hj _ hf
          obtain ⟨hk, htw, _⟩ := (hentry _ w).mp hj
          have hjk : j ≠ k := fun he => hk (by rw [he])
          have hjt : j ≠ twin := fun he => htw (by rw [he])
          rw [Repository.frame_deleteStereoPair, Repository.frame_eraseIf_of_ne hjt,
            Repository.frame_eraseFrame_of_ne r hjk]
          exact hf
  · rw [Repository.deleteFrame_of_not_lets hl]
    exact h.mono d (fun x w hx => hx) (fun j w _ _ hf => hf)

/-- A frame removed without its entry leaves the entry stale. -/
theorem not_of_removed {q : Request} {a : q.Ans} (hq : q.linked = [])
    (hdistinct : ∀ k k', Linked done k → Linked done k' → pairHasher k' = pairHasher k → k' = k)
    (hentries : r'.stereoFrames = r.stereoFrames) {k : Key} (ho : OwnsEntry done r k)
    (hf : r'.frame k = none) : ¬ NoStalePairs (⟨q, a⟩ :: done) r' := by
  intro h
  obtain ⟨w, hw, hp⟩ := ho
  rw [← hentries] at hw
  obtain ⟨k', hk', hp', hf'⟩ := h _ w hw
  rw [hdistinct k k' hp.linked (hp'.of_cons hq).linked hk', hf] at hf'
  cases hf'

theorem clearQueued_iff (h : NoStalePairs done r)
    (hdistinct : ∀ k k', Linked done k → Linked done k' → pairHasher k' = pairHasher k → k' = k)
    (c : CameraId) :
    NoStalePairs (⟨.clearQueued c, ()⟩ :: done) (r.clearQueued c) ↔
      SparesPaired done r (.clearQueued c) := by
  have hentries : (r.clearQueued c).stereoFrames = r.stereoFrames := rfl
  constructor
  · intro h' k hk _ ho
    refine not_of_removed rfl hdistinct hentries ho ?_ h'
    rw [Repository.frame_clearQueued, if_pos hk]
  · intro hs
    refine h.mono _ (fun x w hx => hx) ?_
    intro k w hw hp hf
    have hc : k.1 ≠ c := fun hc => hs k hc hf ⟨w, hw, hp⟩
    rwa [Repository.frame_clearQueued, if_neg hc]

theorem deleteAllFrames_iff (h : NoStalePairs done r)
    (hdistinct : ∀ k k', Linked done k → Linked done k' → pairHasher k' = pairHasher k → k' = k)
    (s : SeqNo) :
    NoStalePairs (⟨.deleteAllFrames s, ()⟩ :: done) (r.deleteAllFrames s) ↔
      SparesPaired done r (.deleteAllFrames s) := by
  have hentries := Repository.stereoFrames_deleteAllFrames (s := s) r
  constructor
  · rintro h' c hc ⟨f, hf, hd⟩ ho
    refine not_of_removed rfl hdistinct hentries ho ?_ h'
    by_contra hn
    obtain ⟨g, hg⟩ := Option.ne_none_iff_exists'.mp hn
    rw [Repository.frame_deleteAllFrames, hf] at hg
    obtain ⟨hfg, hn'⟩ := hg
    cases hfg
    exact hn' ⟨hc, rfl, hd⟩
  · intro hs
    refine h.mono _ (fun x w hx => by rwa [hentries] at hx) ?_
    intro k w hw hp hf
    rw [hentries] at hw
    obtain ⟨f, hf⟩ := Option.isSome_iff_exists.mp hf
    have hf' : (r.deleteAllFrames s).frame k = some f := by
      rw [Repository.frame_deleteAllFrames]
      refine ⟨hf, ?_⟩
      rintro ⟨hc, hks, hd⟩
      have hk : k = (k.1, s) := Prod.ext rfl hks
      rw [hk] at hf hw hp
      exact hs k.1 hc ⟨f, hf, hd⟩ ⟨w, hw, hp⟩
    rw [hf']
    rfl

theorem deleteStereoPair (h : NoStalePairs done r) (k : Key) (d : Done Request Request.Ans) :
    NoStalePairs (d :: done) (r.deleteStereoPair k) := by
  refine h.mono d ?_ ?_
  · intro x w hx
    cases ht : r.stereoFrames (pairHasher k) with
    | none => rwa [Repository.deleteStereoPair_of_none ht] at hx
    | some twin => exact ((Repository.stereoFrames_deleteStereoPair ht).mp hx).2.2
  · intro j w _ _ hf
    rwa [Repository.frame_deleteStereoPair]

/-- The calls that leave the pair map alone and remove no frame. -/
theorem of_same (h : NoStalePairs done r) (d : Done Request Request.Ans)
    (hs : r'.stereoFrames = r.stereoFrames)
    (hf : ∀ k f, r.frame k = some f → r'.frame k = some f) : NoStalePairs (d :: done) r' := by
  refine h.mono d (fun x w hx => by rwa [hs] at hx) ?_
  intro k w _ _ hk
  obtain ⟨f, hk⟩ := Option.isSome_iff_exists.mp hk
  rw [hf k f hk]
  rfl

/-- One call: no entry becomes stale exactly when the call spares the paired frames. -/
theorem step_iff (h : NoStalePairs done r)
    (hdistinct : ∀ k k', Linked done k → Linked done k' → pairHasher k' = pairHasher k → k' = k)
    {q : Request} {a : q.Ans} (hok : PairsStoredFrames done r q)
    (hq : r.respond q = some (a, r')) :
    NoStalePairs (⟨q, a⟩ :: done) r' ↔ SparesPaired done r q := by
  rw [Repository.respond_eq] at hq
  cases q with
  | clearQueued c =>
      cases hq
      exact h.clearQueued_iff hdistinct c
  | deleteAllFrames s =>
      cases hq
      exact h.deleteAllFrames_iff hdistinct s
  | stereoPair k1 k2 =>
      cases hq
      exact iff_of_true (h.stereoPair hok) trivial
  | deleteFrame c s =>
      cases hq
      exact iff_of_true (h.deleteFrame (c, s) _) trivial
  | deleteStereoPair c s =>
      cases hq
      exact iff_of_true (h.deleteStereoPair (c, s) _) trivial
  | getFrame c s =>
      obtain ⟨b, _, hb⟩ := Option.map_eq_some_iff.mp hq
      cases hb
      exact iff_of_true (h.of_same _ rfl (fun _ _ hf => hf)) trivial
  | newFrame c f =>
      cases hq
      exact iff_of_true (h.of_same _ (Repository.stereoFrames_newFrame r c f)
        (fun k g hg => Repository.frame_newFrame_of_some c f hg)) trivial
  | newStereoFrame c1 f1 c2 f2 =>
      cases hq
      exact iff_of_true (h.of_same _ (Repository.stereoFrames_newStereoFrame r c1 c2 f1 f2)
        (fun k g hg => Repository.frame_newStereoFrame_of_some c1 c2 f1 f2 hg)) trivial
  | nextSeqno c =>
      cases hq
      exact iff_of_true (h.of_same _ (Repository.stereoFrames_nextSeqno r c)
        (fun k g hg => by rw [Repository.frame_nextSeqno, hg])) trivial
  | addCamera c =>
      have hr : (r.addCamera c).2 = r' := congrArg Prod.snd (Option.some.inj hq)
      rw [← hr]
      exact iff_of_true (h.of_same _ (Repository.stereoFrames_addCamera r c)
        (fun k g hg => by rw [Repository.frame_addCamera, hg])) trivial
  | hardwareAddCamera c =>
      have hr : (r.hardwareAddCamera c).2 = r' := congrArg Prod.snd (Option.some.inj hq)
      rw [← hr]
      exact iff_of_true (h.of_same _ (Repository.stereoFrames_hardwareAddCamera r c)
        (fun k g hg => by rw [Repository.frame_hardwareAddCamera, hg])) trivial
  | _ =>
      cases hq
      exact iff_of_true (h.of_same _ rfl (fun _ _ hf => hf)) trivial

end NoStalePairs

/-- In a run whose calls all spare the paired frames no entry is stale, and the next call keeps it
so exactly if it spares them too. -/
theorem no_stale_pairs {r₀ : Repository} (h₀ : r₀.stereoFrames = Table.empty) {done : History}
    {r : Repository}
    (h : Session Repository.respond
      (fun done r q => PairsStoredFrames done r q ∧ SparesPaired done r q) r₀ done r) :
    NoStalePairs done r ∧ ∀ q a r', PairsStoredFrames done r q → r.respond q = some (a, r') →
      (NoStalePairs (⟨q, a⟩ :: done) r' ↔ SparesPaired done r q) := by
  have hdistinct {done : History} {r : Repository}
      (h : Session Repository.respond
        (fun done r q => PairsStoredFrames done r q ∧ SparesPaired done r q) r₀ done r)
      (k k' : Key) (hk : Linked done k) (hk' : Linked done k')
      (he : pairHasher k' = pairHasher k) : k' = k :=
    linked_hashes_distinct (fun _ _ _ hP => hP.1) h hk hk' he
  have hrun : NoStalePairs done r := by
    induction h with
    | start =>
        intro x w hx
        rw [h₀] at hx
        cases hx
    | call h hok hq ih => exact (ih.step_iff (hdistinct h) hok.1 hq).mpr hok.2
  exact ⟨hrun, fun q a r' hok hq => hrun.step_iff (hdistinct h) hok hq⟩

/-- Two frames, the first of cameras 0 and 1, registered and paired. -/
def onePair : Repository := ((({} : Repository).newFrame 0 0).newFrame 1 1).stereoPair (0, 0) (1, 0)

def onePairCalls : History :=
  [⟨.stereoPair (0, 0) (1, 0), ()⟩, ⟨.newFrame 1 1, 0⟩, ⟨.newFrame 0 0, 0⟩]

theorem onePair_session {P : History → Repository → Request → Prop}
    (hP : ∀ done r q, PairsStoredFrames done r q → SparesPaired done r q → P done r q) :
    Session Repository.respond P {} onePairCalls onePair := by
  have hframe (done : History) (r : Repository) (c : CameraId) (f : FrameRef) :
      P done r (.newFrame c f) := hP _ _ _ (fun k hk => by cases hk) trivial
  have hpair : PairsStoredFrames [⟨.newFrame 1 1, 0⟩, ⟨.newFrame 0 0, 0⟩]
      ((({} : Repository).newFrame 0 0).newFrame 1 1) (.stereoPair (0, 0) (1, 0)) := by
    intro k hk
    have hno (k' : Key) : ¬ Linked [⟨.newFrame 1 1, 0⟩, ⟨.newFrame 0 0, 0⟩] k' := by
      rintro ⟨d, hd, hm⟩
      simp only [List.mem_cons, List.not_mem_nil, or_false] at hd
      rcases hd with rfl | rfl <;> cases hm
    simp only [Request.linked, List.mem_cons, List.not_mem_nil, or_false] at hk
    refine ⟨by rcases hk with rfl | rfl <;> decide, ?_⟩
    intro k' hk' he
    have hk' := hk'.resolve_right (hno k')
    simp only [Request.linked, List.mem_cons, List.not_mem_nil, or_false] at hk'
    rcases hk with rfl | rfl <;> rcases hk' with rfl | rfl <;> revert he <;> decide
  have h0 : Session Repository.respond P {} [] {} := .start
  have h1 := h0.call (hframe _ _ 0 0) (Repository.respond_eq _ _)
  have h2 := h1.call (hframe _ _ 1 1) (Repository.respond_eq _ _)
  exact h2.call (hP _ _ _ hpair trivial) (Repository.respond_eq _ _)

theorem no_stale_pairs_onePair : NoStalePairs onePairCalls onePair :=
  (no_stale_pairs rfl (onePair_session (fun _ _ _ hp hs => ⟨hp, hs⟩))).1

/-- Clearing the frames of camera 0 leaves the entry of its paired frame. -/
theorem clearQueued_leaves_stale_pair :
    ∃ done r, Session Repository.respond PairsStoredFrames {} done r ∧ ¬ NoStalePairs done r := by
  have hs := onePair_session (P := PairsStoredFrames) (fun _ _ _ hp _ => hp)
  have hok : PairsStoredFrames onePairCalls onePair (.clearQueued 0) := fun k hk => by cases hk
  refine ⟨_, _, hs.call hok (Repository.respond_eq _ _), ?_⟩
  intro h
  obtain ⟨k, hk, ⟨d, hd, hp⟩, hf⟩ := h 0 (1, 0) (by decide)
  simp only [onePairCalls, List.mem_cons, List.not_mem_nil, or_false] at hd
  rcases hd with rfl | rfl | rfl | rfl
  · rcases hp with hp | hp <;> cases hp
  · rcases hp with hp | hp <;> cases hp
    revert hf
    decide
  · rcases hp with hp | hp <;> cases hp
  · rcases hp with hp | hp <;> cases hp

end ARArch

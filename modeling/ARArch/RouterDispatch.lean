import ARArch.DispatchSteps
import ARArch.RouterOffers

/-!
# What the router does with a frame

The body of a router on one message, alone and recorded. Which consumers are busy and which ports
accept may depend on everything that the router has done before. Per frame the four cases of the
switch come to one decision: whom the frame is offered to, which flags are set, and whether it
stays.

The router comes to the keys in front of the first entry without a camera; what is named behind
that entry it does not see.
-/

namespace ARArch

open Atomic

/-- The keys that the router comes to, in their order. -/
def CameraFrame.routed (m : CameraFrame) : List Key :=
  if m.count = 0 then []
  else Call.named (((List.ofFn m.cameras).takeWhile (fun d => d.cameraId ≠ noCamera)).flatMap
    (fun d => [(d.cameraId, d.seqno1), (d.camera2Id, d.seqno2)]))

/-- Whether the environment accepts, or is busy, after the calls made so far. -/
abbrev Answers := List (Event Unit Op Op.Ans) → Op → Bool

/-- The calls of a router that runs alone, with its record. -/
abbrev recording (answer : Answers) : (i : Op) → Shared Unit → Option (i.Ans × Shared Unit) :=
  record Memory.exec answer ()

namespace Call

variable (answer : Answers) {map : CameraId → Option TBBRouterParameters}
  {params : TBBRouterParameters} {port : ℕ} {c : CameraId} {n : SeqNo} {k : Key} {f : FrameRef}
  {u : Consumer} {s : Shared Unit} {α : Type}

theorem exec_of_outer (i : Op) (b b' : Bool) (m : Memory Unit) (hi : i.outer = none) :
    Memory.exec b () i m = Memory.exec b' () i m := by
  cases i
  case busy c u => cases hi
  case tryPut port c n u => cases hi
  case insertFrame p n f => cases p <;> rfl
  all_goals rfl

theorem offered_of_outer {i : Op} (hi : i.outer = none) : i.offered = none := by
  cases i
  case tryPut port c n u => cases hi
  all_goals rfl

/-- A call of the repository leaves what it leaves without a record, and makes no offers. -/
theorem run_inner {p : Call α} (hp : Inner p) {r' : Repository} {a : α} (hs : Free s)
    (hrun : p.alone (fun _ => false) (Memory.idle s.mem.repo s.mem.accepted) =
      some (a, Memory.idle r' s.mem.accepted)) :
    ∃ es, p.run (recording answer) s =
        some (a, ⟨Memory.idle r' s.mem.accepted, es ++ s.hist⟩) ∧
      ∀ e ∈ es, e.op.offered = none := by
  rw [← hs.1] at hrun
  obtain ⟨es, hes, houter⟩ := run_record_of_within exec_of_outer hp hrun s.hist
  exact ⟨es, hes, fun e he => offered_of_outer (houter e he)⟩

/-- What `get_frame` leaves of a frame that has colour data. -/
theorem run_getFrame (hs : Free s)
    (hdata : ∀ g, s.mem.repo.frame (c, n) = some g → 0 < (s.mem.repo.infos g).rgbaLen) :
    ∃ es, (getFrame c n).run (recording answer) s =
        some (s.mem.repo.frame (c, n), ⟨s.mem, es ++ s.hist⟩) ∧
      ∀ e ∈ es, e.op.offered = none := by
  have hget : s.mem.repo.getFrame (c, n) = some (s.mem.repo.frame (c, n)) := by
    unfold Repository.getFrame
    cases hf : s.mem.repo.frame (c, n) with
    | none => rfl
    | some g => exact if_pos (hdata g hf)
  have hrun := alone_getFrame (fun _ => false) s.mem.repo s.mem.accepted c n
  rw [hget, Option.map_some] at hrun
  obtain ⟨es, hes, hoff⟩ := run_inner answer inner_getFrame hs hrun
  rw [← hs.1] at hes
  exact ⟨es, hes, hoff⟩

theorem run_deleteFrame (hs : Free s) :
    ∃ es, (deleteFrame c n).run (recording answer) s = some ((), erased (c, n) es s) ∧
      ∀ e ∈ es, e.op.offered = none := by
  have htwin : s.mem.repo.stereoFrames (pairHasher (c, n)) = none := by
    rw [hs.2]
    rfl
  have hrun := alone_deleteFrame (fun _ => false) s.mem.repo s.mem.accepted c n
  rw [Repository.deleteFrame_of_unpaired htwin] at hrun
  exact run_inner answer inner_deleteFrame hs hrun

/-- What follows on an offer runs from the state that the offer leaves. -/
theorem run_tryPut (port : ℕ) (c : CameraId) (n : SeqNo) (f : FrameRef) (u : Consumer)
    (s : Shared Unit) (p : Bool → Call α) : ∃ a,
    (perform (.tryPut port c n u) >>= fun b =>
      if b then perform (.store f u true) >>= fun _ => p true else p false).run
        (recording answer) s = (p a).run (recording answer) (answered port (c, n) f u a s) := by
  cases ha : answer s.hist (.tryPut port c n u) with
  | false =>
      refine ⟨false, ?_⟩
      simp [recording, record, ha, Memory.exec, answered, noted]
  | true =>
      refine ⟨true, ?_⟩
      simp [recording, record, ha, Memory.exec, Memory.withRepo, answered]

/-- Nothing, the answer that the consumer is busy, or an offer. -/
theorem run_offer (isThere : Bool) (port : ℕ) (c : CameraId) (n : SeqNo) (f : FrameRef)
    (u : Consumer) (s : Shared Unit) :
    ∃ a s', (offer isThere port c n f u).run (recording answer) s = some (a, s') ∧
      ((a = false ∧ s' = s) ∨ (a = false ∧ s' = noted ⟨(), .busy c u, true⟩ s) ∨
        (isThere = true ∧ s' = answered port (c, n) f u a (noted ⟨(), .busy c u, false⟩ s))) := by
  cases isThere with
  | false => exact ⟨false, s, rfl, .inl ⟨rfl, rfl⟩⟩
  | true =>
      have hbusy : recording answer (.busy c u) s = some (answer s.hist (.busy c u),
          noted ⟨(), .busy c u, answer s.hist (.busy c u)⟩ s) := rfl
      cases hb : answer s.hist (.busy c u) with
      | true =>
          rw [hb] at hbusy
          refine ⟨false, _, ?_, .inr (.inl ⟨rfl, rfl⟩)⟩
          simp [offer, hbusy]
      | false =>
          rw [hb] at hbusy
          obtain ⟨a, ha⟩ :=
            run_tryPut answer port c n f u (noted ⟨(), .busy c u, false⟩ s) pure
          refine ⟨a, _, ?_, .inr (.inr ⟨rfl, rfl⟩)⟩
          rw [offer, if_pos rfl, Prog.run_bind, Prog.run_perform, hbusy]
          exact ha

theorem ends_deleteFrame (hs : Free s) (hf : s.mem.repo.frame (c, n) = some f) :
    (deleteFrame c n).Ends (recording answer) s (fun _ s' => Works [(c, n)] s s' ∧
      ∀ P isDeleted, Offers P (c, n) f s → Settled P (c, n) f isDeleted s') := by
  obtain ⟨es, hrun, hes⟩ := run_deleteFrame (c := c) (n := n) answer hs
  exact ⟨(), _, hrun, .of_erased hes, fun P isDeleted h => .of_erased hes h hf isDeleted⟩

/-- The last step for a frame. -/
theorem ends_renderOrDelete (isThere isDelete : Bool) (port : ℕ) (hs : Free s)
    (hf : s.mem.repo.frame (c, n) = some f) :
    (renderOrDelete isThere isDelete port c n f).Ends (recording answer) s
      (fun _ s' => Works [(c, n)] s s' ∧
        ∀ P, (port : ℤ) = P + Consumer.renderer.offset → Offers P (c, n) f s →
          Settled P (c, n) f (isThere = true ∨ isDelete = true) s') := by
  cases isThere with
  | true =>
      obtain ⟨a, ha⟩ := run_tryPut answer port c n f .renderer s
        (fun b => if b then pure () else deleteFrame c n)
      have hworks : Works [(c, n)] s (answered port (c, n) f .renderer a s) := .of_answered hf
      have hoffers (P : ℤ) (hport : (port : ℤ) = P + Consumer.renderer.offset)
          (h : Offers P (c, n) f s) :
          Offers P (c, n) f (answered port (c, n) f .renderer a s) := by
        apply h.of_answered hport
        · intro hu
          cases hu
        · intro hu
          cases hu
      cases a with
      | true =>
          refine ⟨(), _, ha, hworks, fun P hport h => ⟨hoffers P hport h, ?_, ?_⟩⟩
          · exact fun u _ => hf
          · intro hnone
            exact (hnone .renderer (mem_accepted_answered.mpr (.inl ⟨rfl, rfl⟩))).elim
      | false =>
          obtain ⟨b, s', hrun, hdone, hsettled⟩ := ends_deleteFrame answer (hworks.free hs) hf
          exact ⟨b, s', ha.trans hrun, hworks.trans hdone,
            fun P hport h => hsettled P _ (hoffers P hport h)⟩
  | false =>
      cases isDelete with
      | true =>
          obtain ⟨b, s', hrun, hdone, hsettled⟩ := ends_deleteFrame answer hs hf
          exact ⟨b, s', hrun, hdone, fun P _ h => hsettled P _ h⟩
      | false =>
          refine ⟨(), s, rfl, .refl, fun P _ h => ⟨h, fun _ _ => hf, fun _ hdeleted => ?_⟩⟩
          rcases hdeleted with hdeleted | hdeleted
          · cases hdeleted
          · cases hdeleted

/-- One consumer is offered the frame, or is not there, or is busy. -/
theorem ends_offer (isThere : Bool) (port : ℕ) (u : Consumer)
    (hf : s.mem.repo.frame (c, n) = some f) :
    (offer isThere port c n f u).Ends (recording answer) s (fun a s' =>
      Works [(c, n)] s s' ∧ s'.mem.repo.frame (c, n) = some f ∧
        (∀ v, ((c, n), v) ∈ s'.mem.accepted ↔
          (a = true ∧ v = u) ∨ ((c, n), v) ∈ s.mem.accepted) ∧
        ∀ P, (port : ℤ) = P + u.offset → Offers P (c, n) f s →
          (u = .detector → ((c, n), .tracker) ∉ s.mem.accepted ∧
            ∀ p b, ¬ Did s () (.tryPut p c n .tracker) b) →
          (u = .tracker → isThere = true → ((c, n), .detector) ∉ s.mem.accepted) →
          Offers P (c, n) f s') := by
  have hsilent (b : Bool) : ∀ e ∈ [(⟨(), .busy c u, b⟩ : Event Unit Op Op.Ans)],
      e.op.offered = none := by
    intro e he
    rw [List.mem_singleton.mp he]
    rfl
  have hnoted (b : Bool) : Works [(c, n)] s (noted ⟨(), .busy c u, b⟩ s) :=
    .of_silent _ (hsilent b)
  have hbusy (b : Bool) (P : ℤ) (h : Offers P (c, n) f s) :
      Offers P (c, n) f (noted ⟨(), .busy c u, b⟩ s) := by
    apply h.of_hist [⟨(), .busy c u, b⟩] rfl
    · intro e he hk
      rw [hsilent b e he] at hk
      cases hk
    · exact fun v => Iff.rfl
    · rfl
  obtain ⟨a, s', hrun, hcases⟩ := run_offer answer isThere port c n f u s
  refine ⟨a, s', hrun, ?_⟩
  rcases hcases with ⟨rfl, rfl⟩ | ⟨rfl, rfl⟩ | ⟨hthere, rfl⟩
  · exact ⟨.refl, hf, fun v => by simp, fun P _ h _ _ => h⟩
  · exact ⟨hnoted true, hf, fun v => by simp [noted], fun P _ h _ _ => hbusy true P h⟩
  · refine ⟨(hnoted false).trans (.of_answered hf), frame_answered.trans hf, fun v => ?_, ?_⟩
    · simp [mem_accepted_answered, noted]
    · intro P hport h hfirst hfree
      apply (hbusy false P h).of_answered hport
      · intro hu
        refine ⟨(hfirst hu).1, fun p b hd => ?_⟩
        rcases did_noted.mp hd with hd | hd
        · cases hd
        · exact (hfirst hu).2 p b hd
      · intro hu
        subst hu
        exact ⟨hfree rfl hthere, s.hist, rfl⟩

theorem ends_routeFrom (port : ℕ) (hs : Free s) (hf : s.mem.repo.frame (c, n) = some f) :
    (routeFrom port params c n f).Ends (recording answer) s (fun _ s' => Works [(c, n)] s s' ∧
      ((port : ℤ) = params.portStart → Fresh (c, n) f s → Dispatched params (c, n) f s')) := by
  obtain ⟨d, s₁, hrun₁, hworks₁, hf₁, hacc₁, hoffers₁⟩ := ends_offer answer params.detector
    port .detector hf
  obtain ⟨t, s₂, hrun₂, hworks₂, hf₂, hacc₂, hoffers₂⟩ := ends_offer answer (params.tracker && !d)
    (port + 1) .tracker hf₁
  obtain ⟨x, s₃, hrun₃, hworks₃, hsettled⟩ := ends_renderOrDelete answer params.renderer
    (params.isDelete && !d && !t) (port + 2) (hworks₂.free (hworks₁.free hs)) hf₂
  refine ⟨x, s₃, ?_, (hworks₁.trans hworks₂).trans hworks₃, fun hport hfresh => ?_⟩
  · rw [routeFrom, Prog.run_bind, hrun₁, Option.bind_some, Prog.run_bind, hrun₂,
      Option.bind_some]
    exact hrun₃
  · have hdetected : Offers params.portStart (c, n) f s₁ := by
      apply hoffers₁ _ _ (.of_fresh hfresh)
      · exact fun _ => ⟨hfresh.unaccepted _, fun p b hd => hfresh.unoffered _ hd rfl⟩
      · intro hu
        cases hu
      · simp [Consumer.offset, hport]
    have htracked : Offers params.portStart (c, n) f s₂ := by
      apply hoffers₂ _ _ hdetected
      · intro hu
        cases hu
      · intro _ hthere hmem
        rcases (hacc₁ _).mp hmem with ⟨hd, _⟩ | hmem
        · simp [hd] at hthere
        · exact hfresh.unaccepted _ hmem
      · simp [Consumer.offset, hport]
    have hrendered := hsettled params.portStart (by simp [Consumer.offset, hport]) htracked
    refine ⟨hrendered.toOffers, hrendered.kept, fun hnone hthere => hrendered.removed hnone ?_⟩
    have hd : d = false := by
      by_contra hd
      have hmem := (hacc₁ .detector).mpr (.inl ⟨by simpa using hd, rfl⟩)
      exact hnone _ (hworks₃.grows (hworks₂.grows hmem))
    have ht : t = false := by
      by_contra ht
      have hmem := (hacc₂ .tracker).mpr (.inl ⟨by simpa using ht, rfl⟩)
      exact hnone _ (hworks₃.grows hmem)
    simpa [hd, ht] using hthere

theorem ends_routeFrame (hs : Free s) (hf : s.mem.repo.frame (c, n) = some f) :
    (routeFrame params c n f).Ends (recording answer) s (fun _ s' => Works [(c, n)] s s' ∧
      (params.portStart ∈ [0, 3, 6, 9] → Fresh (c, n) f s →
        Dispatched params (c, n) f s')) := by
  have hfrom (port : ℕ) (hport : params.portStart = port) :
      (routeFrom port params c n f).Ends (recording answer) s (fun _ s' =>
        Works [(c, n)] s s' ∧ (params.portStart ∈ [0, 3, 6, 9] → Fresh (c, n) f s →
          Dispatched params (c, n) f s')) :=
    (ends_routeFrom answer port hs hf).mono (fun _ _ h => ⟨h.1, fun _ => h.2 hport.symm⟩)
  unfold routeFrame
  split
  · exact hfrom 0 ‹_›
  · exact hfrom 3 ‹_›
  · exact hfrom 6 ‹_›
  · exact hfrom 9 ‹_›
  · rename_i h0 h3 h6 h9
    refine ⟨(), s, rfl, .refl, fun hports => ?_⟩
    simp only [List.mem_cons, List.not_mem_nil, or_false] at hports
    rcases hports with h | h | h | h
    · exact (h0 h).elim
    · exact (h3 h).elim
    · exact (h6 h).elim
    · exact (h9 h).elim

theorem ends_routeKey (hs : Free s)
    (hdata : ∀ g, s.mem.repo.frame (c, n) = some g → 0 < (s.mem.repo.infos g).rgbaLen) :
    (routeKey map c n).Ends (recording answer) s (fun _ s' => Works [(c, n)] s s' ∧
      ∀ params f, n ≠ 0 → map c = some params → params.portStart ∈ [0, 3, 6, 9] →
        Fresh (c, n) f s → Dispatched params (c, n) f s') := by
  unfold routeKey
  split_ifs with hn
  · exact ⟨(), s, rfl, .refl, fun _ _ hne => (hne hn).elim⟩
  · obtain ⟨es, hget, hes⟩ := run_getFrame answer hs hdata
    have hsilent : Works [(c, n)] s ⟨s.mem, es ++ s.hist⟩ := .of_silent _ hes
    have hfresh {f : FrameRef} (h : Fresh (c, n) f s) :
        Fresh (c, n) f ⟨s.mem, es ++ s.hist⟩ :=
      h.of_works (.of_silent [] hes) List.not_mem_nil (fun j hj => (List.not_mem_nil hj).elim)
    rw [Prog.ends_bind]
    refine ⟨_, _, hget, ?_⟩
    cases hf : s.mem.repo.frame (c, n) with
    | none =>
        refine ⟨(), _, rfl, hsilent, fun params f _ _ _ h => ?_⟩
        rw [h.stored] at hf
        cases hf
    | some g =>
        cases hmap : map c with
        | none =>
            refine ⟨(), _, rfl, hsilent, fun params f _ hparams => ?_⟩
            cases hparams
        | some params =>
            refine (ends_routeFrame answer (hsilent.free hs) hf).mono ?_
            rintro _ s' ⟨hworks, hdispatched⟩
            refine ⟨hsilent.trans hworks, fun params' f _ hparams hports h => ?_⟩
            cases hparams
            have hg : f = g := Option.some.inj (h.stored.symm.trans hf)
            subst hg
            exact hdispatched hports (hfresh h)

/-- The router at work on one key after the other. -/
def routeAll (map : CameraId → Option TBBRouterParameters) (keys : List Key) : Call Unit :=
  Prog.forEach (fun k => routeKey map k.1 k.2) keys

theorem ends_routeAll (keys : List Key) (hs : Free s)
    (hdata : Colored keys s) :
    (routeAll map keys).Ends (recording answer) s (fun _ s' => Works keys s s') := by
  induction keys generalizing s with
  | nil => exact ⟨(), s, rfl, .refl⟩
  | cons k keys ih =>
      obtain ⟨hkey, hrest⟩ := colored_cons.mp hdata
      rw [routeAll, Prog.forEach, Prog.ends_bind]
      refine (ends_routeKey answer hs hkey).mono ?_
      rintro _ s' ⟨hworks, _⟩
      refine (ih (hworks.free hs) (hworks.colored hrest)).mono (fun _ s'' h => ?_)
      exact (hworks.mono (by simp)).trans (h.mono (by simp))

/-- A frame that is named once, and whose object no other key named leads to. -/
theorem ends_routeAll_of_fresh {l l' : List Key} (hs : Free s)
    (hdata : Colored (l ++ k :: l') s) (hk : k ∉ l) (hk' : k ∉ l') (hseq : k.2 ≠ 0)
    (hmap : map k.1 = some params)
    (hports : params.portStart ∈ [0, 3, 6, 9]) (hfresh : Fresh k f s)
    (hother : ∀ j ∈ l ++ l', s.mem.repo.frame j ≠ some f) :
    (routeAll map (l ++ k :: l')).Ends (recording answer) s
      (fun _ s' => Dispatched params k f s') := by
  induction l generalizing s with
  | nil =>
      obtain ⟨hkey, hrest⟩ := colored_cons.mp hdata
      rw [List.nil_append, routeAll, Prog.forEach, Prog.ends_bind]
      refine (ends_routeKey answer hs hkey).mono ?_
      rintro _ s' ⟨hworks, hdispatched⟩
      refine (ends_routeAll answer l' (hworks.free hs) (hworks.colored hrest)).mono ?_
      intro _ s'' h
      exact (hdispatched params f hseq hmap hports hfresh).of_works h hk'
        (fun j hj hf => hother j hj (hworks.stored j f hf))
  | cons i l ih =>
      obtain ⟨hkey, hrest⟩ := colored_cons.mp hdata
      rw [List.cons_append, routeAll, Prog.forEach, Prog.ends_bind]
      refine (ends_routeKey answer hs hkey).mono ?_
      rintro _ s' ⟨hworks, _⟩
      have hki : k ∉ [i] := fun h => hk (List.mem_singleton.mp h ▸ List.mem_cons_self)
      have hfresh' : Fresh k f s' := by
        apply hfresh.of_works hworks hki
        intro j hj
        rw [List.mem_singleton.mp hj]
        exact hother i List.mem_cons_self
      apply ih (hworks.free hs) (hworks.colored hrest)
        (fun h => hk (List.mem_cons_of_mem i h)) hfresh'
      intro j hj hf
      exact hother j (List.mem_cons_of_mem i hj) (hworks.stored j f hf)

/-! ### The keys of a message -/

section Keys

variable {σ : Type} (exec : (i : Op) → σ → Option (i.Ans × σ))

/-- A key without a number is passed over. -/
theorem run_routeAll_filter (keys : List Key) (x : σ) :
    (routeAll map (keys.filter (fun k => k.2 ≠ 0))).run exec x =
      (routeAll map keys).run exec x := by
  induction keys generalizing x with
  | nil => rfl
  | cons k keys ih =>
      by_cases hk : k.2 = 0
      · have hkey : routeKey map k.1 k.2 = pure () := if_pos hk
        rw [List.filter_cons_of_neg (by simpa using hk), ih x]
        simp only [routeAll, Prog.run_forEach_cons, hkey]
        rfl
      · rw [List.filter_cons_of_pos (by simpa using hk)]
        simp only [routeAll, Prog.run_forEach_cons] at ih ⊢
        congr 1
        funext q
        exact ih q.2

theorem run_routeKeys (d : CameraFrameData) (hd : d.cameraId ≠ noCamera) (x : σ) :
    (routeKeys map [(d.cameraId, d.seqno1), (d.camera2Id, d.seqno2)]).run exec x =
      (routeAll map (named [(d.cameraId, d.seqno1), (d.camera2Id, d.seqno2)])).run exec x := by
  have hnamed (keys : List Key) : named keys =
      (keys.filter (fun k => k.1 ≠ noCamera)).filter (fun k => k.2 ≠ 0) := by
    rw [named, List.filter_filter]
    congr 1
    funext k
    simp [Bool.and_comm]
  rw [hnamed, run_routeAll_filter]
  by_cases hc : d.camera2Id = noCamera
  · simp [routeKeys, routeAll, hd, hc]
  · simp [routeKeys, routeAll, hd, hc]

theorem run_routeCameras (ds : List CameraFrameData) (x : σ) :
    (routeCameras map ds).run exec x = (routeAll map (named ((ds.takeWhile
      (fun d => d.cameraId ≠ noCamera)).flatMap
        (fun d => [(d.cameraId, d.seqno1), (d.camera2Id, d.seqno2)])))).run exec x := by
  induction ds generalizing x with
  | nil => rfl
  | cons d ds ih =>
      unfold routeCameras
      split_ifs with hd
      · rw [List.takeWhile_cons_of_neg (by simpa using hd)]
        rfl
      · rw [List.takeWhile_cons_of_pos (by simpa using hd), List.flatMap_cons, named,
          List.filter_append, routeAll, Prog.run_forEach_append, Prog.run_bind,
          run_routeKeys exec d hd]
        congr 1
        funext q
        exact ih q.2

theorem run_router (m : CameraFrame) (x : σ) :
    (router map m).run exec x = (routeAll map m.routed).run exec x := by
  unfold router CameraFrame.routed
  split_ifs
  · rfl
  · exact run_routeCameras exec _ x

end Keys

end Call

section Messages

variable {map : CameraId → Option TBBRouterParameters} {m : CameraFrame} {r : Repository}
  {k : Key}

theorem seqno_of_mem_routed (hk : k ∈ m.routed) : k.2 ≠ 0 := by
  unfold CameraFrame.routed at hk
  split_ifs at hk
  · cases hk
  · have hnamed := (List.mem_filter.mp hk).2
    simp only [ne_eq, decide_eq_true_eq] at hnamed
    exact hnamed.2

/-- A key that stands once in a list has a place in it. -/
theorem exists_split_of_count {l : List Key} (h : l.count k = 1) :
    ∃ l₁ l₂, l = l₁ ++ k :: l₂ ∧ k ∉ l₁ ∧ k ∉ l₂ := by
  have hmem : k ∈ l := List.count_pos_iff.mp (by omega)
  obtain ⟨l₁, l₂, hl, hk⟩ := List.eq_append_cons_of_mem hmem
  refine ⟨l₁, l₂, hl, hk, fun hk' => ?_⟩
  have hpos : 0 < l₂.count k := List.count_pos_iff.mpr hk'
  rw [hl, List.count_append, List.count_cons_self] at h
  omega

/-- The router comes to an end where every frame that it comes to has colour data, and has then
dispatched each of them that it comes to once, under one key, and unclaimed. All other frames are
as they were. -/
theorem frames_dispatched (answer : Answers)
    (hports : ∀ c params, map c = some params → params.portStart ∈ [0, 3, 6, 9])
    (hsingle : r.stereoFrames = Table.empty)
    (hdata : ∀ j ∈ m.routed, ∀ g, r.frame j = some g → 0 < (r.infos g).rgbaLen) :
    ∃ s, (Call.router map m).run (recording answer) ⟨Memory.idle r [], []⟩ = some ((), s) ∧
      (∀ k params f, m.routed.count k = 1 → map k.1 = some params → r.frame k = some f →
        (∀ j ∈ m.routed, r.frame j = some f → j = k) → (r.infos f).unclaimed = true →
        Dispatched params k f s) ∧
      (∀ j, j ∉ m.routed → s.mem.repo.frame j = r.frame j) ∧
      ∀ g, (∀ j ∈ m.routed, r.frame j ≠ some g) → s.mem.repo.infos g = r.infos g := by
  have hfree : Free ⟨Memory.idle r [], []⟩ := ⟨rfl, hsingle⟩
  obtain ⟨_, s, hrun, hworks⟩ := Call.ends_routeAll answer m.routed hfree hdata
  refine ⟨s, (Call.run_router _ m _).trans hrun, ?_, hworks.frame, hworks.infos⟩
  intro k params f hcount hmap hf halone hclear
  obtain ⟨l₁, l₂, hl, hk₁, hk₂⟩ := exists_split_of_count hcount
  have hmem : k ∈ m.routed := by simp [hl]
  have hfresh : Fresh k f ⟨Memory.idle r [], []⟩ :=
    ⟨hf, fun _ he => (List.not_mem_nil he).elim, fun _ => List.not_mem_nil, hclear⟩
  have hother (j : Key) (hj : j ∈ l₁ ++ l₂) : r.frame j ≠ some f := by
    intro hjf
    have hjk : j = k := by
      apply halone j _ hjf
      rw [hl]
      rcases List.mem_append.mp hj with hj | hj
      · exact List.mem_append_left _ hj
      · exact List.mem_append_right _ (List.mem_cons_of_mem k hj)
    subst hjk
    rcases List.mem_append.mp hj with hj | hj
    · exact hk₁ hj
    · exact hk₂ hj
  rw [hl] at hrun hdata
  have hends := Call.ends_routeAll_of_fresh answer hfree hdata hk₁ hk₂
    (seqno_of_mem_routed hmem) hmap (hports k.1 params hmap) hfresh hother
  exact hends.leaves () s hrun

end Messages

/-! ### Messages that no source node sends -/

/-- The router dispatches every frame with colour data that a message names, wherever. -/
def DispatchesNamed (answer : Answers) (map : CameraId → Option TBBRouterParameters)
    (m : CameraFrame) (r : Repository) : Prop :=
  ∃ s, (Call.router map m).run (recording answer) ⟨Memory.idle r [], []⟩ = some ((), s) ∧
    (∀ k ∈ m.keys, ∀ params f, map k.1 = some params → r.frame k = some f →
      0 < (r.infos f).rgbaLen → (r.infos f).unclaimed = true → Dispatched params k f s) ∧
    ∀ j, j ∉ m.keys → s.mem.repo.frame j = r.frame j

/-- Cameras 0 and 1 with a frame 1 each. The object 2 is one without colour data. -/
def storedPair (first second : FrameRef) : Repository where
  cameras := [0, 1]
  cameraFrames :=
    (Table.empty.assign 0 (Table.empty.assign 1 first)).assign 1 (Table.empty.assign 1 second)
  infos := fun g => { seqno := 1, rgbaLen := if g = 2 then 0 else 4 }

def consumers (detector tracker renderer : Bool) (c : CameraId) : Option TBBRouterParameters :=
  some
    { portStart := if c = 0 then 0 else 3, detector := detector, tracker := tracker
      renderer := renderer, isDelete := true }

/-- The ports of the trackers accept always, the others until the first claim. -/
def acceptOnce : Answers := fun h i =>
  match i with
  | .tryPut _ _ _ .tracker => true
  | .tryPut _ _ _ _ => h.all fun e =>
    match e.op with
    | .store _ _ _ => false
    | _ => true
  | _ => false

theorem frames_dispatched_one : ∃ s,
    (Call.router (consumers true true true) (CameraFrame.mono 0 1)).run (recording acceptOnce)
      ⟨Memory.idle (storedPair 0 1) [], []⟩ = some ((), s) ∧
    Dispatched
      { portStart := 0, detector := true, tracker := true, renderer := true, isDelete := true }
      (0, 1) 0 s := by
  have hports (c : CameraId) (params : TBBRouterParameters)
      (h : consumers true true true c = some params) : params.portStart ∈ [0, 3, 6, 9] := by
    cases h
    by_cases hc : c = 0 <;> simp [hc]
  have hrouted : (CameraFrame.mono 0 1).routed = [(0, 1)] := by decide
  have hdata (j : Key) (hj : j ∈ (CameraFrame.mono 0 1).routed) (g : FrameRef)
      (hg : (storedPair 0 1).frame j = some g) : 0 < ((storedPair 0 1).infos g).rgbaLen := by
    rw [hrouted] at hj
    cases List.mem_singleton.mp hj
    cases hg
    decide
  obtain ⟨s, hrun, hdispatched, _⟩ := frames_dispatched (m := CameraFrame.mono 0 1)
    (r := storedPair 0 1) acceptOnce hports rfl hdata
  refine ⟨s, hrun, hdispatched (0, 1) _ 0 (by decide) rfl rfl (fun j hj _ => ?_) rfl⟩
  rw [hrouted] at hj
  exact List.mem_singleton.mp hj

/-- A frame named behind an entry without a camera is not looked at. -/
theorem gapped_not_dispatched : ¬ DispatchesNamed acceptOnce (consumers false false true)
    (CameraFrame.set {} 1 0 1) (storedPair 0 1) := by
  rintro ⟨s, hrun, hnamed, _⟩
  cases hrun
  have h := hnamed (0, 1) (by decide) _ 0 rfl rfl (by decide) rfl
  have hnone := h.removed (fun _ => List.not_mem_nil) (.inl rfl)
  cases hnone

/-- A frame named twice can be accepted by the detector and then by the tracker. -/
theorem repeated_not_dispatched : ¬ DispatchesNamed acceptOnce (consumers true true false)
    ((CameraFrame.set {} 0 0 1).set 1 0 1) (storedPair 0 1) := by
  rintro ⟨s, hrun, hnamed, _⟩
  have haccepted : some s.mem.accepted =
      some [((0, 1), Consumer.tracker), ((0, 1), Consumer.detector)] :=
    congrArg (Option.map (fun q : Unit × Shared Unit => q.2.mem.accepted)) hrun.symm
  have h := hnamed (0, 1) (by decide) _ 0 rfl rfl (by decide) rfl
  apply h.exclusive
  rw [Option.some.inj haccepted]
  simp

/-- A frame without colour data keeps the router from the frames behind it. -/
theorem dataless_not_dispatched : ¬ DispatchesNamed acceptOnce (consumers false false true)
    ((CameraFrame.set {} 0 0 1).set 1 1 1) (storedPair 2 1) := by
  rintro ⟨s, hrun, _⟩
  cases hrun

/-- A frame keeps the claims that were made under another key. -/
theorem shared_not_dispatched : ¬ DispatchesNamed acceptOnce (consumers false false true)
    ((CameraFrame.set {} 0 0 1).set 1 1 1) (storedPair 0 0) := by
  rintro ⟨s, hrun, hnamed, _⟩
  have hleft : some (s.mem.accepted, s.mem.repo.frame (1, 1)) =
      some ([((0, 1), Consumer.renderer)], some 0) :=
    congrArg (Option.map (fun q : Unit × Shared Unit =>
      (q.2.mem.accepted, q.2.mem.repo.frame (1, 1)))) hrun.symm
  obtain ⟨haccepted, hframe⟩ := Prod.mk.inj (Option.some.inj hleft)
  have h := hnamed (1, 1) (by decide) _ 0 rfl rfl (by decide) rfl
  have hnone := h.removed (fun u => by simp [haccepted]) (.inl rfl)
  rw [hframe] at hnone
  cases hnone

theorem named_not_dispatched :
    ¬ DispatchesNamed acceptOnce (consumers false false true)
        (CameraFrame.set {} 1 0 1) (storedPair 0 1) ∧
      ¬ DispatchesNamed acceptOnce (consumers true true false)
        ((CameraFrame.set {} 0 0 1).set 1 0 1) (storedPair 0 1) ∧
      ¬ DispatchesNamed acceptOnce (consumers false false true)
        ((CameraFrame.set {} 0 0 1).set 1 1 1) (storedPair 2 1) ∧
      ¬ DispatchesNamed acceptOnce (consumers false false true)
        ((CameraFrame.set {} 0 0 1).set 1 1 1) (storedPair 0 0) :=
  ⟨gapped_not_dispatched, repeated_not_dispatched, dataless_not_dispatched,
    shared_not_dispatched⟩

end ARArch

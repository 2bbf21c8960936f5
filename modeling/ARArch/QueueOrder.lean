import ARArch.CameraQueue

/-!
# Frames pass the queue in order

Every step accounts for the frames it puts into the queue and takes from it, so that at every
moment the frames enqueued are those that have left, in the order in which they left, followed by
those in the queue. The producer's second push cannot fail: after its first failed, it has evicted
a frame or found the queue empty, and since then others have only taken frames.
-/

namespace ARArch

open Atomic

/-! ### The invariant -/

/-- What holds of the queue, at any moment of a run. -/
structure Conserving (T : CameraTraffic) (n : ℕ) (s : CameraShared) : Prop where
  capacity : s.mem.capacity T.id = n
  order : enqueued T.id s.hist = departed T.id s.hist ++ s.mem.queues T.id
  bounded : (s.mem.queues T.id).length ≤ n
  handed : enqueued T.id s.hist <+: T.frames
  once : evictions T.id s.hist ≤ 1
  returned : ∀ t b, ⟨t, .returned b, ()⟩ ∈ s.hist → b = true

/-- A consumer only takes frames from the queue. -/
structure OnlyTakes (T : CameraTraffic) (s s' : CameraShared) : Prop where
  enqueued : enqueued T.id s'.hist = enqueued T.id s.hist
  evictions : evictions T.id s'.hist = evictions T.id s.hist
  length : (s'.mem.queues T.id).length ≤ (s.mem.queues T.id).length
  base : s'.mem.base = s.mem.base

def CameraTraffic.contract (T : CameraTraffic) (n : ℕ) : Contract QueueParty CameraShared where
  inv := Conserving T n
  guar t s s' := t ≠ .producer → OnlyTakes T s s'

section Invariant

variable {T : CameraTraffic} {n : ℕ} {s s' : CameraShared} {t : QueueParty} {i : CameraOp}
  {r : i.Ans}

theorem Conserving.step (h : Conserving T n s) (hc : cameraCalls t i s r s')
    (hpush : ∀ f ∈ pushedFrame T.id ⟨t, i, r⟩, enqueued T.id s.hist ++ [f] <+: T.frames)
    (hpop : evictions T.id s'.hist ≤ 1) (hret : ∀ b, i = .returned b → b = true) :
    Conserving T n s' := by
  obtain ⟨⟨_, he⟩, hh⟩ := hc
  have hconserves := CameraMemory.exec_conserves T.id he
  refine ⟨?_, ?_, ?_, ?_, hpop, ?_⟩
  · rw [CameraMemory.exec_capacity he]
    exact h.capacity
  · rw [hh, enqueued_cons, departed_cons, h.order, List.append_assoc, hconserves,
      List.append_assoc]
  · have hb := CameraMemory.exec_bounded T.id he
    rw [h.capacity] at hb
    exact hb h.bounded
  · rw [hh, enqueued_cons]
    cases hp : pushedFrame T.id ⟨t, i, r⟩ with
    | none => simpa using h.handed
    | some f => exact hpush f (by simp [hp])
  · intro u b hb
    rw [hh] at hb
    rcases List.mem_cons.mp hb with heq | hb
    · cases heq
      exact hret b rfl
    · exact h.returned u b hb

theorem consumer_step (h : Conserving T n s) (hi : i.takes = true) (ht : t ≠ .producer)
    (hc : cameraCalls t i s r s') : Conserving T n s' ∧ OnlyTakes T s s' := by
  have hnone : pushedFrame T.id ⟨t, i, r⟩ = none := by
    cases i <;> first | rfl | cases hi
  have hevict : evictions T.id s'.hist = evictions T.id s.hist := by
    rw [hc.2, evictions_cons_of_ne ht]
  have hconserving : Conserving T n s' := by
    refine h.step hc ?_ ?_ ?_
    · simp [hnone]
    · rw [hevict]
      exact h.once
    · rintro b rfl
      cases hi
  refine ⟨hconserving, ?_, hevict, ?_, ?_⟩
  · rw [hc.2, enqueued_cons, hnone]
    simp
  · obtain ⟨_, he⟩ := hc.1
    have hlength := congrArg List.length (CameraMemory.exec_conserves T.id he)
    rw [hnone] at hlength
    simp only [Option.toList_none, List.append_nil, List.length_append] at hlength
    omega
  · obtain ⟨_, he⟩ := hc.1
    refine CameraMemory.exec_base ?_ he
    rintro j rfl
    cases hi

/-- A consumer, whatever it calls. -/
theorem consumer_triple (ht : t ≠ .producer) (c : TakeCall) :
    Triple (T.contract n) cameraCalls t (fun _ => True) (c.program T.id) (fun _ _ => True) := by
  refine .unmarked (.const True) (fun i s r s' hi h _ hc => ?_) (c.program_within T.id)
  have htakes : i.takes = true := CameraOp.takes_of_other hi
  obtain ⟨hinv, honly⟩ := consumer_step h htakes ht hc
  exact ⟨hinv, fun _ => honly, trivial⟩

/-! ### The producer -/

/-- The producer has handed some frames over, and the present call has evicted `k`. -/
structure Handed (T : CameraTraffic) (done : List FrameRef) (k : ℕ) (s : CameraShared) :
    Prop where
  frames : enqueued T.id s.hist = done
  evictions : evictions T.id s.hist = k

/-- There is room in the queue. -/
def Room (T : CameraTraffic) (n : ℕ) (s : CameraShared) : Prop :=
  (s.mem.queues T.id).length < n

theorem Handed.stable (done : List FrameRef) (k : ℕ) :
    (T.contract n).Stable .producer (Handed T done k) := by
  intro u s s' hu _ hg _ h
  have htakes := hg hu
  exact ⟨htakes.enqueued.trans h.frames, htakes.evictions.trans h.evictions⟩

theorem Room.stable : (T.contract n).Stable .producer (Room T n) := by
  intro u s s' hu _ hg _ h
  exact (hg hu).length.trans_lt h

/-- The producer guarantees nothing to the consumers. -/
theorem contract_guar_producer : (T.contract n).guar .producer s s' := fun h => (h rfl).elim

theorem push_call {done : List FrameRef} {k : ℕ} {f : FrameRef}
    (hf : done ++ [f] <+: T.frames) {b : Bool} (h : Conserving T n s) (hh : Handed T done k s)
    (hc : cameraCalls .producer (.tryPush T.id f) s b s') :
    Conserving T n s' ∧
      if b then Handed T (done ++ [f]) k s' else Handed T done k s' ∧ ¬ Room T n s := by
  have hevict : evictions T.id s'.hist = k := by
    rw [hc.2]
    simpa [evictions, takenFrame] using hh.evictions
  have hle : k ≤ 1 := hh.evictions ▸ h.once
  obtain ⟨_, he⟩ := hc.1
  rcases CameraMemory.exec_tryPush he with ⟨rfl, _⟩ | ⟨rfl, hfull⟩
  · refine ⟨h.step hc ?_ ?_ ?_, ?_, hevict⟩
    · intro g hg
      have hgf : f = g := by simpa [pushedFrame] using hg
      rw [← hgf, hh.frames]
      exact hf
    · rwa [hevict]
    · intro b hb
      cases hb
    · rw [hc.2, enqueued_cons, hh.frames]
      simp [pushedFrame]
  · refine ⟨h.step hc ?_ ?_ ?_, ⟨?_, hevict⟩, ?_⟩
    · simp [pushedFrame]
    · rwa [hevict]
    · intro b hb
      cases hb
    · rw [hc.2, enqueued_cons, hh.frames]
      simp [pushedFrame]
    · rw [h.capacity] at hfull
      exact not_lt.mpr hfull

/-- The eviction makes room, or finds that consumers have made it. -/
theorem pop_call (hn : 1 ≤ n) {done : List FrameRef} {a : Option FrameRef} (h : Conserving T n s)
    (hh : Handed T done 0 s) (hc : cameraCalls .producer (.tryPop T.id) s a s') :
    Conserving T n s' ∧ Handed T done a.toList.length s' ∧ Room T n s' := by
  have hevict : evictions T.id s'.hist = a.toList.length := by
    rw [hc.2]
    simp [evictions, takenFrame, hh.evictions]
  refine ⟨h.step hc ?_ ?_ ?_, ⟨?_, hevict⟩, ?_⟩
  · simp [pushedFrame]
  · rw [hevict]
    cases a <;> simp
  · intro b hb
    cases hb
  · rw [hc.2, enqueued_cons, hh.frames]
    simp [pushedFrame]
  · obtain ⟨_, he⟩ := hc.1
    rcases CameraMemory.exec_tryPop he with ⟨_, hempty⟩ | ⟨_, _, hlt⟩
    · rw [Room, hempty]
      exact hn
    · exact hlt.trans_le h.bounded

theorem repo_call {done : List FrameRef} {k : ℕ} {j : Op} {a : j.Ans} (h : Conserving T n s)
    (hh : Handed T done k s) (hroom : Room T n s)
    (hc : cameraCalls .producer (.repo j) s a s') :
    Conserving T n s' ∧ Handed T done k s' ∧ Room T n s' := by
  have hevict : evictions T.id s'.hist = k := by
    rw [hc.2]
    simpa [evictions, takenFrame] using hh.evictions
  refine ⟨h.step hc ?_ ?_ ?_, ⟨?_, hevict⟩, ?_⟩
  · simp [pushedFrame]
  · rw [hevict, ← hh.evictions]
    exact h.once
  · intro b hb
    cases hb
  · rw [hc.2, enqueued_cons, hh.frames]
    simp [pushedFrame]
  · obtain ⟨_, he⟩ := hc.1
    rw [Room, CameraMemory.exec_repo he]
    exact hroom

theorem returned_call {done : List FrameRef} {k : ℕ} (h : Conserving T n s)
    (hh : Handed T done k s) {a : Unit}
    (hc : cameraCalls .producer (.returned true) s a s') :
    Conserving T n s' ∧ Handed T done 0 s' := by
  have hevict : evictions T.id s'.hist = 0 := by
    rw [hc.2]
    simp [evictions]
  refine ⟨h.step hc ?_ ?_ ?_, ?_, hevict⟩
  · simp [pushedFrame]
  · simp [hevict]
  · intro b hb
    cases hb
    rfl
  · rw [hc.2, enqueued_cons, hh.frames]
    simp [pushedFrame]

/-- With room in the queue a push cannot fail. -/
theorem push_triple {done : List FrameRef} {k : ℕ} {f : FrameRef}
    (hf : done ++ [f] <+: T.frames) (rest : CameraCall Bool) :
    Triple (T.contract n) cameraCalls .producer (fun s => Handed T done k s ∧ Room T n s)
      (do if ← CameraCall.perform (.tryPush T.id f) then pure true else rest)
      (fun b s => b = true ∧ ∃ k, Handed T (done ++ [f]) k s) := by
  refine .perform_bind (fun b s => b = true ∧ Handed T (done ++ [f]) k s) ?_ ?_ ?_
  · exact fun b => (Contract.Stable.const _).and (Handed.stable _ _)
  · intro s b s' h hp hc
    obtain ⟨hinv, hb⟩ := push_call hf h hp.1 hc
    cases b with
    | true => exact ⟨hinv, contract_guar_producer, rfl, hb⟩
    | false => exact (hb.2 hp.2).elim
  · intro b
    cases b with
    | true => exact .pure (fun s _ hs => ⟨rfl, k, hs.2⟩)
    | false => exact .of_false (fun s _ hs => by cases hs.1)

/-- The first turn of the loop already succeeds. -/
theorem enqueueLoop_triple (hn : 1 ≤ n) {done : List FrameRef} {f : FrameRef}
    (hf : done ++ [f] <+: T.frames) (turns : ℕ) :
    Triple (T.contract n) cameraCalls .producer (Handed T done 0)
      (CameraCall.enqueueLoop T.id f (turns + 1))
      (fun b s => b = true ∧ ∃ k, Handed T (done ++ [f]) k s) := by
  refine .perform_bind (fun a s => Handed T done a.toList.length s ∧ Room T n s) ?_ ?_ ?_
  · exact fun a => (Handed.stable _ _).and Room.stable
  · intro s a s' h hh hc
    obtain ⟨hinv, hhanded, hroom⟩ := pop_call hn h hh hc
    exact ⟨hinv, contract_guar_producer, hhanded, hroom⟩
  · intro a
    have hrepo (j : Op) (s : CameraShared) (b : j.Ans) (s' : CameraShared)
        (h : (T.contract n).inv s) (hp : Handed T done a.toList.length s ∧ Room T n s)
        (hc : cameraCalls .producer (.repo j) s b s') :
        (T.contract n).inv s' ∧ (T.contract n).guar .producer s s' ∧
          Handed T done a.toList.length s' ∧ Room T n s' :=
      ⟨(repo_call h hp.1 hp.2 hc).1, contract_guar_producer, (repo_call h hp.1 hp.2 hc).2⟩
    have hstable := (Handed.stable done a.toList.length).and (Room.stable (T := T) (n := n))
    cases a with
    | none => exact push_triple hf _
    | some old =>
        refine .perform_bind (fun _ s => Handed T done 1 s ∧ Room T n s) (fun _ => hstable)
          (hrepo (.seqno old)) (fun seq => ?_)
        exact .bind (.embed hstable hrepo _) (fun _ => push_triple hf _)

theorem enqueue_triple (hn : 1 ≤ n) {done : List FrameRef} {f : FrameRef}
    (hf : done ++ [f] <+: T.frames) :
    Triple (T.contract n) cameraCalls .producer (Handed T done 0) (CameraCall.enqueue T.id f)
      (fun b s => b = true ∧ ∃ k, Handed T (done ++ [f]) k s) := by
  refine .perform_bind
    (fun b => if b then Handed T (done ++ [f]) 0 else Handed T done 0) ?_ ?_ ?_
  · intro b
    cases b <;> exact Handed.stable _ _
  · intro s b s' h hh hc
    obtain ⟨hinv, hb⟩ := push_call hf h hh hc
    cases b with
    | true => exact ⟨hinv, contract_guar_producer, hb⟩
    | false => exact ⟨hinv, contract_guar_producer, hb.1⟩
  · intro b
    cases b with
    | true => exact .pure (fun s _ hs => ⟨rfl, 0, hs⟩)
    | false => exact enqueueLoop_triple hn hf 1

/-- The producer hands its frames over one after another. -/
theorem producer_triple (hn : 1 ≤ n) {done frames : List FrameRef}
    (hframes : done ++ frames = T.frames) :
    Triple (T.contract n) cameraCalls .producer (Handed T done 0)
      (Prog.forEach (CameraCall.handOver T.id) frames)
      (fun _ => Handed T T.frames 0) := by
  induction frames generalizing done with
  | nil =>
      rw [List.append_nil] at hframes
      exact .pure (fun s _ hs => hframes ▸ hs)
  | cons f frames ih =>
      have hf : done ++ [f] ++ frames = T.frames := by simpa using hframes
      refine .bind (M := fun _ => Handed T (done ++ [f]) 0) ?_ (fun _ => ih hf)
      refine .bind (enqueue_triple hn ⟨frames, hf⟩) (fun b => ?_)
      refine .of_fact (fun hb => .exists_elim (fun k => ?_))
      subst hb
      refine .perform (fun _ => Handed.stable _ _) (fun s a s' h hh hc => ?_)
      obtain ⟨hinv, hhanded⟩ := returned_call h hh hc
      exact ⟨hinv, contract_guar_producer, hhanded⟩

end Invariant

/-! ### The producer never waits -/

/-- The memory of a thread that works alone, among other threads. -/
def Memory.solo {τ : Type} (t : τ) (m : Memory Unit) : Memory τ where
  repo := m.repo
  cameraLock := m.cameraLock.mapValues (fun _ => t)
  frameLock := m.frameLock.mapValues (fun _ => t)
  accepted := m.accepted
  isRendering := m.isRendering

section Solo

variable {τ : Type} {b : Bool} {t : τ}

theorem solo_lock {K : Type} (T : Table K Unit) (k : K) :
    T.mapValues (fun _ => t) k = some t ↔ T k = some () := by
  cases h : T k <;> simp [Table.mapValues_apply, h]

theorem Memory.exec_solo [DecidableEq τ] {i : Op} {r : i.Ans} {m m' : Memory Unit}
    (h : exec b () i m = some (r, m')) : exec b t i (solo t m) = some (r, solo t m') := by
  cases i with
  | counterFetchAdd c =>
      obtain ⟨q, hq, he⟩ := Option.map_eq_some_iff.mp h
      cases he
      exact Option.map_eq_some_iff.mpr ⟨_, hq, rfl⟩
  | findCamera c =>
      simp only [exec] at h
      split_ifs at h with hn hl <;> cases h
      · exact if_pos hn
      · have hn' : ¬ ((solo t m).repo.cameraFrames c).isNone = true := hn
        have hl' : ¬ ((solo t m).cameraLock c).isSome = true := by
          simpa [solo, Table.mapValues_apply] using hl
        simp only [exec, if_neg hn', if_neg hl']
        simp only [solo, Table.mapValues_assign]
  | peekCamera c =>
      simp only [exec] at h
      split_ifs at h with hl
      cases h
      refine if_neg ?_
      simpa [solo, Table.mapValues_apply] using hl
  | dropCamera c =>
      cases h
      simp only [exec, solo, solo_lock]
      split_ifs
      · simp only [Table.mapValues_erase]
      · rfl
  | findFrame c s =>
      simp only [exec] at h
      cases hf : m.repo.frame (c, s) with
      | none =>
          rw [hf] at h
          cases h
          have hf' : (solo t m).repo.frame (c, s) = none := hf
          simp only [exec, hf']
      | some f =>
          rw [hf] at h
          dsimp only at h
          split_ifs at h with hl
          cases h
          have hf' : (solo t m).repo.frame (c, s) = some f := hf
          have hl' : ¬ ((solo t m).frameLock (c, s)).isSome = true := by
            simpa [solo, Table.mapValues_apply] using hl
          simp only [exec, hf', if_neg hl']
          simp only [solo, Table.mapValues_assign]
  | eraseFrame c s =>
      cases h
      simp only [exec, solo, Table.mapValues_erase]
  | dropFrame c s =>
      cases h
      simp only [exec, solo, solo_lock]
      split_ifs
      · simp only [Table.mapValues_erase]
      · rfl
  | insertFrame p s f => cases p <;> cases h <;> rfl
  | tryPut port c s u => cases b <;> cases h <;> rfl
  | begin c s u =>
      simp only [exec] at h
      split_ifs at h with ha
      cases h
      exact if_pos ha
  | _ =>
      cases h
      rfl

end Solo

/-- The program ends with `Q`, whatever the queue answers, on a repository that nobody else
uses. -/
def CameraCall.Ends {α : Type} (Q : α → Memory Unit → Prop) :
    CameraCall α → Memory Unit → Prop
  | .pure a, m => Q a m
  | .call (.repo i) k, m =>
    ∃ r m', Memory.exec false () i m = some (r, m') ∧ Ends Q (k r) m'
  | .call (.pop _) _, _ => False
  | .call (.tryPush _ _) k, m => ∀ r, Ends Q (k r) m
  | .call (.tryPop _) k, m => ∀ r, Ends Q (k r) m
  | .call (.size _) k, m => ∀ r, Ends Q (k r) m
  | .call (.returned _) k, m => ∀ r, Ends Q (k r) m

namespace CameraCall

variable {α β : Type} {Q : β → Memory Unit → Prop} {id : CameraId} {data : FrameRef}

theorem Ends.bind {p : CameraCall α} {f : α → CameraCall β} {m : Memory Unit}
    (h : p.Ends (fun a m' => (f a).Ends Q m') m) : (p >>= f).Ends Q m := by
  induction p generalizing m with
  | pure a => exact h
  | call i k ih =>
      cases i with
      | repo i =>
          obtain ⟨r, m', hr, hk⟩ := h
          exact ⟨r, m', hr, ih r hk⟩
      | pop c => exact h.elim
      | tryPush c g => exact fun r => ih r (h r)
      | tryPop c => exact fun r => ih r (h r)
      | size c => exact fun r => ih r (h r)
      | returned b => exact fun r => ih r (h r)

theorem Ends.mono {Q' : β → Memory Unit → Prop} {p : CameraCall β} {m : Memory Unit}
    (h : p.Ends Q' m) (hq : ∀ b m, Q' b m → Q b m) : p.Ends Q m := by
  induction p generalizing m with
  | pure b => exact hq b m h
  | call i k ih =>
      cases i with
      | repo i =>
          obtain ⟨r, m', hr, hk⟩ := h
          exact ⟨r, m', hr, ih r hk⟩
      | pop c => exact h.elim
      | tryPush c g => exact fun r => ih r (h r)
      | tryPop c => exact fun r => ih r (h r)
      | size c => exact fun r => ih r (h r)
      | returned b => exact fun r => ih r (h r)

theorem Ends.repository {p : Call β} {a : β} {m m' : Memory Unit}
    (hp : p.alone (fun _ => false) m = some (a, m')) (hq : Q a m') :
    (CameraCall.repository p).Ends Q m := by
  induction p generalizing m with
  | pure b =>
      cases hp
      exact hq
  | call i k ih =>
      obtain ⟨⟨r, m₁⟩, hr, hk⟩ := Option.bind_eq_some_iff.mp hp
      exact ⟨r, m₁, hr, ih r hk⟩

/-- No lock is held. -/
def Idle {α : Type} (_ : α) (m : Memory Unit) : Prop := ∃ r, m = Memory.idle r []

theorem ends_tryPush {rest : CameraCall Bool} {m : Memory Unit} (hm : Idle true m)
    (hrest : rest.Ends Idle m) :
    (do if ← perform (.tryPush id data) then pure true else rest : CameraCall Bool).Ends
      Idle m := by
  intro b
  cases b with
  | true => exact hm
  | false => exact hrest

theorem ends_enqueueLoop (turns : ℕ) (r : Repository) :
    (enqueueLoop id data turns).Ends Idle (Memory.idle r []) := by
  induction turns generalizing r with
  | zero => exact ⟨r, rfl⟩
  | succ turns ih =>
      intro a
      cases a with
      | none => exact ends_tryPush ⟨r, rfl⟩ (ih r)
      | some old =>
          let seq := (r.infos old).seqno
          have hdelete := Call.alone_deleteFrame (fun _ => false) r [] id seq
          have hrest : Ends Idle (do
              if ← perform (.tryPush id data) then pure true else enqueueLoop id data turns)
              (Memory.idle (r.deleteFrame (id, seq)) []) := ends_tryPush ⟨_, rfl⟩ (ih _)
          exact ⟨seq, _, rfl, Ends.bind (p := repository (Call.deleteFrame id seq))
            (Ends.repository hdelete hrest)⟩

theorem ends_enqueue (r : Repository) : (enqueue id data).Ends Idle (Memory.idle r []) :=
  ends_tryPush ⟨r, rfl⟩ (ends_enqueueLoop 2 r)

theorem ends_handOvers (frames : List FrameRef) (r : Repository) :
    Ends Idle (Prog.forEach (handOver id) frames) (Memory.idle r []) := by
  induction frames generalizing r with
  | nil => exact ⟨r, rfl⟩
  | cons f frames ih =>
      refine Ends.bind (p := handOver id f) (Ends.bind (p := enqueue id f) ?_)
      refine (ends_enqueue r).mono ?_
      rintro b m ⟨r', rfl⟩ -
      exact ih r'

end CameraCall

/-- The producer ends, if it is given its turns. -/
def ProducerEnds (p : Pool QueueParty CameraOp CameraOp.Ans Unit CameraShared) : Prop :=
  ∃ m, p.state.mem.base = Memory.solo .producer m ∧
    CameraCall.Ends CameraCall.Idle (p.threads .producer) m

theorem cameraCalls_of_exec {t : QueueParty} {i : CameraOp} {s : CameraShared}
    {q : i.Ans × CameraMemory QueueParty} (h : CameraMemory.exec t i s.mem = some q) :
    cameraCalls t i s q.1 ⟨q.2, ⟨t, i, q.1⟩ :: s.hist⟩ :=
  ⟨⟨false, h⟩, rfl⟩

theorem ProducerEnds.canMove {p : Pool QueueParty CameraOp CameraOp.Ans Unit CameraShared}
    (h : ProducerEnds p) :
    p.threads .producer = .pure () ∨ Pool.CanMove cameraCalls p .producer := by
  obtain ⟨m, hm, hends⟩ := h
  cases hp : p.threads .producer with
  | pure a => exact Or.inl rfl
  | call i k =>
      right
      rw [hp] at hends
      have hmove {q : i.Ans × CameraMemory QueueParty}
          (h : CameraMemory.exec .producer i p.state.mem = some q) :
          Pool.CanMove cameraCalls p .producer := ⟨i, k, _, _, hp, cameraCalls_of_exec h⟩
      cases i with
      | repo j =>
          obtain ⟨a, m', ha, _⟩ := hends
          refine hmove (q := (a, { p.state.mem with base := Memory.solo .producer m' })) ?_
          simp only [CameraMemory.exec, hm, Memory.exec_solo ha]
          rfl
      | pop c => exact hends.elim
      | tryPush c f =>
          obtain ⟨q, hq⟩ := CameraMemory.exec_total (t := .producer) (m := p.state.mem)
            (i := .tryPush c f) (by simp) (by simp)
          exact hmove hq
      | tryPop c =>
          obtain ⟨q, hq⟩ := CameraMemory.exec_total (t := .producer) (m := p.state.mem)
            (i := .tryPop c) (by simp) (by simp)
          exact hmove hq
      | size c => exact hmove rfl
      | returned b => exact hmove rfl

/-- A step of the producer leaves the rest of its program one that ends. -/
theorem ends_step {i : CameraOp} {k : i.Ans → CameraCall Unit} {a : i.Ans} {s s' : CameraShared}
    {m : Memory Unit} (hm : s.mem.base = Memory.solo .producer m)
    (h : CameraCall.Ends CameraCall.Idle (.call i k) m) (hc : cameraCalls .producer i s a s') :
    ∃ m', s'.mem.base = Memory.solo .producer m' ∧ CameraCall.Ends CameraCall.Idle (k a) m' := by
  obtain ⟨_, he⟩ := hc.1
  cases i with
  | repo j =>
      obtain ⟨b, m', hb, hk⟩ := h
      simp only [CameraMemory.exec, hm, Memory.exec_solo hb] at he
      obtain ⟨hab, hs⟩ := Prod.mk.inj (Option.some.inj he)
      refine ⟨m', ?_, hab ▸ hk⟩
      rw [← hs]
  | pop c => exact h.elim
  | tryPush c f => exact ⟨m, (CameraMemory.exec_base (by simp) he).trans hm, h a⟩
  | tryPop c => exact ⟨m, (CameraMemory.exec_base (by simp) he).trans hm, h a⟩
  | size c => exact ⟨m, (CameraMemory.exec_base (by simp) he).trans hm, h a⟩
  | returned b => exact ⟨m, (CameraMemory.exec_base (by simp) he).trans hm, h a⟩

section Pools

variable {T : CameraTraffic} {n : ℕ} {capacity : CameraId → ℕ} {r : Repository}
  {p : Pool QueueParty CameraOp CameraOp.Ans Unit CameraShared}

/-- What a party relies on when it starts. -/
def CameraTraffic.pre (T : CameraTraffic) : QueueParty → CameraShared → Prop
  | .producer => Handed T [] 0
  | .consumer _ => fun _ => True

/-- What holds when a party is through. -/
def CameraTraffic.post (T : CameraTraffic) : QueueParty → Unit → CameraShared → Prop
  | .producer => fun _ => Handed T T.frames 0
  | .consumer _ => fun _ _ => True

theorem pre_stable (t : QueueParty) : (T.contract n).Stable t (T.pre t) := by
  cases t with
  | producer => exact Handed.stable [] 0
  | consumer j => exact .const True

theorem program_triple (hn : 1 ≤ n) (t : QueueParty) :
    Triple (T.contract n) cameraCalls t (T.pre t) (T.program t) (T.post t) := by
  cases t with
  | producer => exact producer_triple hn (List.nil_append _)
  | consumer j => exact .forEach (fun c _ => consumer_triple (by simp) c)

theorem conserving_initial (hn : capacity T.id = n) :
    Conserving T n (T.pool capacity r).state :=
  ⟨hn, rfl, Nat.zero_le n, List.nil_prefix, Nat.zero_le 1,
    fun _ _ h => (List.not_mem_nil h).elim⟩

theorem pre_initial (t : QueueParty) : T.pre t (T.pool capacity r).state := by
  cases t with
  | producer => exact ⟨rfl, rfl⟩
  | consumer j => trivial

theorem conserving_of_reach (hn : 1 ≤ capacity T.id)
    (hp : Pool.Reach cameraCalls (T.pool capacity r) p) :
    Conserving T (capacity T.id) p.state :=
  Contract.sound_inv (C := T.contract _) pre_stable (program_triple hn)
    (conserving_initial rfl) pre_initial hp

theorem producerEnds_of_reach (hn : 1 ≤ capacity T.id)
    (hp : Pool.Reach cameraCalls (T.pool capacity r) p) : ProducerEnds p := by
  induction hp with
  | refl => exact ⟨Memory.idle r [], rfl, CameraCall.ends_handOvers T.frames r⟩
  | tail hreach hstep ih =>
      cases hstep with
      | @call t i k a s' hc ha =>
          obtain ⟨m, hm, hends⟩ := ih
          have hguar := Contract.sound_step (C := T.contract _) pre_stable (program_triple hn)
            (conserving_initial rfl) pre_initial hreach hc ha
          by_cases ht : t = .producer
          · subst ht
            rw [hc] at hends
            obtain ⟨m', hm', hk⟩ := ends_step hm hends ha
            exact ⟨m', hm', by simpa using hk⟩
          · refine ⟨m, (hguar ht).base.trans hm, ?_⟩
            simpa [Function.update_of_ne (Ne.symm ht)] using hends

/-- At every moment, the frames enqueued so far are those that have left the queue, in the order
in which they left, followed by those in the queue. They are the first of the frames that the
producer hands over, and all of them once it is through. Every call of `enqueue` has returned
`true` and the present one has evicted at most one frame; the producer never has to wait. Of
distinct frames, each one enqueued is in the queue, evicted, or taken by one consumer call. -/
theorem camera_queue_conserves_and_orders (hn : 1 ≤ capacity T.id)
    (hp : Pool.Reach cameraCalls (T.pool capacity r) p) :
    enqueued T.id p.state.hist = departed T.id p.state.hist ++ p.state.mem.queues T.id ∧
      (p.state.mem.queues T.id).length ≤ capacity T.id ∧
      (∀ t b, ⟨t, .returned b, ()⟩ ∈ p.state.hist → b = true) ∧
      evictions T.id p.state.hist ≤ 1 ∧
      enqueued T.id p.state.hist <+: T.frames ∧
      (p.threads .producer = .pure () → enqueued T.id p.state.hist = T.frames) ∧
      (p.threads .producer = .pure () ∨ Pool.CanMove cameraCalls p .producer) ∧
      (T.frames.Nodup → ∀ f ∈ enqueued T.id p.state.hist,
        (p.state.mem.queues T.id).count f + (evicted T.id p.state.hist).count f +
          (consumed T.id p.state.hist).count f = 1) := by
  have h := conserving_of_reach hn hp
  have hthrough (ht : p.threads .producer = .pure ()) :
      enqueued T.id p.state.hist = T.frames :=
    (Contract.sound_post (C := T.contract _) pre_stable (program_triple hn)
      (conserving_initial rfl) pre_initial hp ht).frames
  refine ⟨h.order, h.bounded, h.returned, h.once, h.handed, hthrough,
    (producerEnds_of_reach hn hp).canMove, ?_⟩
  intro hnodup f hf
  have hone : (enqueued T.id p.state.hist).count f = 1 :=
    List.count_eq_one_of_mem (hnodup.sublist h.handed.sublist) hf
  rw [h.order, List.count_append, count_departed] at hone
  omega

end Pools

/-- Two frames for a queue that holds one, and a consumer that takes what is there. -/
def twoFrames : CameraTraffic where
  id := 0
  frames := [0, 1]
  calls := fun _ => [.drain]

/-- The second frame evicts the first, and the consumer takes the second. -/
theorem camera_queue_conserves_and_orders_evicting :
    ∃ p, Pool.Reach cameraCalls (twoFrames.pool (fun _ => 1) {}) p ∧
      evicted 0 p.state.hist = [0] ∧ consumed 0 p.state.hist = [1] ∧
      enqueued 0 p.state.hist = departed 0 p.state.hist ++ p.state.mem.queues 0 := by
  let producer : QueueParty := .producer
  let consumer : QueueParty := .consumer 0
  have hrun : (Pool.replay (fun _ => CameraMemory.exec) (fun _ _ _ _ => true)
      (List.replicate 8 (producer, true) ++ List.replicate 2 (consumer, true))
      (twoFrames.pool (fun _ => 1) {})).any (fun p =>
        evicted 0 p.state.hist = [0] ∧ consumed 0 p.state.hist = [1]) = true := by decide
  obtain ⟨p, hp, hres⟩ := (Option.any_eq_true _ _).mp hrun
  obtain ⟨hevicted, hconsumed⟩ := of_decide_eq_true hres
  have hreach := Pool.reach_of_replay_all _ _ _ hp
  exact ⟨p, hreach, hevicted, hconsumed,
    (camera_queue_conserves_and_orders (T := twoFrames) le_rfl hreach).1⟩

end ARArch

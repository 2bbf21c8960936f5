import ARArch.CallEffects

/-!
# Numbering and registration

The counter of a camera is made at 0 by the call that answers 0, so that the next call answers 0
again; from then on each number is one more. A stereo frame is numbered for two cameras by the
counter of the first, and no call but `new_frame` writes the number into the frame. A frame whose
key is in use is not stored.

For every run of numbering calls, the conditions under which the next number is greater than all
before it, and under which `get_frame` gives the frames back, are stated over the counters and
the store before the call.
-/

namespace ARArch

namespace Request

/-- The camera whose counter gives the number. -/
def draws : Request → Option CameraId
  | nextSeqno c | newFrame c _ | newStereoFrame c _ _ _ => some c
  | _ => none

/-- The cameras that the call answers a number for. -/
def numbers : Request → List CameraId
  | nextSeqno c | newFrame c _ => [c]
  | newStereoFrame c1 _ c2 _ => [c1, c2]
  | _ => []

/-- The frames handed over, with their cameras. -/
def registers : Request → List (CameraId × FrameRef)
  | newFrame c f => [(c, f)]
  | newStereoFrame c1 f1 c2 f2 => [(c1, f1), (c2, f2)]
  | _ => []

end Request

/-- The number that a numbering call answered. -/
def numberOf : Done Request Request.Ans → SeqNo
  | ⟨.nextSeqno _, n⟩ => n
  | ⟨.newFrame _ _, n⟩ => n
  | ⟨.newStereoFrame _ _ _ _, n⟩ => n
  | _ => 0

/-- A call drew `n` from the counter of camera `c`. -/
def Drawn (done : History) (c : CameraId) (n : SeqNo) : Prop :=
  ∃ d ∈ done, d.request.draws = some c ∧ numberOf d = n

/-- A call answered `n` for camera `c`. -/
def Numbered (done : History) (c : CameraId) (n : SeqNo) : Prop :=
  ∃ d ∈ done, c ∈ d.request.numbers ∧ numberOf d = n

namespace Repository

/-- The frame under `k`, after `f` has been offered for it, is `f`. -/
def Takes (r : Repository) (k : Key) (f : FrameRef) : Prop :=
  r.frame k = none ∨ r.frame k = some f

/-- `n` is greater than every number stored for the camera or drawn from its counter. -/
def Exceeds (r : Repository) (c : CameraId) (n : SeqNo) : Prop :=
  (∀ s f, r.frame (c, s) = some f → s < n) ∧ ∀ m, r.seqNumbers c = some m → 0 < n ∧ m ≤ n

/-- `get_frame` gives `f`, and `f` carries the number it was asked for by. -/
def Returns (r : Repository) (c : CameraId) (s : SeqNo) (f : FrameRef) : Prop :=
  r.respond (.getFrame c s) = some (some f, r) ∧ (r.infos f).seqno = s

theorem returns_iff {r : Repository} {c : CameraId} {s : SeqNo} {f : FrameRef} :
    r.Returns c s f ↔
      r.frame (c, s) = some f ∧ 0 < (r.infos f).rgbaLen ∧ (r.infos f).seqno = s := by
  have hget : r.respond (.getFrame c s) = some (some f, r) ↔
      r.frame (c, s) = some f ∧ 0 < (r.infos f).rgbaLen := by
    rw [respond_eq, Request.effect, getFrame]
    cases hf : r.frame (c, s) with
    | none => simp
    | some g =>
        by_cases hl : 0 < (r.infos g).rgbaLen
        · simp only [hl, if_true, Option.map_some, Option.some.injEq, Prod.mk.injEq, and_true]
          constructor
          · rintro rfl
            exact ⟨rfl, hl⟩
          · exact And.left
        · simp only [hl, if_false, Option.map_none, reduceCtorEq, Option.some.injEq, false_iff]
          rintro ⟨rfl, hl'⟩
          exact hl hl'
  rw [Returns, hget, and_assoc]

theorem takes_iff {r : Repository} {k : Key} {f : FrameRef} :
    r.Takes k f ↔ (r.frame k).getD f = f := by
  unfold Takes
  cases r.frame k <;> simp

end Repository

namespace Request

/-- Every number of the call is greater than those its cameras have. -/
def Increases (r : Repository) (q : Request) : Prop :=
  ∀ c ∈ q.numbers, ∀ c1, q.draws = some c1 → r.Exceeds c (r.number c1)

/-- The keys of the call are free or already lead to its frames, and the frames of a stereo call
carry the number before it is drawn. -/
def Fits (r : Repository) : Request → Prop
  | newFrame c f => r.Takes (c, r.number c) f
  | newStereoFrame c1 f1 c2 f2 =>
    r.Takes (c1, r.number c1) f1 ∧ (if c2 = c1 then f2 = f1 else r.Takes (c2, r.number c1) f2) ∧
      (r.infos f1).seqno = r.number c1 ∧ (r.infos f2).seqno = r.number c1
  | _ => True

end Request

/-- The call answered what the counter of its camera gives. -/
theorem number_eq {r r' : Repository} {q : Request} {a : q.Ans} {c : CameraId}
    (hc : q.draws = some c) (hq : r.respond q = some (a, r')) :
    numberOf ⟨q, a⟩ = r.number c := by
  rw [Repository.respond_eq] at hq
  cases q with
  | nextSeqno _ | newFrame _ _ | newStereoFrame _ _ _ _ =>
      cases hc
      cases hq
      rfl
  | _ => cases hc

/-- The numbers answered so far, in terms of the counters and the store. -/
structure NumbersAccounted (done : History) (r : Repository) : Prop where
  drawn : ∀ c n, Drawn done c n ↔ ∃ m, r.seqNumbers c = some m ∧ (n < m ∨ n = 0)
  numbered : ∀ c n, Numbered done c n ↔ Drawn done c n ∨ (r.frame (c, n)).isSome

/-- What a numbering call changes in the counters and in the set of keys in use. -/
structure Numbers (q : Request) (c1 : CameraId) (r r' : Repository) : Prop where
  counters : r'.seqNumbers = (r.nextSeqno c1).seqNumbers
  used : ∀ c n, (r'.frame (c, n)).isSome ↔
    (r.frame (c, n)).isSome ∨ (c ∈ q.registers.map Prod.fst ∧ n = r.number c1)

theorem isSome_frame_registerFrame (r : Repository) (k j : Key) (f : FrameRef) :
    ((r.registerFrame k f).frame j).isSome ↔ (r.frame j).isSome ∨ j = k := by
  by_cases hj : j = k
  · subst hj
    simp [Repository.frame_registerFrame_self]
  · simp [Repository.frame_registerFrame_of_ne r f hj, hj]

theorem numbers_of_respond {r r' : Repository} {q : Request} {a : q.Ans} {c : CameraId}
    (hc : q.draws = some c) (hq : r.respond q = some (a, r')) : Numbers q c r r' := by
  rw [Repository.respond_eq] at hq
  cases q with
  | nextSeqno _ =>
      cases hc
      cases hq
      exact ⟨rfl, fun d n => by simp [Request.registers]⟩
  | newFrame _ f =>
      cases hc
      cases hq
      refine ⟨rfl, fun d n => ?_⟩
      rw [Repository.newFrame, isSome_frame_registerFrame, Repository.setSeqno,
        Repository.frame_modifyInfo, Repository.frame_nextSeqno]
      simp [Request.registers]
  | newStereoFrame _ f1 c2 f2 =>
      cases hc
      cases hq
      refine ⟨rfl, fun d n => ?_⟩
      rw [Repository.newStereoFrame, isSome_frame_registerFrame, isSome_frame_registerFrame,
        Repository.frame_nextSeqno]
      simp only [Request.registers, List.map_cons, List.map_nil, List.mem_cons, List.not_mem_nil,
        or_false, Prod.mk.injEq]
      tauto
  | _ => cases hc

theorem drawn_cons {done : History} {d : Done Request Request.Ans} {c : CameraId} {n : SeqNo} :
    Drawn (d :: done) c n ↔ (d.request.draws = some c ∧ numberOf d = n) ∨ Drawn done c n := by
  simp [Drawn]

theorem numbered_cons {done : History} {d : Done Request Request.Ans} {c : CameraId}
    {n : SeqNo} :
    Numbered (d :: done) c n ↔ (c ∈ d.request.numbers ∧ numberOf d = n) ∨ Numbered done c n := by
  simp [Numbered]

/-- The numbered cameras are the one that draws and those that a frame is registered for. -/
theorem mem_numbers_iff {q : Request} {c1 c : CameraId} (hc : q.draws = some c1) :
    c ∈ q.numbers ↔ c = c1 ∨ c ∈ q.registers.map Prod.fst := by
  cases q with
  | nextSeqno _ | newFrame _ _ | newStereoFrame _ _ _ _ =>
      cases hc
      simp [Request.numbers, Request.registers]
  | _ => cases hc

namespace NumbersAccounted

variable {done : History} {r r' : Repository} {q : Request} {a : q.Ans} {c1 : CameraId}

theorem step (h : NumbersAccounted done r) (hc : q.draws = some c1)
    (hq : r.respond q = some (a, r')) : NumbersAccounted (⟨q, a⟩ :: done) r' := by
  have hn := number_eq hc hq
  have he := numbers_of_respond hc hq
  constructor
  · intro c n
    rw [drawn_cons, h.drawn, hn, hc, he.counters]
    by_cases hcc : c = c1
    · subst hcc
      rw [Repository.seqNumbers_nextSeqno_self, Repository.number]
      cases hm : r.seqNumbers c with
      | none =>
          simp only [true_and, Option.getD_none, reduceCtorEq, false_and, exists_false, or_false,
            Option.some.injEq, exists_eq_left', Nat.not_lt_zero, false_or]
          exact eq_comm
      | some m =>
          have hsucc (n m : ℕ) : (m = n ∨ n < m ∨ n = 0) ↔ n < m + 1 ∨ n = 0 := by omega
          simp only [true_and, Option.getD_some, Option.some.injEq, exists_eq_left']
          exact hsucc n m
    · have hcc' : ¬ (some c1 = some c ∧ r.number c1 = n) := fun hs =>
        hcc (Option.some.inj hs.1).symm
      rw [Repository.seqNumbers_nextSeqno_of_ne r hcc, or_iff_right hcc']
  · intro c n
    rw [numbered_cons, drawn_cons, h.numbered, he.used, mem_numbers_iff hc, hn, hc]
    have hs : some c1 = some c ↔ c = c1 := ⟨fun hs => (Option.some.inj hs).symm, fun hs => by
      rw [hs]⟩
    have hn' : r.number c1 = n ↔ n = r.number c1 := eq_comm
    rw [hs, hn', or_and_right, or_or_or_comm]
    exact or_congr_right or_comm

theorem of_session {P : History → Repository → Request → Prop}
    (hP : ∀ done r q, P done r q → q.draws.isSome = true)
    {infos : FrameRef → FrameInfo} (h : Session Repository.respond P (.initial infos) done r) :
    NumbersAccounted done r := by
  refine Session.invariant (I := NumbersAccounted) ⟨?_, ?_⟩ ?_ h
  · intro c n
    simp [Drawn, Repository.initial]
  · intro c n
    simp [Numbered, Drawn, Repository.frame, Repository.initial]
  · intro done r q a r' h hok hq
    obtain ⟨c, hc⟩ := Option.isSome_iff_exists.mp (hP _ _ _ hok)
    exact h.step hc hq

/-- The next number exceeds all numbers drawn from the counter, unless the counter was only just
made. -/
theorem lt_number_iff (h : NumbersAccounted done r) (c : CameraId) :
    (∀ n, Drawn done c n → n < r.number c) ↔ r.seqNumbers c ≠ some 0 := by
  rw [Repository.number]
  constructor
  · intro hlt hm
    have h0 := hlt 0 ((h.drawn c 0).mpr ⟨0, hm, Or.inr rfl⟩)
    rw [hm] at h0
    exact Nat.lt_irrefl 0 h0
  · intro hne n hn
    obtain ⟨m, hm, hlt⟩ := (h.drawn c n).mp hn
    have hpos : m ≠ 0 := fun h0 => hne (by rw [hm, h0])
    rw [hm, Option.getD_some]
    rcases hlt with hlt | rfl
    · exact hlt
    · exact Nat.pos_of_ne_zero hpos

theorem exceeds_iff (h : NumbersAccounted done r) (c : CameraId) (n : SeqNo) :
    (∀ m, Numbered done c m → m < n) ↔ r.Exceeds c n := by
  constructor
  · intro hlt
    refine ⟨fun s f hf => hlt s ((h.numbered c s).mpr (Or.inr (by rw [hf]; rfl))), ?_⟩
    intro m hm
    have hd (s : SeqNo) (hs : s < m ∨ s = 0) : s < n :=
      hlt s ((h.numbered c s).mpr (Or.inl ((h.drawn c s).mpr ⟨m, hm, hs⟩)))
    refine ⟨hd 0 (Or.inr rfl), ?_⟩
    by_contra hnm
    exact Nat.lt_irrefl n (hd n (Or.inl (Nat.lt_of_not_le hnm)))
  · rintro ⟨hf, hcount⟩ s hs
    rcases (h.numbered c s).mp hs with hd | hst
    · obtain ⟨m, hm, hlt⟩ := (h.drawn c s).mp hd
      obtain ⟨hpos, hle⟩ := hcount m hm
      rcases hlt with hlt | rfl
      · exact Nat.lt_of_lt_of_le hlt hle
      · exact hpos
    · obtain ⟨f, hst⟩ := Option.isSome_iff_exists.mp hst
      exact hf s f hst

end NumbersAccounted

/-- The frames of the call are given back under its number. -/
def FramesReturned (r' : Repository) (q : Request) (n : SeqNo) : Prop :=
  ∀ p ∈ q.registers, r'.Returns p.1 n p.2

theorem returns_newFrame_iff (r : Repository) (c : CameraId) (f : FrameRef)
    (hl : 0 < (r.infos f).rgbaLen) :
    (r.newFrame c f).Returns c (r.number c) f ↔ r.Takes (c, r.number c) f := by
  have hinfo : (r.newFrame c f).infos f = { r.infos f with seqno := r.number c } := by
    rw [Repository.infos_newFrame, if_pos rfl]
  rw [Repository.returns_iff, Repository.takes_iff, Repository.frame_newFrame_self, hinfo]
  simp [hl]

theorem returns_newStereoFrame_iff (r : Repository) (c1 c2 : CameraId) (f1 f2 : FrameRef)
    (hl1 : 0 < (r.infos f1).rgbaLen) (hl2 : 0 < (r.infos f2).rgbaLen) :
    ((r.newStereoFrame c1 f1 c2 f2).Returns c1 (r.number c1) f1 ∧
      (r.newStereoFrame c1 f1 c2 f2).Returns c2 (r.number c1) f2) ↔
      Request.Fits r (.newStereoFrame c1 f1 c2 f2) := by
  have hinfo : (r.newStereoFrame c1 f1 c2 f2).infos = r.infos := by
    rw [Repository.newStereoFrame, Repository.infos_registerFrame, Repository.infos_registerFrame,
      Repository.infos_nextSeqno]
  rw [Repository.returns_iff, Repository.returns_iff, hinfo, Request.Fits, Repository.takes_iff,
    Repository.newStereoFrame]
  generalize r.number c1 = n
  by_cases hc : c2 = c1
  · subst hc
    rw [if_pos rfl, Repository.frame_registerFrame_self,
      Repository.frame_registerFrame_self, Repository.frame_nextSeqno]
    simp only [Option.getD_some, Option.some.injEq, hl1, hl2, true_and]
    constructor
    · rintro ⟨⟨h1, hs1⟩, h2, hs2⟩
      exact ⟨h1, by rw [← h1, ← h2], hs1, hs2⟩
    · rintro ⟨h1, rfl, hs1, hs2⟩
      exact ⟨⟨h1, hs1⟩, h1, hs2⟩
  · have hk : ((c1, n) : Key) ≠ (c2, n) := fun h => hc (congrArg Prod.fst h).symm
    rw [if_neg hc, Repository.takes_iff,
      Repository.frame_registerFrame_of_ne _ _ hk, Repository.frame_registerFrame_self,
      Repository.frame_registerFrame_self, Repository.frame_registerFrame_of_ne _ _ (Ne.symm hk),
      Repository.frame_nextSeqno, Repository.frame_nextSeqno]
    simp only [Option.some.injEq, hl1, hl2, true_and]
    tauto

theorem framesReturned_iff {r r' : Repository} {q : Request} {a : q.Ans} {c : CameraId}
    (hc : q.draws = some c) (hl : ∀ p ∈ q.registers, 0 < (r.infos p.2).rgbaLen)
    (hq : r.respond q = some (a, r')) :
    FramesReturned r' q (numberOf ⟨q, a⟩) ↔ q.Fits r := by
  rw [number_eq hc hq]
  rw [Repository.respond_eq] at hq
  cases q with
  | nextSeqno _ => simp [FramesReturned, Request.registers, Request.Fits]
  | newFrame _ f =>
      cases hc
      cases hq
      have h := returns_newFrame_iff r c f (hl (c, f) (by simp [Request.registers]))
      simpa [FramesReturned, Request.registers, Request.Fits] using h
  | newStereoFrame _ f1 c2 f2 =>
      cases hc
      cases hq
      have h := returns_newStereoFrame_iff r c c2 f1 f2
        (hl (c, f1) (by simp [Request.registers])) (hl (c2, f2) (by simp [Request.registers]))
      simpa [FramesReturned, Request.registers] using h
  | _ => cases hc

/-- After any run of numbering calls, the next one answers a number above all numbers drawn from
its counter, above all numbers its cameras have, and gives its frames back under that number,
exactly under the three conditions on the state before it. -/
theorem numbering_and_registration {infos : FrameRef → FrameInfo} {done : History}
    {r : Repository}
    (h : Session Repository.respond (fun _ _ q => q.draws.isSome = true) (.initial infos) done r)
    {q : Request} {a : q.Ans} {r' : Repository} {c1 : CameraId} (hc : q.draws = some c1)
    (hl : ∀ p ∈ q.registers, 0 < (r.infos p.2).rgbaLen) (hq : r.respond q = some (a, r')) :
    ((∀ n, Drawn done c1 n → n < numberOf ⟨q, a⟩) ↔ r.seqNumbers c1 ≠ some 0) ∧
    ((∀ c ∈ q.numbers, ∀ n, Numbered done c n → n < numberOf ⟨q, a⟩) ↔ q.Increases r) ∧
    (FramesReturned r' q (numberOf ⟨q, a⟩) ↔ q.Fits r) := by
  have hacc := NumbersAccounted.of_session (fun _ _ _ hP => hP) h
  refine ⟨?_, ?_, framesReturned_iff hc hl hq⟩
  · rw [number_eq hc hq]
    exact hacc.lt_number_iff c1
  · rw [number_eq hc hq]
    simp only [hacc.exceeds_iff, Request.Increases, hc, Option.some.injEq, forall_eq']

theorem numbering_and_registration_first :
    ((Repository.initial (fun _ => { rgbaLen := 4 })).newFrame 0 7).Returns 0 0 7 := by
  have hfits : (Request.newFrame 0 7).Fits (.initial (fun _ => { rgbaLen := 4 })) := Or.inl rfl
  have hdraws : (Request.newFrame 0 7).draws = some 0 := rfl
  have hret := ((numbering_and_registration .start hdraws (by decide)
    (Repository.respond_eq _ (Repository.initial fun _ => { rgbaLen := 4 }))).2.2).mpr hfits
  exact hret (0, 7) (by decide)

/-- The second number of a camera is not greater than its first: both are 0. -/
theorem nextSeqno_repeats_zero :
    ∃ r r', Session Repository.respond (fun _ _ q => q.draws.isSome = true)
        (.initial fun _ => {}) [⟨.nextSeqno 0, 0⟩] r ∧
      r.respond (.nextSeqno 0) = some (0, r') ∧
      ¬ ∀ n, Drawn [⟨.nextSeqno 0, 0⟩] 0 n → n < 0 := by
  refine ⟨_, _, .call .start rfl (Repository.respond_eq _ _), Repository.respond_eq _ _, ?_⟩
  intro h
  exact Nat.lt_irrefl 0 (h 0 ⟨_, List.mem_cons_self, rfl, rfl⟩)

end ARArch

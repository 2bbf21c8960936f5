import ARArch.FrameMap
import ARArch.CallEffects

/-!
# Monocular runs refine the frame map

As long as the table of pairs is empty and every frame has colour data, the repository and the
abstract frame map answer every request of a monocular run in the same way. What is known of the
map, the numbering from 0, the life of a frame and the independence of the cameras, holds of the
repository.
-/

namespace ARArch

structure Represents (r : Repository) (m : FrameMap) : Prop where
  cameras : r.cameras = m.cameras
  counters : ∀ c, r.seqNumbers c = if c ∈ m.cameras then some (m.count c) else none
  frames : ∀ k, r.frame k = m.live k
  below : ∀ c s, m.count c ≤ s → m.live (c, s) = none
  unpaired : r.stereoFrames = Table.empty
  flags : ∀ f u, (r.infos f).flag u = m.flag f u
  sized : ∀ f, 0 < (r.infos f).rgbaLen

namespace Represents

variable {r : Repository} {m : FrameMap}

theorem initial {infos : FrameRef → FrameInfo} (hl : ∀ f, 0 < (infos f).rgbaLen) :
    Represents (.initial infos) { flag := fun f => (infos f).flag } where
  cameras := rfl
  counters := fun c => by simp [Repository.initial]
  frames := fun _ => rfl
  below := fun _ _ _ => rfl
  unpaired := rfl
  flags := fun _ _ => rfl
  sized := hl

theorem number_eq (h : Represents r m) {c : CameraId} (hc : c ∈ m.cameras) :
    r.number c = m.count c := by
  rw [Repository.number, h.counters, if_pos hc, Option.getD_some]

theorem addCamera (h : Represents r m) (hnew : ∀ c, c ∉ m.cameras → m.count c = 0)
    (c : CameraId) :
    (r.hardwareAddCamera c).1 = m.isNew c ∧
      Represents (r.hardwareAddCamera c).2 (m.addCamera c) := by
  by_cases hc : c = noCamera ∨ c ∈ r.cameras
  · have hc' : m.isNew c = false := by
      rw [h.cameras] at hc
      simp only [FrameMap.isNew, decide_eq_false_iff_not, not_and, not_not]
      exact fun hne => hc.resolve_left hne
    have hr : r.hardwareAddCamera c = (false, r) := by
      simp [Repository.hardwareAddCamera, Repository.addCamera, hc]
    rw [hr, hc', FrameMap.addCamera, hc']
    exact ⟨rfl, h⟩
  · have hm : c ∉ m.cameras := fun hm => hc (Or.inr (by rwa [h.cameras]))
    have hc' : m.isNew c = true := by
      simp only [FrameMap.isNew, decide_eq_true_eq]
      exact ⟨fun he => hc (Or.inl he), hm⟩
    have hr : r.hardwareAddCamera c =
        (true, Repository.nextSeqno { r with cameras := r.cameras ++ [c] } c) := by
      simp [Repository.hardwareAddCamera, Repository.addCamera, hc]
    rw [hr, hc', FrameMap.addCamera, hc']
    refine ⟨rfl, ⟨?_, ?_, ?_, h.below, ?_, ?_, ?_⟩⟩
    · rw [Repository.cameras_nextSeqno]
      exact congrArg (· ++ [c]) h.cameras
    · intro d
      by_cases hd : d = c
      · subst hd
        have hnone : r.seqNumbers d = none := by rw [h.counters, if_neg hm]
        rw [Repository.seqNumbers_nextSeqno_self, hnone]
        simp [hnew d hm]
      · rw [Repository.seqNumbers_nextSeqno_of_ne _ hd]
        have hiff : (d ∈ m.cameras ++ [c]) = (d ∈ m.cameras) := by simp [hd]
        simp only [if_true, hiff]
        exact h.counters d
    · intro k
      rw [Repository.frame_nextSeqno]
      exact h.frames k
    · rw [Repository.stereoFrames_nextSeqno]
      exact h.unpaired
    · rw [Repository.infos_nextSeqno]
      exact h.flags
    · rw [Repository.infos_nextSeqno]
      exact h.sized

theorem newFrame (h : Represents r m) {c : CameraId} (hc : c ∈ m.cameras) (f : FrameRef) :
    Represents (r.newFrame c f) (m.add c f) := by
  have hn := h.number_eq hc
  refine ⟨?_, ?_, ?_, ?_, ?_, ?_, ?_⟩
  · rw [Repository.cameras_newFrame]
    exact h.cameras
  · intro d
    rw [Repository.seqNumbers_newFrame]
    by_cases hd : d = c
    · subst hd
      rw [Repository.seqNumbers_nextSeqno_self, h.counters, if_pos hc]
      simp [FrameMap.add, hc]
    · rw [Repository.seqNumbers_nextSeqno_of_ne r hd, h.counters]
      simp [FrameMap.add, hd]
  · intro k
    by_cases hk : k = (c, m.count c)
    · subst hk
      have hfree := h.below c (m.count c) (Nat.le_refl _)
      rw [← hn, Repository.frame_newFrame_self, hn, h.frames, hfree]
      simp [FrameMap.add]
    · rw [Repository.frame_newFrame_of_ne r f (by rwa [hn]), h.frames]
      simp [FrameMap.add, hk]
  · intro d s hs
    have hlt : d = c → m.count c < s := by
      rintro rfl
      have hs' : m.count d + 1 ≤ s := by simpa [FrameMap.add] using hs
      exact hs'
    have hle : m.count d ≤ s := by
      by_cases hd : d = c
      · subst hd
        exact Nat.le_of_lt (hlt rfl)
      · simpa [FrameMap.add, hd] using hs
    have hk : ((d, s) : Key) ≠ (c, m.count c) := by
      intro hk
      obtain ⟨hd, hs'⟩ := Prod.mk.inj hk
      have hlt' := hlt hd
      rw [hs'] at hlt'
      exact Nat.lt_irrefl _ hlt'
    simp only [FrameMap.add, Table.assign_of_ne _ _ hk]
    exact h.below d s hle
  · rw [Repository.stereoFrames_newFrame]
    exact h.unpaired
  · intro g u
    rw [Repository.infos_newFrame]
    have hflag : ({ r.infos f with seqno := r.number c } : FrameInfo).flag u =
        (r.infos f).flag u := by cases u <;> rfl
    split_ifs with hg
    · rw [hflag, hg]
      exact h.flags f u
    · exact h.flags g u
  · intro g
    rw [Repository.infos_newFrame]
    split_ifs
    · exact h.sized f
    · exact h.sized g

theorem deleteFrame (h : Represents r m) (k : Key) :
    Represents (r.deleteFrame k) (m.delete k) := by
  have hunpaired : r.stereoFrames (pairHasher k) = none := by rw [h.unpaired]; rfl
  rw [Repository.deleteFrame_of_unpaired hunpaired]
  refine ⟨?_, ?_, ?_, ?_, ?_, ?_, ?_⟩
  · rw [Repository.cameras_eraseIf, FrameMap.delete_cameras]
    exact h.cameras
  · intro c
    rw [Repository.seqNumbers_eraseIf, FrameMap.delete_cameras, FrameMap.delete_count]
    exact h.counters c
  · intro j
    apply Option.ext
    intro f
    have hfree : (r.infos f).unclaimed = true ↔ ∀ u, m.flag f u = false := by
      simp only [FrameInfo.unclaimed_iff, h.flags]
    rw [Repository.frame_eraseIf, FrameMap.delete_live, h.frames, hfree]
  · intro c s hs
    rw [FrameMap.delete_count] at hs
    by_contra hn
    obtain ⟨f, hf⟩ := Option.ne_none_iff_exists'.mp hn
    rw [FrameMap.delete_live, h.below c s hs] at hf
    cases hf.1
  · rw [Repository.stereoFrames_eraseIf]
    exact h.unpaired
  · rw [Repository.infos_eraseIf, FrameMap.delete_flag]
    exact h.flags
  · rw [Repository.infos_eraseIf]
    exact h.sized

theorem clearQueued (h : Represents r m) (c : CameraId) :
    Represents (r.clearQueued c) (m.clear c) := by
  refine ⟨h.cameras, h.counters, ?_, ?_, h.unpaired, h.flags, h.sized⟩
  · intro k
    rw [Repository.frame_clearQueued, h.frames]
    rfl
  · intro d s hs
    simp only [FrameMap.clear]
    split_ifs
    · rfl
    · exact h.below d s hs

theorem setFlag (h : Represents r m) (f : FrameRef) (u : Consumer) (b : Bool) :
    Represents (r.modifyInfo f (·.setFlag u b)) (m.setFlag f u b) := by
  refine ⟨h.cameras, h.counters, h.frames, h.below, h.unpaired, ?_, ?_⟩
  · intro g v
    rw [Repository.infos_modifyInfo]
    by_cases hg : g = f
    · subst hg
      simp [FrameMap.setFlag, h.flags]
    · simp [FrameMap.setFlag, hg, h.flags]
  · intro g
    rw [Repository.infos_modifyInfo]
    split_ifs
    · rw [FrameInfo.rgbaLen_setFlag]
      exact h.sized f
    · exact h.sized g

theorem getFrame (h : Represents r m) (k : Key) : r.getFrame k = some (m.live k) := by
  rw [Repository.getFrame, h.frames]
  cases m.live k with
  | none => rfl
  | some f => simp [h.sized f]

end Represents

/-- The repository and the map, with the fact that only registered cameras have had frames. -/
def Simulates (r : Repository) (m : FrameMap) : Prop :=
  Represents r m ∧ ∀ c, c ∉ m.cameras → m.count c = 0

theorem FrameMap.count_of_not_mem {m t : FrameMap} (h : ∀ c, c ∉ m.cameras → m.count c = 0)
    {q : Request} {a : q.Ans} (hok : Monocular m.cameras q)
    (hq : FrameMap.respond q m = some (a, t)) : ∀ c, c ∉ t.cameras → t.count c = 0 := by
  cases q with
  | hardwareAddCamera d =>
      cases hq
      intro c hc
      unfold FrameMap.addCamera at hc ⊢
      split_ifs at hc ⊢
      · exact h c (fun hm => hc (List.mem_append_left _ hm))
      · exact h c hc
  | newFrame d f =>
      cases hq
      intro c hc
      have hcd : c ≠ d := by
        rintro rfl
        exact hc hok
      simp [FrameMap.add, hcd, h c hc]
  | deleteFrame d s =>
      cases hq
      simpa using h
  | clearQueued d | setFlag f u b | getFrame d s | hasFrame d s | hasFrameAny s =>
      cases hq
      exact h
  | _ => cases hq

/-- Both services answer, and answer the same. -/
theorem Simulates.respond {r : Repository} {m : FrameMap} (h : Simulates r m) {q : Request}
    (hok : Monocular m.cameras q) :
    ∃ a t t', r.respond q = some (a, t) ∧ FrameMap.respond q m = some (a, t') ∧
      Simulates t t' := by
  obtain ⟨hr, hnew⟩ := h
  have hstep {a : q.Ans} {t : Repository} {t' : FrameMap} (h1 : r.respond q = some (a, t))
      (h2 : FrameMap.respond q m = some (a, t')) (h3 : Represents t t') :
      ∃ a t t', r.respond q = some (a, t) ∧ FrameMap.respond q m = some (a, t') ∧
        Simulates t t' :=
    ⟨a, t, t', h1, h2, h3, FrameMap.count_of_not_mem hnew hok h2⟩
  cases q with
  | hardwareAddCamera c =>
      obtain ⟨ha, hrep⟩ := hr.addCamera hnew c
      refine hstep (a := m.isNew c) ?_ rfl hrep
      rw [Repository.respond_eq, Request.effect, ← ha]
  | newFrame c f =>
      refine hstep (a := m.count c) ?_ rfl (hr.newFrame hok f)
      rw [Repository.respond_eq, Request.effect, hr.number_eq hok]
  | getFrame c s =>
      refine hstep (a := m.live (c, s)) ?_ rfl hr
      rw [Repository.respond_eq, Request.effect, hr.getFrame, Option.map_some]
  | hasFrame c s =>
      refine hstep (a := (m.live (c, s)).isSome) ?_ rfl hr
      rw [Repository.respond_eq, Request.effect, Repository.hasFrame, hr.frames]
  | hasFrameAny s =>
      refine hstep (a := m.cameras.any (fun c => (m.live (c, s)).isSome)) ?_ rfl hr
      simp only [Repository.respond_eq, Request.effect, Repository.hasFrame, hr.frames, hr.cameras]
  | deleteFrame c s => exact hstep (Repository.respond_eq _ _) rfl (hr.deleteFrame (c, s))
  | clearQueued c => exact hstep (Repository.respond_eq _ _) rfl (hr.clearQueued c)
  | setFlag f u b => exact hstep (Repository.respond_eq _ _) rfl (hr.setFlag f u b)
  | _ => cases hok

/-- A monocular run of the repository. -/
abbrev MonocularRun (infos : FrameRef → FrameInfo) (done : History) (r : Repository) : Prop :=
  Session Repository.respond (fun _ r q => Monocular r.cameras q) (.initial infos) done r

abbrev MapRun (infos : FrameRef → FrameInfo) (done : History) (m : FrameMap) : Prop :=
  Session FrameMap.respond (fun _ m q => Monocular m.cameras q)
    { flag := fun f => (infos f).flag } done m

section Runs

variable {infos : FrameRef → FrameInfo} {done : History} {r : Repository} {m : FrameMap}

theorem simulates_initial (hl : ∀ f, 0 < (infos f).rgbaLen) :
    Simulates (.initial infos) { flag := fun f => (infos f).flag } :=
  ⟨.initial hl, fun _ _ => rfl⟩

/-- Every run of the repository is one of the map. -/
theorem mapRun_of_monocularRun (hl : ∀ f, 0 < (infos f).rgbaLen)
    (h : MonocularRun infos done r) : ∃ m, MapRun infos done m ∧ Simulates r m := by
  refine Session.refines (simulates_initial hl) ?_ h
  intro _ _ r m q a t hs hok hq
  rw [hs.1.cameras] at hok
  obtain ⟨a', t', u', hr, hm, hs'⟩ := hs.respond hok
  rw [hr] at hq
  cases hq
  exact ⟨hok, u', hm, hs'⟩

/-- Every run of the map is one of the repository. -/
theorem monocularRun_of_mapRun (hl : ∀ f, 0 < (infos f).rgbaLen) (h : MapRun infos done m) :
    ∃ r, MonocularRun infos done r ∧ Simulates r m := by
  refine Session.refines (R := fun m r => Simulates r m) (simulates_initial hl) ?_ h
  intro _ _ m r q a t hs hok hq
  obtain ⟨a', t', u', hr, hm, hs'⟩ := hs.respond hok
  rw [hm] at hq
  cases hq
  exact ⟨by rwa [hs.1.cameras], t', hr, hs'⟩

/-- In a monocular run every call answers what the calls before it call for, the repository
represents the frame map at its end, and leaving out all calls on other cameras changes no answer
of the calls on a camera. -/
theorem frame_store_refines_map (hl : ∀ f, 0 < (infos f).rgbaLen)
    (h : MonocularRun infos done r) :
    Answered (MonocularAnswer (fun f => (infos f).flag)) done ∧
    (∃ m, MapRun infos done m ∧ Represents r m) ∧
    ∀ d, ∃ r', MonocularRun infos (done.filter (fun e => e.request.onlyOn d)) r' := by
  obtain ⟨m, hm, hs⟩ := mapRun_of_monocularRun hl h
  refine ⟨?_, ⟨m, hm, hs.1⟩, ?_⟩
  · exact Session.answered (fun _ _ => FrameMap.Records.of_session)
      (fun _ _ _ _ _ hrec _ hq => hrec.answer hq) hm
  · intro d
    obtain ⟨m', hm'⟩ := FrameMap.session_onlyOn d hm
    obtain ⟨r', hr', _⟩ := monocularRun_of_mapRun hl hm'
    exact ⟨r', hr'⟩

end Runs

/-- The first frame of a camera is registered as number 0. -/
theorem frame_store_refines_map_first :
    Answered (MonocularAnswer (fun _ _ => false))
      [⟨.newFrame 3 7, 0⟩, ⟨.hardwareAddCamera 3, true⟩] := by
  have h0 : MonocularRun (fun _ => { rgbaLen := 4 }) [] (.initial fun _ => { rgbaLen := 4 }) :=
    .start
  have h1 := h0.call (q := .hardwareAddCamera 3) (by exact trivial) (Repository.respond_eq _ _)
  have h2 := h1.call (q := .newFrame 3 7) (by exact List.mem_cons_self)
    (Repository.respond_eq _ _)
  exact (frame_store_refines_map (fun _ => by decide) h2).1

end ARArch

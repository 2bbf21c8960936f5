import ARArch.RepositoryCalls
import ARArch.RelyGuarantee

/-!
# The repository under interleaving

Threads call the repository step by step over one shared memory, and the calls made are recorded
with their answers. The inversion lemmas say what each step requires, answers and changes.
-/

namespace ARArch

open Atomic

variable {τ : Type} [DecidableEq τ]

/-- The shared memory with the calls made so far, the latest first. -/
abbrev Shared (τ : Type) := Recorded τ Op Op.Ans (Memory τ)

/-- The steps that the threads may take. -/
def calls : Action τ Op Op.Ans (Shared τ) := recorded Memory.exec

/-- Thread `t` made call `i` and was answered `r`. -/
def Did (s : Shared τ) (t : τ) (i : Op) (r : i.Ans) : Prop := ⟨t, i, r⟩ ∈ s.hist

theorem Did.of_calls {s s' : Shared τ} {t : τ} {i : Op} {r : i.Ans} (h : calls t i s r s') :
    Did s' t i r := by
  rw [Did, h.2]
  exact List.mem_cons_self

theorem Did.mono {s s' : Shared τ} {t u : τ} {i j : Op} {r : i.Ans} {r' : j.Ans}
    (h : calls t i s r s') (hd : Did s u j r') : Did s' u j r' := by
  rw [Did, h.2]
  exact List.mem_cons_of_mem _ hd

/-- A call that was made is the latest one or an earlier one. -/
theorem Did.cases {s s' : Shared τ} {t u : τ} {i j : Op} {r : i.Ans} {r' : j.Ans}
    (h : calls t i s r s') (hd : Did s' u j r') :
    (⟨u, j, r'⟩ : Event τ Op Op.Ans) = ⟨t, i, r⟩ ∨ Did s u j r' := by
  rw [Did, h.2] at hd
  exact List.mem_cons.mp hd

namespace Memory

variable {b : Bool} {t : τ} {m m' : Memory τ} {c : CameraId} {s : SeqNo} {f : FrameRef}
  {u : Consumer}

theorem exec_counterFind {a : Bool} (h : exec b t (.counterFind c) m = some (a, m')) :
    a = (m.repo.seqNumbers c).isSome ∧ m' = m := by
  cases h
  exact ⟨rfl, rfl⟩

theorem exec_counterFetchAdd {n : SeqNo}
    (h : exec b t (.counterFetchAdd c) m = some (n, m')) :
    m.repo.seqNumbers c = some n ∧ m' = m.withRepo
      { m.repo with seqNumbers := m.repo.seqNumbers.assign c (n + 1) } := by
  obtain ⟨k, hk, he⟩ := Option.map_eq_some_iff.mp h
  cases he
  exact ⟨hk, rfl⟩

theorem exec_findCamera {a : Bool} (h : exec b t (.findCamera c) m = some (a, m')) :
    (a = false ∧ m.repo.cameraFrames c = none ∧ m' = m) ∨
      (a = true ∧ (m.repo.cameraFrames c).isSome ∧ m.cameraLock c = none ∧
        m' = { m with cameraLock := m.cameraLock.assign c t }) := by
  simp only [exec] at h
  split_ifs at h with hn hl
  · cases h
    exact Or.inl ⟨rfl, by simpa using hn, rfl⟩
  · cases h
    exact Or.inr ⟨rfl, by simpa [Option.isSome_iff_ne_none] using hn, by simpa using hl, rfl⟩

theorem exec_insertCamera {a : Bool} (h : exec b t (.insertCamera c) m = some (a, m')) :
    a = (m.repo.cameraFrames c).isNone ∧ m' = m.withRepo
      { m.repo with cameraFrames := m.repo.cameraFrames.insert c Table.empty } := by
  cases h
  exact ⟨rfl, rfl⟩

theorem exec_dropCamera {a : Unit} (h : exec b t (.dropCamera c) m = some (a, m')) :
    m'.repo = m.repo ∧ m'.frameLock = m.frameLock ∧ m'.accepted = m.accepted ∧
      m'.cameraLock =
        if m.cameraLock c = some t then m.cameraLock.erase c else m.cameraLock := by
  cases h
  exact ⟨rfl, rfl, rfl, rfl⟩

theorem exec_insertFrame {a : Unit}
    (h : exec b t (.insertFrame (.linked c) s f) m = some (a, m')) :
    m' = m.withRepo (m.repo.insertFrame (c, s) f) := by
  cases h
  rfl

theorem exec_setSeqno {a : Unit} (h : exec b t (.setSeqno f s) m = some (a, m')) :
    m' = m.withRepo (m.repo.modifyInfo f (fun i => { i with seqno := s })) := by
  cases h
  rfl

theorem exec_findFrame {a : Option FrameRef} (h : exec b t (.findFrame c s) m = some (a, m')) :
    (a = none ∧ m.repo.frame (c, s) = none ∧ m' = m) ∨
      ∃ f, a = some f ∧ m.repo.frame (c, s) = some f ∧ m.frameLock (c, s) = none ∧
        m' = { m with frameLock := m.frameLock.assign (c, s) t } := by
  simp only [exec] at h
  cases hf : m.repo.frame (c, s) with
  | none =>
      rw [hf] at h
      cases h
      exact Or.inl ⟨rfl, rfl, rfl⟩
  | some f =>
      rw [hf] at h
      dsimp only at h
      split_ifs at h with hl
      cases h
      exact Or.inr ⟨f, rfl, rfl, by simpa using hl, rfl⟩

theorem exec_peekCamera {a : Bool} (h : exec b t (.peekCamera c) m = some (a, m')) : m' = m := by
  simp only [exec] at h
  split_ifs at h
  cases h
  rfl

theorem exec_eraseFrame {a : Unit} (h : exec b t (.eraseFrame c s) m = some (a, m')) :
    m'.repo = m.repo.eraseFrame (c, s) ∧ m'.cameraLock = m.cameraLock ∧
      m'.accepted = m.accepted := by
  cases h
  exact ⟨rfl, rfl, rfl⟩

theorem exec_load {a : Bool} (h : exec b t (.load f u) m = some (a, m')) :
    a = (m.repo.infos f).flag u ∧ m' = m := by
  cases h
  exact ⟨rfl, rfl⟩

theorem exec_store {v : Bool} {a : Unit} (h : exec b t (.store f u v) m = some (a, m')) :
    m' = m.withRepo (m.repo.modifyInfo f (·.setFlag u v)) := by
  cases h
  rfl

theorem exec_rgbaLen {n : ℤ} (h : exec b t (.rgbaLen f) m = some (n, m')) :
    n = (m.repo.infos f).rgbaLen ∧ m' = m := by
  cases h
  exact ⟨rfl, rfl⟩

theorem exec_stereoFind {x : ℕ} {a : Option Key}
    (h : exec b t (.stereoFind x) m = some (a, m')) :
    a = m.repo.stereoFrames x ∧ m' = m := by
  cases h
  exact ⟨rfl, rfl⟩

theorem exec_tryPut {port : ℕ} {a : Bool} (h : exec b t (.tryPut port c s u) m = some (a, m')) :
    (a = false ∧ m' = m) ∨
      (a = true ∧ m' = { m with accepted := ((c, s), u) :: m.accepted }) := by
  cases b
  · cases h
    exact Or.inl ⟨rfl, rfl⟩
  · cases h
    exact Or.inr ⟨rfl, rfl⟩

theorem exec_begin {a : Unit} (h : exec b t (.begin c s u) m = some (a, m')) :
    ((c, s), u) ∈ m.accepted ∧ m' = m := by
  simp only [exec] at h
  split_ifs at h with hm
  cases h
  exact ⟨hm, rfl⟩

theorem exec_exchangeRendering {a : Bool} (h : exec b t .exchangeRendering m = some (a, m')) :
    a = (!m.isRendering) ∧ m' = { m with isRendering := true } := by
  cases h
  exact ⟨rfl, rfl⟩

theorem exec_seqno {n : SeqNo} (h : exec b t (.seqno f) m = some (n, m')) :
    n = (m.repo.infos f).seqno ∧ m' = m := by
  cases h
  exact ⟨rfl, rfl⟩

end Memory
end ARArch

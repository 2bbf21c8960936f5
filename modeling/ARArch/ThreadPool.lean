import ARArch.AtomicProgram
import Mathlib.Logic.Relation

/-!
# Pools of interleaved programs

Every thread of a pool runs a program of its own over one shared state, and any thread whose
next operation can proceed may be the one to move. `Recorded` states carry the history of the
calls made so far, so that a statement about the order of events is a statement about states.

`Pool.replay` executes a given schedule. It produces runs of a pool on concrete data.
-/

namespace Atomic

variable {τ ι : Type} {ρ : ι → Type} {α σ μ : Type}

/-- Which answer and which next state operation `i` of thread `t` may have in a state. -/
abbrev Action (τ ι : Type) (ρ : ι → Type) (σ : Type) := τ → (i : ι) → σ → ρ i → σ → Prop

/-- The part of an action whose calls meet a condition in the state before them. -/
def Action.restrict (act : Action τ ι ρ σ) (ok : τ → (i : ι) → σ → ρ i → Prop) :
    Action τ ι ρ σ :=
  fun t i s r s' => act t i s r s' ∧ ok t i s r

structure Pool (τ ι : Type) (ρ : ι → Type) (α σ : Type) where
  threads : τ → Prog ι ρ α
  state : σ

inductive Pool.Step [DecidableEq τ] (act : Action τ ι ρ σ) :
    Pool τ ι ρ α σ → Pool τ ι ρ α σ → Prop
  | call {c : Pool τ ι ρ α σ} {t : τ} {i : ι} {k : ρ i → Prog ι ρ α} {r : ρ i} {s' : σ}
      (hc : c.threads t = .call i k) (ha : act t i c.state r s') :
      Pool.Step act c ⟨Function.update c.threads t (k r), s'⟩

/-- The pools reached by any interleaving. -/
abbrev Pool.Reach [DecidableEq τ] (act : Action τ ι ρ σ) :
    Pool τ ι ρ α σ → Pool τ ι ρ α σ → Prop :=
  Relation.ReflTransGen (Pool.Step act)

/-- The thread has not finished, and its next operation can proceed. -/
def Pool.CanMove (act : Action τ ι ρ σ) (c : Pool τ ι ρ α σ) (t : τ) : Prop :=
  ∃ i k r s', c.threads t = .call i k ∧ act t i c.state r s'

/-- A call that thread `thread` made, with its answer. -/
structure Event (τ ι : Type) (ρ : ι → Type) where
  thread : τ
  op : ι
  ans : ρ op

/-- A memory together with the calls made so far, the latest first. -/
structure Recorded (τ ι : Type) (ρ : ι → Type) (μ : Type) where
  mem : μ
  hist : List (Event τ ι ρ)

/-- The recorded action of an executable meaning. The Boolean settles what the environment is
free to settle. -/
def recorded (exec : Bool → τ → (i : ι) → μ → Option (ρ i × μ)) :
    Action τ ι ρ (Recorded τ ι ρ μ) :=
  fun t i s r s' => (∃ b, exec b t i s.mem = some (r, s'.mem)) ∧ s'.hist = ⟨t, i, r⟩ :: s.hist

/-- A call of a thread that runs alone, recorded. What the environment is free to settle may depend
on all the calls before. -/
def record (exec : Bool → τ → (i : ι) → μ → Option (ρ i × μ))
    (answer : List (Event τ ι ρ) → ι → Bool) (t : τ) (i : ι) (s : Recorded τ ι ρ μ) :
    Option (ρ i × Recorded τ ι ρ μ) :=
  (exec (answer s.hist i) t i s.mem).map (fun q => (q.1, ⟨q.2, ⟨t, i, q.1⟩ :: s.hist⟩))

/-- A program that asks the environment for nothing runs as without a record. -/
theorem run_record_of_within {κ : Type} {mark : ι → Option κ} {t : τ}
    {exec : Bool → τ → (i : ι) → μ → Option (ρ i × μ)}
    (hexec : ∀ i b b' m, mark i = none → exec b t i m = exec b' t i m) {p : Prog ι ρ α}
    (hp : p.Within mark []) {answer : List (Event τ ι ρ) → ι → Bool} {answer' : ι → Bool}
    {a : α} {m m' : μ} (hrun : p.run (fun i => exec (answer' i) t i) m = some (a, m'))
    (h : List (Event τ ι ρ)) :
    ∃ es, p.run (record exec answer t) ⟨m, h⟩ = some (a, ⟨m', es ++ h⟩) ∧
      ∀ e ∈ es, mark e.op = none := by
  induction p generalizing m h with
  | pure b =>
      cases hrun
      exact ⟨[], rfl, fun e he => (List.not_mem_nil he).elim⟩
  | call i k ih =>
      obtain ⟨hi, hk⟩ | ⟨x, M, _, hM, _⟩ := hp
      · obtain ⟨⟨r, m₁⟩, he, hr⟩ := Option.bind_eq_some_iff.mp hrun
        obtain ⟨es, hes, hmark⟩ := ih r (hk r) hr (⟨t, i, r⟩ :: h)
        have hcall : record exec answer t i ⟨m, h⟩ = some (r, ⟨m₁, ⟨t, i, r⟩ :: h⟩) := by
          have he' : exec (answer h i) t i m = some (r, m₁) := (hexec i _ _ m hi).trans he
          rw [record, he', Option.map_some]
        refine ⟨es ++ [⟨t, i, r⟩], ?_, ?_⟩
        · rw [Prog.run, hcall, Option.bind_some, hes, List.append_assoc]
          rfl
        · intro e he
          rcases List.mem_append.mp he with he | he
          · exact hmark e he
          · cases List.mem_singleton.mp he
            exact hi
      · cases List.suffix_nil.mp hM

namespace Pool

variable [DecidableEq τ]

/-- Execute a schedule of threads and environment choices; `check` may refuse a call. -/
def replay (exec : Bool → τ → (i : ι) → μ → Option (ρ i × μ))
    (check : τ → (i : ι) → Recorded τ ι ρ μ → ρ i → Bool) :
    List (τ × Bool) → Pool τ ι ρ α (Recorded τ ι ρ μ) → Option (Pool τ ι ρ α (Recorded τ ι ρ μ))
  | [], c => some c
  | (t, b) :: sched, c =>
    match c.threads t with
    | .pure _ => none
    | .call i k =>
      match exec b t i c.state.mem with
      | none => none
      | some (r, m) =>
        if check t i c.state r then
          replay exec check sched
            ⟨Function.update c.threads t (k r), ⟨m, ⟨t, i, r⟩ :: c.state.hist⟩⟩
        else none

theorem reach_of_replay {exec : Bool → τ → (i : ι) → μ → Option (ρ i × μ)}
    {check : τ → (i : ι) → Recorded τ ι ρ μ → ρ i → Bool}
    {ok : τ → (i : ι) → Recorded τ ι ρ μ → ρ i → Prop}
    (hok : ∀ t i s r, check t i s r = true → ok t i s r)
    (sched : List (τ × Bool)) (c c' : Pool τ ι ρ α (Recorded τ ι ρ μ))
    (hr : replay exec check sched c = some c') :
    Reach ((recorded exec).restrict ok) c c' := by
  induction sched generalizing c with
  | nil =>
      cases hr
      exact .refl
  | cons p sched ih =>
      obtain ⟨t, b⟩ := p
      simp only [replay] at hr
      split at hr
      · cases hr
      · rename_i i k hc
        split at hr
        · cases hr
        · rename_i r m he
          split_ifs at hr with hk
          exact .head (.call hc ⟨⟨⟨b, he⟩, rfl⟩, hok t i c.state r hk⟩) (ih _ hr)

/-- The condition that always holds restricts nothing. -/
theorem reach_restrict_true (act : Action τ ι ρ σ) {c c' : Pool τ ι ρ α σ} :
    Reach (act.restrict (fun _ _ _ _ => True)) c c' ↔ Reach act c c' := by
  have hact : act.restrict (fun _ _ _ _ => True) = act := by
    funext t i s r s'
    exact propext (and_iff_left trivial)
  rw [hact]

/-- A run of the unrestricted pool. -/
theorem reach_of_replay_all {exec : Bool → τ → (i : ι) → μ → Option (ρ i × μ)}
    {check : τ → (i : ι) → Recorded τ ι ρ μ → ρ i → Bool}
    (sched : List (τ × Bool)) (c c' : Pool τ ι ρ α (Recorded τ ι ρ μ))
    (hr : replay exec check sched c = some c') : Reach (recorded exec) c c' := by
  have hreach : Reach ((recorded exec).restrict (fun _ _ _ _ => True)) c c' :=
    reach_of_replay (fun _ _ _ _ _ => trivial) sched c c' hr
  exact (reach_restrict_true (recorded exec)).mp hreach

/-- A schedule leaves the threads it does not name where they were. -/
theorem replay_threads_of_notMem {exec : Bool → τ → (i : ι) → μ → Option (ρ i × μ)}
    {check : τ → (i : ι) → Recorded τ ι ρ μ → ρ i → Bool} {u : τ}
    (sched : List (τ × Bool)) (hu : u ∉ sched.map Prod.fst)
    (c c' : Pool τ ι ρ α (Recorded τ ι ρ μ)) (hr : replay exec check sched c = some c') :
    c'.threads u = c.threads u := by
  induction sched generalizing c with
  | nil =>
      cases hr
      rfl
  | cons p sched ih =>
      obtain ⟨t, b⟩ := p
      simp only [List.map_cons, List.mem_cons, not_or] at hu
      simp only [replay] at hr
      split at hr
      · cases hr
      · split at hr
        · cases hr
        · split_ifs at hr
          rw [ih hu.2 _ hr]
          exact Function.update_of_ne hu.1 _ _

/-- Where every thread follows a discipline, the threads have ghost values that their steps move
on, and what holds of these together with the state holds at every moment. -/
theorem ghosts_of_reach {γ : Type} {D : Discipline ι ρ γ} {act : Action τ ι ρ σ}
    {J : (τ → γ) → σ → Prop}
    (hstep : ∀ G t i s r s', J G s → D.allowed i (G t) → D.answers i r → act t i s r s' →
      J (Function.update G t (D.after i r (G t))) s')
    {prog : τ → Prog ι ρ α} {G₀ : τ → γ} {post : τ → α → γ} {s : σ}
    (hprog : ∀ t, D.Follows (G₀ t) (prog t) (post t)) (h₀ : J G₀ s) {c : Pool τ ι ρ α σ}
    (hr : Reach (act.restrict (fun _ i _ r => D.answers i r)) ⟨prog, s⟩ c) :
    ∃ G, J G c.state ∧ ∀ t, D.Follows (G t) (c.threads t) (post t) := by
  induction hr with
  | refl => exact ⟨G₀, h₀, hprog⟩
  | tail _ hmove ih =>
      cases hmove with
      | @call u i k r s' hc ha =>
          obtain ⟨G, hG, hf⟩ := ih
          have hu := hf u
          rw [hc] at hu
          refine ⟨_, hstep G u i _ r s' hG hu.1 ha.2 ha.1, fun t => ?_⟩
          by_cases ht : t = u
          · subst ht
            simpa using hu.2 r ha.2
          · simpa [Function.update_of_ne ht] using hf t

/-- The same where the steps of the others leave true what holds of a thread's ghost value. -/
theorem follows_of_reach {γ : Type} {D : Discipline ι ρ γ} {act : Action τ ι ρ σ}
    {J : τ → γ → σ → Prop}
    (hself : ∀ t i g s r s', J t g s → D.allowed i g → D.answers i r → act t i s r s' →
      J t (D.after i r g) s')
    (hother : ∀ t u i g s r s', u ≠ t → J u g s → act t i s r s' → J u g s')
    {prog : τ → Prog ι ρ α} {g₀ : γ} {post : τ → α → γ} {s : σ}
    (hprog : ∀ t, D.Follows g₀ (prog t) (post t)) (h₀ : ∀ t, J t g₀ s) {c : Pool τ ι ρ α σ}
    (hr : Reach (act.restrict (fun _ i _ r => D.answers i r)) ⟨prog, s⟩ c) (t : τ) :
    ∃ g, J t g c.state ∧ D.Follows g (c.threads t) (post t) := by
  have hstep (G : τ → γ) (u : τ) (i : ι) (s : σ) (r : ρ i) (s' : σ) (hG : ∀ t, J t (G t) s)
      (hi : D.allowed i (G u)) (hr : D.answers i r) (ha : act u i s r s') (t : τ) :
      J t (Function.update G u (D.after i r (G u)) t) s' := by
    by_cases ht : t = u
    · subst ht
      rw [Function.update_self]
      exact hself t i _ s r s' (hG t) hi hr ha
    · rw [Function.update_of_ne ht]
      exact hother u t i _ s r s' ht (hG t) ha
  obtain ⟨G, hG, hf⟩ := ghosts_of_reach (J := fun G s => ∀ t, J t (G t) s) hstep hprog h₀ hr
  exact ⟨G t, hG t, hf t⟩

end Pool
end Atomic

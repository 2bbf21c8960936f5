import Mathlib.Tactic.Common

/-!
# Sessions of a service

A service answers requests one after another and keeps a state. A session is a run of it: the
requests made so far with their answers, the latest first, and the state they left. Which
requests may be made can depend on the session so far.

Three rules reduce a statement about all sessions to one about a single request: `invariant` for
properties of the session so far, `refines` for the simulation of one service by another that
gives the same answers, and `project` for a simulation that leaves requests out.
-/

/-- A request that was made, with its answer. -/
structure Done (κ : Type) (Ans : κ → Type) where
  request : κ
  answer : Ans request

/-- What a service answers to a request and leaves; `none` if it never answers. -/
abbrev Service (κ : Type) (Ans : κ → Type) (σ : Type) := (q : κ) → σ → Option (Ans q × σ)

variable {κ : Type} {Ans : κ → Type} {σ σ' : Type}

inductive Session (respond : Service κ Ans σ) (ok : List (Done κ Ans) → σ → κ → Prop) (s₀ : σ) :
    List (Done κ Ans) → σ → Prop
  | start : Session respond ok s₀ [] s₀
  | call {done : List (Done κ Ans)} {s s' : σ} {q : κ} {a : Ans q}
      (h : Session respond ok s₀ done s) (hok : ok done s q)
      (hq : respond q s = some (a, s')) : Session respond ok s₀ (⟨q, a⟩ :: done) s'

/-- Every answer of a session meets a specification, given what was done before it. -/
def Answered (A : List (Done κ Ans) → (q : κ) → Ans q → Prop) : List (Done κ Ans) → Prop
  | [] => True
  | d :: done => A done d.request d.answer ∧ Answered A done

namespace Session

variable {respond : Service κ Ans σ} {respond' : Service κ Ans σ'}
  {ok : List (Done κ Ans) → σ → κ → Prop} {s₀ : σ}

theorem invariant {I : List (Done κ Ans) → σ → Prop} (h₀ : I [] s₀)
    (hstep : ∀ done s q a s', I done s → ok done s q → respond q s = some (a, s') →
      I (⟨q, a⟩ :: done) s')
    {done : List (Done κ Ans)} {s : σ} (h : Session respond ok s₀ done s) : I done s := by
  induction h with
  | start => exact h₀
  | call _ hok hq ih => exact hstep _ _ _ _ _ ih hok hq

theorem mono {ok' : List (Done κ Ans) → σ → κ → Prop}
    (hok : ∀ done s q, ok done s q → ok' done s q) {done : List (Done κ Ans)} {s : σ}
    (h : Session respond ok s₀ done s) : Session respond ok' s₀ done s := by
  induction h with
  | start => exact .start
  | call _ hq hr ih => exact .call ih (hok _ _ _ hq) hr

/-- If an invariant makes every answer meet its specification, all answers of a session do. -/
theorem answered {I : List (Done κ Ans) → σ → Prop}
    {A : List (Done κ Ans) → (q : κ) → Ans q → Prop}
    (hI : ∀ done s, Session respond ok s₀ done s → I done s)
    (hA : ∀ done s q a s', I done s → ok done s q → respond q s = some (a, s') → A done q a)
    {done : List (Done κ Ans)} {s : σ} (h : Session respond ok s₀ done s) : Answered A done := by
  induction h with
  | start => trivial
  | call h hok hq ih => exact ⟨hA _ _ _ _ _ (hI _ _ h) hok hq, ih⟩

/-- A service that answers the requests to be kept in the same way, and need not see the others,
has the session of the requests kept. -/
theorem project {R : σ → σ' → Prop} {s₀' : σ'} {ok' : List (Done κ Ans) → σ' → κ → Prop}
    (keep : κ → Bool) (h₀ : R s₀ s₀')
    (hskip : ∀ done s s' q a t, keep q = false → R s s' → ok done s q →
      respond q s = some (a, t) → R t s')
    (hkeep : ∀ done done' s s' q a t, keep q = true → R s s' → ok done s q →
      respond q s = some (a, t) →
      ok' done' s' q ∧ ∃ t', respond' q s' = some (a, t') ∧ R t t')
    {done : List (Done κ Ans)} {s : σ} (h : Session respond ok s₀ done s) :
    ∃ s', Session respond' ok' s₀' (done.filter (fun d => keep d.request)) s' ∧ R s s' := by
  induction h with
  | start => exact ⟨s₀', .start, h₀⟩
  | @call done s t q a _ hok hq ih =>
      obtain ⟨s', hs, hR⟩ := ih
      cases hk : keep q with
      | false =>
          rw [List.filter_cons_of_neg (by simp [hk])]
          exact ⟨s', hs, hskip _ _ _ _ _ _ hk hR hok hq⟩
      | true =>
          rw [List.filter_cons_of_pos (by simp [hk])]
          obtain ⟨hok', t', ht, hR'⟩ := hkeep _ _ _ _ _ _ _ hk hR hok hq
          exact ⟨t', .call hs hok' ht, hR'⟩

/-- A simulation request by request: every session is one of the simulating service. -/
theorem refines {R : σ → σ' → Prop} {s₀' : σ'} {ok' : List (Done κ Ans) → σ' → κ → Prop}
    (h₀ : R s₀ s₀')
    (hstep : ∀ done done' s s' q a t, R s s' → ok done s q → respond q s = some (a, t) →
      ok' done' s' q ∧ ∃ t', respond' q s' = some (a, t') ∧ R t t')
    {done : List (Done κ Ans)} {s : σ} (h : Session respond ok s₀ done s) :
    ∃ s', Session respond' ok' s₀' done s' ∧ R s s' := by
  have hp : ∃ s', Session respond' ok' s₀' (done.filter (fun _ => true)) s' ∧ R s s' :=
    project (fun _ => true) h₀ (fun _ _ _ _ _ _ hk => by cases hk)
    (fun done done' s s' q a t _ => hstep done done' s s' q a t) h
  rwa [List.filter_eq_self.mpr (fun _ _ => rfl)] at hp

/-- Make requests one after another, as long as they may be made. -/
def replay (respond : Service κ Ans σ) (ok : List (Done κ Ans) → σ → κ → Prop)
    [∀ done s q, Decidable (ok done s q)] :
    List κ → List (Done κ Ans) → σ → Option (List (Done κ Ans) × σ)
  | [], done, s => some (done, s)
  | q :: qs, done, s =>
    if ok done s q then
      (respond q s).bind (fun p => replay respond ok qs (⟨q, p.1⟩ :: done) p.2)
    else none

theorem of_replay [∀ done s q, Decidable (ok done s q)] (qs : List κ)
    {done done' : List (Done κ Ans)} {s t : σ} (h : Session respond ok s₀ done s)
    (hr : replay respond ok qs done s = some (done', t)) : Session respond ok s₀ done' t := by
  induction qs generalizing done s with
  | nil =>
      cases hr
      exact h
  | cons q qs ih =>
      simp only [replay] at hr
      split_ifs at hr with hok
      obtain ⟨p, hp, hr⟩ := Option.bind_eq_some_iff.mp hr
      exact ih (h.call hok hp) hr

end Session

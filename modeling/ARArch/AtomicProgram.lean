import Mathlib.Logic.Function.Basic
import Mathlib.Tactic.Common

/-!
# Programs over atomic operations

A program calls operations `i : ι` one after another and continues with the answer, a value of
`ρ i`. Nothing is said here about what an operation does: `Prog.run` executes a program alone,
for a given meaning of the operations, and a pool of threads interleaves several programs by
single calls. One program text serves both.

An operation that cannot proceed (it waits for a lock) has no outcome, and a run that meets one
has no result.
-/

namespace Atomic

inductive Prog (ι : Type) (ρ : ι → Type) (α : Type) : Type
  | pure (a : α)
  | call (i : ι) (k : ρ i → Prog ι ρ α)

namespace Prog

variable {ι : Type} {ρ : ι → Type} {α β σ : Type}

protected def bind : Prog ι ρ α → (α → Prog ι ρ β) → Prog ι ρ β
  | .pure a, f => f a
  | .call i k, f => .call i (fun r => (k r).bind f)

instance : Monad (Prog ι ρ) where
  pure := .pure
  bind := Prog.bind

/-- A single operation, answering what it answers. -/
def perform (i : ι) : Prog ι ρ (ρ i) := .call i .pure

def forEach (f : β → Prog ι ρ Unit) : List β → Prog ι ρ Unit
  | [] => pure ()
  | b :: bs => do f b; forEach f bs

/-- A program over some operations, as one over operations that include them. -/
def embed {κ : Type} {ρ' : κ → Type} (inj : ι → κ) (out : (i : ι) → ρ' (inj i) → ρ i) :
    Prog ι ρ α → Prog κ ρ' α
  | .pure a => .pure a
  | .call i k => .call (inj i) (fun r => embed inj out (k (out i r)))

@[simp] theorem embed_bind {κ : Type} {ρ' : κ → Type} {inj : ι → κ}
    {out : (i : ι) → ρ' (inj i) → ρ i} (p : Prog ι ρ α) (f : α → Prog ι ρ β) :
    (p >>= f).embed inj out = p.embed inj out >>= fun a => (f a).embed inj out := by
  induction p with
  | pure a => rfl
  | call i k ih => exact congrArg (Prog.call (inj i)) (funext fun r => ih (out i r))

/-- A program over operations that are themselves programs over others. -/
def expand {κ : Type} {ρ' : κ → Type} (prog : (i : ι) → Prog κ ρ' (ρ i)) :
    Prog ι ρ α → Prog κ ρ' α
  | .pure a => .pure a
  | .call i k => (prog i).bind (fun r => expand prog (k r))

/-- The result of a program that has ended. -/
def result : Prog ι ρ α → Option α
  | .pure a => some a
  | .call _ _ => none

theorem eq_pure_of_result {p : Prog ι ρ α} {a : α} (h : p.result = some a) : p = .pure a := by
  cases p with
  | pure b =>
      cases h
      rfl
  | call i k => cases h

/-- The result of a program that runs alone, and the state it leaves. -/
def run (exec : (i : ι) → σ → Option (ρ i × σ)) : Prog ι ρ α → σ → Option (α × σ)
  | .pure a, s => some (a, s)
  | .call i k, s => (exec i s).bind (fun p => run exec (k p.1) p.2)

/-- On every path through the program the calls that `mark` marks are taken, in order, from a list.
-/
def Within {κ : Type} (mark : ι → Option κ) : Prog ι ρ α → List κ → Prop
  | .pure _, _ => True
  | .call i k, L =>
    (mark i = none ∧ ∀ r, Within mark (k r) L) ∨
      ∃ x L', mark i = some x ∧ x :: L' <:+ L ∧ ∀ r, Within mark (k r) L'

namespace Within

variable {κ : Type} {mark : ι → Option κ} {i : ι} {p : Prog ι ρ α} {f : α → Prog ι ρ β}
  {L L' : List κ}

theorem pure (a : α) : Within mark (Pure.pure a : Prog ι ρ α) L := trivial

/-- A program without marked calls has none that a smaller marking marks. -/
theorem of_mark {ν : Type} {mark' : ι → Option ν} (hmark : ∀ i, mark i = none → mark' i = none)
    (h : p.Within mark []) : p.Within mark' [] := by
  induction p with
  | pure a => trivial
  | call i k ih =>
      obtain ⟨hi, hk⟩ | ⟨x, M, _, hM, _⟩ := h
      · exact .inl ⟨hmark i hi, fun r => ih r (hk r)⟩
      · cases List.suffix_nil.mp hM

theorem mono (h : p.Within mark L) (hL : L <:+ L') : p.Within mark L' := by
  induction p with
  | pure a => trivial
  | call i k ih =>
      obtain ⟨hi, hk⟩ | ⟨x, M, hi, hM, hk⟩ := h
      · exact .inl ⟨hi, fun r => ih r (hk r)⟩
      · exact .inr ⟨x, M, hi, hM.trans hL, hk⟩

theorem bind (hp : p.Within mark L) (hf : ∀ a, (f a).Within mark L') :
    (p >>= f).Within mark (L ++ L') := by
  induction p generalizing L with
  | pure a => exact (hf a).mono (List.suffix_append L L')
  | call i k ih =>
      obtain ⟨hi, hk⟩ | ⟨x, M, hi, ⟨N, hN⟩, hk⟩ := hp
      · exact .inl ⟨hi, fun r => ih r (hk r)⟩
      · have hM : x :: (M ++ L') <:+ L ++ L' := ⟨N, by simp [← hN]⟩
        exact .inr ⟨x, M ++ L', hi, hM, fun r => ih r (hk r)⟩

/-- Unmarked calls first. -/
theorem bind_nil (hp : p.Within mark []) (hf : ∀ a, (f a).Within mark L) :
    (p >>= f).Within mark L := hp.bind hf

theorem perform_bind {f : ρ i → Prog ι ρ β} (hi : mark i = none)
    (hf : ∀ r, (f r).Within mark L) : (Prog.perform i >>= f).Within mark L :=
  .inl ⟨hi, hf⟩

theorem marked_bind {x : κ} {f : ρ i → Prog ι ρ β} (hi : mark i = some x)
    (hf : ∀ r, (f r).Within mark L) : (Prog.perform i >>= f).Within mark (x :: L) :=
  .inr ⟨x, L, hi, List.suffix_rfl, hf⟩

theorem perform (hi : mark i = none) :
    (Prog.perform i : Prog ι ρ (ρ i)).Within mark L :=
  .inl ⟨hi, fun _ => trivial⟩

theorem ite {c : Prop} [Decidable c] {q : Prog ι ρ α} (hp : p.Within mark L)
    (hq : q.Within mark L) : (if c then p else q).Within mark L := by
  split_ifs
  · exact hp
  · exact hq

end Within

variable (exec : (i : ι) → σ → Option (ρ i × σ))

@[simp] theorem run_pure (a : α) (s : σ) :
    run exec (Pure.pure a : Prog ι ρ α) s = some (a, s) := rfl

@[simp] theorem run_perform (i : ι) (s : σ) : run exec (perform i) s = exec i s := by
  cases h : exec i s <;> simp [perform, run, h]

@[simp] theorem run_bind (p : Prog ι ρ α) (f : α → Prog ι ρ β) (s : σ) :
    run exec (p >>= f) s = (run exec p s).bind (fun q => run exec (f q.1) q.2) := by
  induction p generalizing s with
  | pure a => rfl
  | call i k ih =>
      change (exec i s).bind (fun q => run exec ((k q.1).bind f) q.2) = _
      simp only [run, Option.bind_assoc]
      congr 1
      funext q
      exact ih q.1 q.2

@[simp] theorem run_ite (c : Prop) [Decidable c] (p q : Prog ι ρ α) (s : σ) :
    run exec (if c then p else q) s = if c then run exec p s else run exec q s := by
  split_ifs <;> rfl

@[simp] theorem run_forEach_nil (f : β → Prog ι ρ Unit) (s : σ) :
    run exec (forEach f []) s = some ((), s) := rfl

@[simp] theorem run_forEach_cons (f : β → Prog ι ρ Unit) (b : β) (bs : List β) (s : σ) :
    run exec (forEach f (b :: bs)) s =
      (run exec (f b) s).bind (fun q => run exec (forEach f bs) q.2) := by
  rw [forEach, run_bind]

theorem run_forEach_append (f : β → Prog ι ρ Unit) (bs bs' : List β) (s : σ) :
    run exec (forEach f (bs ++ bs')) s =
      (run exec (forEach f bs) s).bind (fun q => run exec (forEach f bs') q.2) := by
  induction bs generalizing s with
  | nil => rfl
  | cons b bs ih => simp [ih, Option.bind_assoc]

/-- A program run inside a larger memory, of which its operations see one part. -/
theorem run_embed {κ σ' : Type} {ρ' : κ → Type} (exec : (i : ι) → σ → Option (ρ i × σ))
    (exec' : (j : κ) → σ' → Option (ρ' j × σ')) (inj : ι → κ)
    (out : (i : ι) → ρ' (inj i) → ρ i) (back : (i : ι) → ρ i → ρ' (inj i)) (put : σ → σ')
    (hback : ∀ i r, out i (back i r) = r)
    (h : ∀ i s, exec' (inj i) (put s) = (exec i s).map (fun q => (back i q.1, put q.2)))
    (p : Prog ι ρ α) (s : σ) :
    run exec' (p.embed inj out) (put s) = (run exec p s).map (fun q => (q.1, put q.2)) := by
  induction p generalizing s with
  | pure a => rfl
  | call i k ih =>
      rw [embed, run, run, h]
      cases exec i s with
      | none => rfl
      | some q =>
          simp only [Option.map_some, Option.bind_some, hback]
          exact ih q.1 q.2

/-- Whatever a program that runs alone ends with meets `Q`. -/
def Leaves (p : Prog ι ρ α) (s : σ) (Q : α → σ → Prop) : Prop :=
  ∀ a s', run exec p s = some (a, s') → Q a s'

/-- A program that runs alone ends, with something that meets `Q`. -/
def Ends (p : Prog ι ρ α) (s : σ) (Q : α → σ → Prop) : Prop :=
  ∃ a s', run exec p s = some (a, s') ∧ Q a s'

/-- A program that runs alone where `I` holds ends, and `I` holds again. -/
def EndsWithin (I : σ → Prop) (p : Prog ι ρ α) : Prop :=
  ∀ s, I s → p.Ends exec s (fun _ s' => I s')

/-- A program that runs alone leaves the part `g` of the state as it is. -/
def Keeps {γ : Type} (g : σ → γ) (p : Prog ι ρ α) : Prop :=
  ∀ s, p.Leaves exec s (fun _ s' => g s' = g s)

section Leaves

variable {exec} {s s' : σ} {p : Prog ι ρ α} {f : α → Prog ι ρ β} {Q : β → σ → Prop} {a : α}

theorem leaves_pure {Q : α → σ → Prop} :
    (Pure.pure a : Prog ι ρ α).Leaves exec s Q ↔ Q a s := by
  constructor
  · exact fun h => h a s rfl
  · intro h b s' hb
    cases hb
    exact h

theorem leaves_bind : (p >>= f).Leaves exec s Q ↔
    p.Leaves exec s (fun a s' => (f a).Leaves exec s' Q) := by
  simp only [Leaves, run_bind, Option.bind_eq_some_iff]
  constructor
  · exact fun h a s' hp b s'' hf => h b s'' ⟨(a, s'), hp, hf⟩
  · rintro h b s'' ⟨⟨a, s'⟩, hp, hf⟩
    exact h a s' hp b s'' hf

theorem Leaves.mono {Q Q' : α → σ → Prop} (h : p.Leaves exec s Q)
    (hQ : ∀ a s', Q a s' → Q' a s') : p.Leaves exec s Q' :=
  fun a s' hp => hQ a s' (h a s' hp)

theorem leaves_of_run {Q : α → σ → Prop} (h : run exec p s = some (a, s')) :
    p.Leaves exec s Q ↔ Q a s' := by
  constructor
  · exact fun hl => hl a s' h
  · intro hQ b s'' hb
    rw [h] at hb
    cases hb
    exact hQ

theorem leaves_of_run_none {Q : α → σ → Prop} (h : run exec p s = none) :
    p.Leaves exec s Q := by
  intro b s'' hb
  rw [h] at hb
  cases hb

theorem leaves_bind_of_run (h : run exec p s = some (a, s')) :
    (p >>= f).Leaves exec s Q ↔ (f a).Leaves exec s' Q := by
  rw [leaves_bind, leaves_of_run h]

theorem ends_bind : (p >>= f).Ends exec s Q ↔
    p.Ends exec s (fun a s' => (f a).Ends exec s' Q) := by
  simp only [Ends, run_bind, Option.bind_eq_some_iff]
  constructor
  · rintro ⟨b, s'', ⟨⟨a, s'⟩, hp, hf⟩, hQ⟩
    exact ⟨a, s', hp, b, s'', hf, hQ⟩
  · rintro ⟨a, s', hp, b, s'', hf, hQ⟩
    exact ⟨b, s'', ⟨(a, s'), hp, hf⟩, hQ⟩

theorem Ends.mono {Q Q' : α → σ → Prop} (h : p.Ends exec s Q)
    (hQ : ∀ a s', Q a s' → Q' a s') : p.Ends exec s Q' := by
  obtain ⟨a, s', hp, hq⟩ := h
  exact ⟨a, s', hp, hQ a s' hq⟩

/-- What a program leaves it ends with, if it ends. -/
theorem Leaves.ends {Q Q' : α → σ → Prop} (h : p.Leaves exec s Q) (hp : p.Ends exec s Q') :
    p.Ends exec s Q := by
  obtain ⟨a, s', hrun, -⟩ := hp
  exact ⟨a, s', hrun, h a s' hrun⟩

/-- A program that runs alone has one end. -/
theorem Ends.leaves {Q : α → σ → Prop} (h : p.Ends exec s Q) : p.Leaves exec s Q := by
  obtain ⟨a, s', hp, hq⟩ := h
  exact (leaves_of_run hp).mpr hq

theorem ends_of_run {Q : α → σ → Prop} (h : run exec p s = some (a, s')) :
    p.Ends exec s Q ↔ Q a s' := by
  constructor
  · rintro ⟨b, s'', hb, hQ⟩
    rw [h] at hb
    cases hb
    exact hQ
  · exact fun hQ => ⟨a, s', h, hQ⟩

theorem ends_pure {Q : α → σ → Prop} : (Pure.pure a : Prog ι ρ α).Ends exec s Q ↔ Q a s :=
  ends_of_run rfl

theorem not_ends_of_run_none {Q : α → σ → Prop} (h : run exec p s = none) :
    ¬ p.Ends exec s Q := by
  rintro ⟨a, s', hp, -⟩
  rw [h] at hp
  cases hp

theorem ends_bind_of_run (h : run exec p s = some (a, s')) :
    (p >>= f).Ends exec s Q ↔ (f a).Ends exec s' Q := by
  simp [Ends, h]

end Leaves

namespace Keeps

variable {exec} {γ : Type} {g : σ → γ}

theorem pure (a : α) : (Pure.pure a : Prog ι ρ α).Keeps exec g := fun _ => leaves_pure.mpr rfl

theorem bind {p : Prog ι ρ α} {f : α → Prog ι ρ β} (hp : p.Keeps exec g)
    (hf : ∀ a, (f a).Keeps exec g) : (p >>= f).Keeps exec g := by
  intro s
  rw [leaves_bind]
  intro a s' hs'
  exact (hf a s').mono (fun _ s'' h => h.trans (hp s a s' hs'))

theorem perform {i : ι} (h : ∀ s a s', exec i s = some (a, s') → g s' = g s) :
    (Prog.perform i : Prog ι ρ (ρ i)).Keeps exec g := by
  intro s a s' hs'
  rw [run_perform] at hs'
  exact h s a s' hs'

/-- An embedded program keeps what each of its operations keeps. -/
theorem embed {κ : Type} {ρ' : κ → Type} {inj : κ → ι} {out : (i : κ) → ρ (inj i) → ρ' i}
    (h : ∀ i s a s', exec (inj i) s = some (a, s') → g s' = g s) (p : Prog κ ρ' α) :
    (p.embed inj out).Keeps exec g := by
  induction p with
  | pure a => exact Keeps.pure a
  | call i k ih => exact bind (perform (h i)) (fun a => ih (out i a))

theorem ite {c : Prop} [Decidable c] {p q : Prog ι ρ α} (hp : p.Keeps exec g)
    (hq : q.Keeps exec g) : (if c then p else q).Keeps exec g := by
  split_ifs
  · exact hp
  · exact hq

end Keeps

namespace EndsWithin

variable {exec} {I : σ → Prop}

theorem pure (a : α) : (Pure.pure a : Prog ι ρ α).EndsWithin exec I :=
  fun s hs => ⟨a, s, rfl, hs⟩

theorem bind {p : Prog ι ρ α} {f : α → Prog ι ρ β} (hp : p.EndsWithin exec I)
    (hf : ∀ a, (f a).EndsWithin exec I) : (p >>= f).EndsWithin exec I := by
  intro s hs
  rw [ends_bind]
  exact (hp s hs).mono (fun a s' hs' => hf a s' hs')

theorem perform {i : ι} (h : ∀ s, I s → ∃ a s', exec i s = some (a, s') ∧ I s') :
    (Prog.perform i : Prog ι ρ (ρ i)).EndsWithin exec I := by
  intro s hs
  obtain ⟨a, s', he, hs'⟩ := h s hs
  exact ⟨a, s', by rwa [run_perform], hs'⟩

theorem embed {κ : Type} {ρ' : κ → Type} {inj : κ → ι} {out : (i : κ) → ρ (inj i) → ρ' i}
    (h : ∀ i s, I s → ∃ a s', exec (inj i) s = some (a, s') ∧ I s') (p : Prog κ ρ' α) :
    (p.embed inj out).EndsWithin exec I := by
  induction p with
  | pure a => exact EndsWithin.pure a
  | call i k ih => exact bind (perform (h i)) (fun a => ih (out i a))

theorem ite {c : Prop} [Decidable c] {p q : Prog ι ρ α} (hp : p.EndsWithin exec I)
    (hq : q.EndsWithin exec I) : (if c then p else q).EndsWithin exec I := by
  split_ifs
  · exact hp
  · exact hq

end EndsWithin

/-- A program that runs alone comes to a call that meets `P` in the state before it. -/
def ComesTo (P : ι → σ → Prop) : Prog ι ρ α → σ → Prop
  | .pure _, _ => False
  | .call i k, s => P i s ∨ ∃ r s', exec i s = some (r, s') ∧ ComesTo P (k r) s'

section ComesTo

variable {exec} {P : ι → σ → Prop} {p : Prog ι ρ α} {s : σ}

/-- A program that ends comes to no call that cannot proceed. -/
theorem not_comesTo_of_run (hP : ∀ i s, P i s → exec i s = none) {q : α × σ}
    (h : p.run exec s = some q) : ¬ p.ComesTo exec P s := by
  induction p generalizing s with
  | pure a => exact id
  | call i k ih =>
      obtain ⟨⟨r, s'⟩, he, hr⟩ := Option.bind_eq_some_iff.mp h
      rintro (hi | ⟨r', s'', he', hk⟩)
      · rw [hP i s hi] at he
        cases he
      · rw [he] at he'
        cases he'
        exact ih r hr hk

end ComesTo

end Prog

/-- Which calls may be made where a ghost value `g : γ` has been reached, how a call moves it on,
and the answers that are reckoned with. -/
structure Discipline (ι : Type) (ρ : ι → Type) (γ : Type) where
  allowed : ι → γ → Prop
  after : (i : ι) → ρ i → γ → γ
  answers : (i : ι) → ρ i → Prop

namespace Discipline

variable {ι : Type} {ρ : ι → Type} {α β γ : Type} {D : Discipline ι ρ γ} {g : γ}

/-- A program started at `g` makes only allowed calls and ends at `post`. -/
def Follows (D : Discipline ι ρ γ) : γ → Prog ι ρ α → (α → γ) → Prop
  | g, .pure a, post => post a = g
  | g, .call i k, post =>
    D.allowed i g ∧ ∀ r, D.answers i r → Follows D (D.after i r g) (k r) post

theorem Follows.pure {a : α} {post : α → γ} (h : post a = g) :
    D.Follows g (Pure.pure a : Prog ι ρ α) post := h

theorem Follows.bind {p : Prog ι ρ α} {f : α → Prog ι ρ β} {mid : α → γ} {post : β → γ}
    (hp : D.Follows g p mid) (hf : ∀ a, D.Follows (mid a) (f a) post) :
    D.Follows g (p >>= f) post := by
  induction p generalizing g with
  | pure a =>
      have hg : mid a = g := hp
      rw [← hg]
      exact hf a
  | call i k ih => exact ⟨hp.1, fun r hr => ih r (hp.2 r hr)⟩

theorem Follows.step {i : ι} {f : ρ i → Prog ι ρ α} {post : α → γ} (hi : D.allowed i g)
    (hf : ∀ r, D.answers i r → D.Follows (D.after i r g) (f r) post) :
    D.Follows g (Prog.perform i >>= f) post :=
  ⟨hi, hf⟩

theorem Follows.last {i : ι} {post : ρ i → γ} (hi : D.allowed i g)
    (hpost : ∀ r, D.answers i r → post r = D.after i r g) :
    D.Follows g (Prog.perform i) post :=
  ⟨hi, hpost⟩

/-- Programs that come back to where they started, one after another. -/
theorem Follows.expand {κ : Type} {ρ' : κ → Type} {prog : (i : κ) → Prog ι ρ (ρ' i)}
    (h : ∀ i, D.Follows g (prog i) (fun _ => g)) (p : Prog κ ρ' α) :
    D.Follows g (p.expand prog) (fun _ => g) := by
  induction p with
  | pure a => exact .pure rfl
  | call i k ih => exact (h i).bind ih

theorem Follows.forEach {f : β → Prog ι ρ Unit} {bs : List β}
    (h : ∀ b, D.Follows g (f b) (fun _ => g)) :
    D.Follows g (Prog.forEach f bs) (fun _ => g) := by
  induction bs with
  | nil => exact .pure rfl
  | cons b bs ih => exact (h b).bind (fun _ => ih)

end Discipline
end Atomic

import Mathlib.Order.Defs.Unbundled
import Mathlib.Tactic.Common

/-!
# Sequences of steps that may fail

An attempt changes a state and says whether it succeeded. A sequence ends with its first failure,
a step may have a clean-up for its own failure, and a loop is a sequence over its indices.
-/

variable {σ : Type} {s t : σ} {n : ℕ}

def Attempt (σ : Type) := σ → Bool × σ

namespace Attempt

variable {f g : Attempt σ} {fs gs : List (Attempt σ)} {h : σ → σ} {F : ℕ → Attempt σ}

/-- `return b`. -/
def result (b : Bool) : Attempt σ := fun s => (b, s)

/-- `return b(s);` -/
def check (b : σ → Bool) : Attempt σ := fun s => (b s, s)

def act (h : σ → σ) : Attempt σ := fun s => (true, h s)

/-- `if (! f()) return false; return g();` -/
def andThen (f g : Attempt σ) : Attempt σ := fun s =>
  match f s with
  | (true, t) => g t
  | (false, t) => (false, t)

/-- `if (! f()) { h(); return false; }` -/
def onFailure (f : Attempt σ) (h : σ → σ) : Attempt σ := fun s =>
  match f s with
  | (true, t) => (true, t)
  | (false, t) => (false, h t)

def all : List (Attempt σ) → Attempt σ
  | [] => result true
  | f :: fs => andThen f (all fs)

/-- `for (i = 0; i < n; i++) if (! f(i)) return false;` -/
def upTo (F : ℕ → Attempt σ) : ℕ → Attempt σ
  | 0 => result true
  | n + 1 => andThen (upTo F n) (F n)

/-- A loop whose bound is read from the state in front of it. -/
def loop (bound : σ → ℕ) (F : ℕ → Attempt σ) : Attempt σ := fun s => upTo F (bound s) s

/-- The state behind a success. -/
def Succeeds (f : Attempt σ) (s t : σ) : Prop := f s = (true, t)

/-- Whatever an attempt does, the two states are related. -/
def Respects (R : σ → σ → Prop) (f : Attempt σ) : Prop := ∀ s, R s (f s).2

theorem succeeds_iff : f.Succeeds s t ↔ (f s).1 = true ∧ (f s).2 = t := by
  rw [Succeeds, Prod.ext_iff]

theorem succeeds_result {b : Bool} : (result b).Succeeds s t ↔ b = true ∧ s = t := succeeds_iff

theorem succeeds_check {b : σ → Bool} : (check b).Succeeds s t ↔ b s = true ∧ s = t :=
  succeeds_iff

theorem succeeds_act : (act h).Succeeds s t ↔ h s = t := by
  rw [succeeds_iff, act, eq_self_iff_true, true_and]

theorem succeeds_andThen :
    (f.andThen g).Succeeds s t ↔ ∃ u, f.Succeeds s u ∧ g.Succeeds u t := by
  unfold Succeeds andThen
  match f s with
  | (true, u) => simp
  | (false, u) => simp

theorem succeeds_onFailure : (f.onFailure h).Succeeds s t ↔ f.Succeeds s t := by
  unfold Succeeds onFailure
  match f s with
  | (true, u) => rfl
  | (false, u) => simp

theorem succeeds_all_nil : (all ([] : List (Attempt σ))).Succeeds s t ↔ s = t := by
  rw [all, succeeds_result, eq_self_iff_true, true_and]

theorem succeeds_all_cons :
    (all (f :: fs)).Succeeds s t ↔ ∃ u, f.Succeeds s u ∧ (all fs).Succeeds u t := succeeds_andThen

theorem andThen_assoc {k : Attempt σ} : (f.andThen g).andThen k = f.andThen (g.andThen k) := by
  funext s
  unfold andThen
  match f s with
  | (true, u) => rfl
  | (false, u) => rfl

theorem succeeds_all_map_onFailure :
    (all (fs.map fun f => f.onFailure h)).Succeeds s t ↔ (all fs).Succeeds s t := by
  induction fs generalizing s with
  | nil => rfl
  | cons f fs ih =>
    simp only [List.map_cons, succeeds_all_cons, succeeds_onFailure, ih]

theorem all_append : all (fs ++ gs) = (all fs).andThen (all gs) := by
  induction fs with
  | nil => rfl
  | cons f fs ih => rw [List.cons_append, all, ih, all, andThen_assoc]

theorem all_result_snd {b : Bool} : (all [f, result b] s).2 = (f s).2 := by
  unfold all andThen
  match f s with
  | (true, t) => cases b <;> rfl
  | (false, t) => rfl

/-- A loop that runs to its end keeps what each of its turns keeps. -/
theorem upTo_induction {I : ℕ → σ → Prop} (hs : I 0 s)
    (step : ∀ i u v, i < n → I i u → (F i).Succeeds u v → I (i + 1) v)
    (h : (upTo F n).Succeeds s t) : I n t := by
  induction n generalizing t with
  | zero =>
    obtain ⟨_, rfl⟩ := succeeds_result.mp h
    exact hs
  | succ n ih =>
    obtain ⟨u, hu, ht⟩ := succeeds_andThen.mp h
    have hlower : ∀ i u v, i < n → I i u → (F i).Succeeds u v → I (i + 1) v := by
      intro i u v hi
      exact step i u v (by omega)
    exact step n u t (Nat.lt_succ_self n) (ih hlower hu) ht

theorem andThen_of_true (hf : f s = (true, t)) : f.andThen g s = g t := by
  rw [andThen, hf]

theorem andThen_of_false (hf : f s = (false, t)) : f.andThen g s = (false, t) := by
  rw [andThen, hf]

theorem foldl_eq_self {α : Type} {k : σ → α → σ} {xs : List α} (h : ∀ x ∈ xs, k s x = s) :
    xs.foldl k s = s := by
  induction xs with
  | nil => rfl
  | cons x xs ih =>
    rw [List.foldl_cons, h x List.mem_cons_self]
    exact ih fun y hy => h y (List.mem_cons_of_mem x hy)

section Respects

variable {R R' : σ → σ → Prop}

theorem Respects.mono (hf : Respects R f) (h : ∀ s t, R s t → R' s t) : Respects R' f :=
  fun s => h s _ (hf s)

theorem respects_act (hh : ∀ s, R s (h s)) : Respects R (act h) := hh

theorem respects_result [Std.Refl R] {b : Bool} : Respects R (result b) := fun s => refl_of R s

theorem respects_check [Std.Refl R] {b : σ → Bool} : Respects R (check b) := fun s => refl_of R s

variable [IsTrans σ R]

theorem respects_andThen (hf : Respects R f) (hg : Respects R g) : Respects R (f.andThen g) := by
  intro s
  have hs := hf s
  unfold andThen
  match hfs : f s with
  | (true, u) =>
    rw [hfs] at hs
    exact trans_of R hs (hg u)
  | (false, u) =>
    rw [hfs] at hs
    exact hs

theorem respects_onFailure (hf : Respects R f) (hh : ∀ s, R s (h s)) :
    Respects R (f.onFailure h) := by
  intro s
  have hs := hf s
  unfold onFailure
  match hfs : f s with
  | (true, u) =>
    rw [hfs] at hs
    exact hs
  | (false, u) =>
    rw [hfs] at hs
    exact trans_of R hs (hh u)

variable [Std.Refl R]

theorem respects_nil : Respects R (all ([] : List (Attempt σ))) := respects_result

omit [Std.Refl R] in
theorem respects_cons (hf : Respects R f) (hfs : Respects R (all fs)) :
    Respects R (all (f :: fs)) := respects_andThen hf hfs

theorem related_foldl {α : Type} {k : σ → α → σ} {xs : List α} (h : ∀ x ∈ xs, ∀ s, R s (k s x)) :
    R s (xs.foldl k s) := by
  induction xs generalizing s with
  | nil => exact refl_of R s
  | cons x xs ih =>
    have hx := h x List.mem_cons_self s
    exact trans_of R hx (ih fun y hy => h y (List.mem_cons_of_mem x hy))

theorem respects_upTo (h : ∀ i, Respects R (F i)) : Respects R (upTo F n) := by
  induction n with
  | zero => exact respects_result
  | succ n ih => exact respects_andThen ih (h n)

theorem respects_loop {bound : σ → ℕ} (h : ∀ i, Respects R (F i)) : Respects R (loop bound F) :=
  fun s => respects_upTo h s

end Respects

/-- With the same clean-up behind each step, a sequence keeps `I` or ends cleaned up. -/
theorem all_onFailure {I J : σ → Prop} (hfs : ∀ f ∈ fs, ∀ s, I s → I (f s).2)
    (hh : ∀ s, I s → J (h s)) (hs : I s) :
    let r := all (fs.map fun f => f.onFailure h) s
    if r.1 then I r.2 else J r.2 := by
  induction fs generalizing s with
  | nil => exact hs
  | cons f fs ih =>
    have hf := hfs f List.mem_cons_self s hs
    have hrest : ∀ g ∈ fs, ∀ s, I s → I (g s).2 := fun g hg => hfs g (List.mem_cons_of_mem f hg)
    simp only [List.map_cons, all, andThen, onFailure]
    match hu : f s with
    | (true, u) =>
      rw [hu] at hf
      exact ih hrest hf
    | (false, u) =>
      rw [hu] at hf
      exact hh u hf

end Attempt

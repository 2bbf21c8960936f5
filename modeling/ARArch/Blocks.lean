import Mathlib.Tactic.Common

/-!
# Blocks that return and throw

A block of statements changes a state and runs to its end, or is left before by a `return` or an
exception. A `catch` sees exceptions only; a `finally` is run however the block before it ends.

`Keeps` is for properties that hold wherever a block may be left. The state after a `finally` is
that of its statements from the state in which the block before it was left (`after_finishing`).
-/

/-- A way to leave a block before its end. -/
inductive Exit (ε : Type)
  | returned
  | thrown (e : ε)
  deriving DecidableEq

abbrev Block (ε σ α : Type) := EStateM (Exit ε) σ α

namespace Block

variable {ε σ α β : Type}

def leave : Block ε σ α := throw .returned

/-- A call outside, which returns or throws and leaves the state alone. -/
def call : Except ε α → Block ε σ α
  | .ok a => pure a
  | .error e => throw (.thrown e)

/-- `try` with a `catch` of the exceptions that are handled. -/
def catching (handles : ε → Bool) (body : Block ε σ Unit) (handler : ε → Block ε σ Unit) :
    Block ε σ Unit := fun s =>
  match body s with
  | .error (.thrown e) s' => if handles e then handler e s' else .error (.thrown e) s'
  | .error .returned s' => .error .returned s'
  | .ok a s' => .ok a s'

/-- `try` with a `finally`. -/
def finishing (body cleanup : Block ε σ Unit) : Block ε σ Unit := fun s =>
  match body s with
  | .ok a s' => (cleanup >>= fun _ => pure a) s'
  | .error x s' => (cleanup >>= fun _ => throw x) s'

/-- The state in which a block ends or is left. -/
def after (b : Block ε σ α) (s : σ) : σ :=
  match b s with
  | .ok _ s' => s'
  | .error _ s' => s'

variable {b : Block ε σ α} {f : α → Block ε σ β} {s s' : σ} {a : α}

theorem after_bind_of_ok (h : b s = .ok a s') : after (b >>= f) s = after (f a) s' := by
  change (match EStateM.bind b f s with | .ok _ s' => s' | .error _ s' => s') = _
  unfold EStateM.bind
  rw [h]
  rfl

theorem after_bind_of_error {x : Exit ε} (h : b s = .error x s') : after (b >>= f) s = s' := by
  change (match EStateM.bind b f s with | .ok _ s' => s' | .error _ s' => s') = _
  unfold EStateM.bind
  rw [h]

theorem after_of_ok (h : b s = .ok a s') : after b s = s' := by
  unfold after
  rw [h]

theorem after_of_error {x : Exit ε} (h : b s = .error x s') : after b s = s' := by
  unfold after
  rw [h]

/-- Nothing that comes after a block changes the state any more. -/
theorem after_bind_of_still (hf : ∀ a s', after (f a) s' = s') :
    after (b >>= f) s = after b s := by
  cases h : b s with
  | ok a s' => rw [after_bind_of_ok h, hf, after_of_ok h]
  | error x s' => rw [after_bind_of_error h, after_of_error h]

@[simp] theorem after_modify (g : σ → σ) : after (modify g : Block ε σ PUnit) s = g s := rfl

@[simp] theorem after_call (r : Except ε α) : after (call r : Block ε σ α) s = s := by
  cases r <;> rfl

@[simp] theorem after_call_ok_bind : after (call (.ok a) >>= f) s = after (f a) s := rfl

@[simp] theorem after_get_bind (f : σ → Block ε σ β) : after (get >>= f) s = after (f s) s := rfl

theorem after_congr {b' : Block ε σ α} (h : b s = b' s') : after b s = after b' s' := by
  unfold after
  rw [h]

theorem after_finishing (body cleanup : Block ε σ Unit) :
    after (finishing body cleanup) s = after cleanup (after body s) := by
  cases h : body s with
  | ok a s' =>
      have hrun : finishing body cleanup s = (cleanup >>= fun _ => pure a) s' := by
        unfold finishing
        rw [h]
      rw [after_of_ok h, after_congr hrun]
      exact after_bind_of_still (fun _ _ => rfl)
  | error x s' =>
      have hrun : finishing body cleanup s = (cleanup >>= fun _ => throw x) s' := by
        unfold finishing
        rw [h]
      rw [after_of_error h, after_congr hrun]
      exact after_bind_of_still (fun _ _ => rfl)

/-- The property holds in the state in which the block ends or is left, if it did before. -/
def Keeps (I : σ → Prop) (b : Block ε σ α) : Prop := ∀ s, I s → I (after b s)

namespace Keeps

variable {I : σ → Prop}

theorem pure (a : α) : Keeps I (Pure.pure a : Block ε σ α) := fun _ h => h

theorem leave : Keeps I (Block.leave : Block ε σ α) := fun _ h => h

theorem call (r : Except ε α) : Keeps I (Block.call r : Block ε σ α) := by
  intro s h
  rwa [after_call]

theorem modify {g : σ → σ} (hg : ∀ s, I s → I (g s)) :
    Keeps I (modify g : Block ε σ PUnit) := fun s h => hg s h

theorem bind (hb : Keeps I b) (hf : ∀ a, Keeps I (f a)) : Keeps I (b >>= f) := by
  intro s h
  have hs := hb s h
  cases hr : b s with
  | ok a s' =>
      rw [after_of_ok hr] at hs
      rw [after_bind_of_ok hr]
      exact hf a s' hs
  | error x s' =>
      rw [after_of_error hr] at hs
      rwa [after_bind_of_error hr]

theorem catching {handles : ε → Bool} {body : Block ε σ Unit} {handler : ε → Block ε σ Unit}
    (hbody : Keeps I body) (hhandler : ∀ e, Keeps I (handler e)) :
    Keeps I (Block.catching handles body handler) := by
  intro s h
  have hs := hbody s h
  cases hr : body s with
  | ok a s' =>
      rw [after_of_ok hr] at hs
      have hrun : Block.catching handles body handler s = .ok a s' := by
        unfold Block.catching
        rw [hr]
      rwa [after_of_ok hrun]
  | error x s' =>
      rw [after_of_error hr] at hs
      cases x with
      | returned =>
          have hrun : Block.catching handles body handler s = .error .returned s' := by
            unfold Block.catching
            rw [hr]
          rwa [after_of_error hrun]
      | thrown e =>
          have hrun : Block.catching handles body handler s =
              if handles e then handler e s' else .error (.thrown e) s' := by
            unfold Block.catching
            rw [hr]
          split_ifs at hrun
          · rw [after_congr hrun]
            exact hhandler e s' hs
          · rwa [after_of_error hrun]

end Keeps

end Block

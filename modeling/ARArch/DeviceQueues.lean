import Mathlib.Logic.Function.Basic
import Mathlib.Logic.Relation
import Mathlib.Algebra.Group.Nat.Defs

/-!
# The queues of a graphics device

The fences, the binary semaphores and the images with which a program orders its work with that of
a device: what the device has still to do, the rules for the calls that give it more, and the steps
it makes of its own. The device takes up the batches of commands in the order of their submission,
ends them in that order, and takes the presentations in theirs. It hands an image out as soon as
the image is presented, and signals the semaphore of that image once the presentation is done.
-/

namespace ARArch

structure Batch (S F : Type) where
  wait : Option S := none
  signal : Option S := none
  fence : Option F := none
  deriving DecidableEq

structure DeviceQueues (S F I : Type) where
  fences : F → Bool
  semaphores : S → Bool
  /-- The images that the program has acquired and not yet presented. -/
  held : List I
  /-- The semaphores to be signalled for images handed out, each with the number of presentations
  it comes behind. -/
  acquires : List (S × ℕ)
  queued : List (Batch S F)
  running : List (Batch S F)
  presents : List S
  /-- The presentations that are done. -/
  presented : ℕ
  /-- The number of presentations up to the last one of an image. -/
  lastPresent : I → ℕ

namespace DeviceQueues

variable {S F I : Type}

/-- A call that fails leaves the queues as they are. -/
def resetFence [DecidableEq F] (f : F) (d : DeviceQueues S F I) : DeviceQueues S F I :=
  { d with fences := Function.update d.fences f false }

def acquire (s : S) (i : I) (d : DeviceQueues S F I) : DeviceQueues S F I :=
  { d with held := i :: d.held, acquires := d.acquires ++ [(s, d.lastPresent i)] }

def submit (b : Batch S F) (d : DeviceQueues S F I) : DeviceQueues S F I :=
  { d with queued := d.queued ++ [b] }

def present [DecidableEq I] (s : S) (i : I) (d : DeviceQueues S F I) : DeviceQueues S F I :=
  { d with
    held := d.held.erase i
    presents := d.presents ++ [s]
    lastPresent := Function.update d.lastPresent i (d.presented + d.presents.length + 1) }

def idle (d : DeviceQueues S F I) : Prop := d.queued = [] ∧ d.running = []

/-- No batch that is not at its end is to signal the fence. -/
def MayReset (f : F) (d : DeviceQueues S F I) : Prop :=
  ∀ b ∈ d.running ++ d.queued, b.fence ≠ some f

/-- The signal of the semaphore that is there, and those that are to come. -/
def signals [DecidableEq S] (s : S) (d : DeviceQueues S F I) : ℕ :=
  (d.semaphores s).toNat + (d.acquires.map Prod.fst).count s +
    ((d.running ++ d.queued).map Batch.signal).count (some s)

/-- What is still to wait for the semaphore. -/
def waits [DecidableEq S] (s : S) (d : DeviceQueues S F I) : ℕ :=
  (d.queued.map Batch.wait).count (some s) + d.presents.count s

def MayAcquire [DecidableEq S] (s : S) (d : DeviceQueues S F I) : Prop :=
  d.signals s = 0 ∧ d.waits s = 0

/-- The fence is reset and its own, and for the semaphore to be waited for there is a signal that
nothing else waits for. -/
def MaySubmit [DecidableEq S] (b : Batch S F) (d : DeviceQueues S F I) : Prop :=
  (∀ f ∈ b.fence, d.fences f = false ∧ MayReset f d) ∧ ∀ s ∈ b.wait, d.waits s < d.signals s

def MayPresent [DecidableEq S] (s : S) (i : I) (d : DeviceQueues S F I) : Prop :=
  i ∈ d.held ∧ d.waits s < d.signals s

/-- The batch that ends next finds the semaphore it signals not signalled. -/
def MaySignal (d : DeviceQueues S F I) : Prop :=
  ∀ b ∈ d.running.head?, ∀ s ∈ b.signal, d.semaphores s = false

def mark {A : Type} [DecidableEq A] (a : Option A) (value : Bool) (m : A → Bool) : A → Bool :=
  match a with
  | none => m
  | some a => Function.update m a value

theorem mark_true {A : Type} [DecidableEq A] {a : A} {b : Option A} {m : A → Bool}
    (h : m a = true) : mark b true m a = true := by
  cases b with
  | none => exact h
  | some b =>
      by_cases hab : a = b
      · rw [mark, hab, Function.update_self]
      · rw [mark, Function.update_of_ne hab]
        exact h

theorem mark_of_ne {A : Type} [DecidableEq A] {a : A} {b : Option A} {value : Bool} {m : A → Bool}
    (h : b ≠ some a) : mark b value m a = m a := by
  cases b with
  | none => rfl
  | some b =>
      have hab : a ≠ b := fun hab => h (congrArg some hab.symm)
      exact Function.update_of_ne hab _ _

variable [DecidableEq S] [DecidableEq F]

/-- What the device does of its own. -/
inductive Step : DeviceQueues S F I → DeviceQueues S F I → Prop
  /-- An image handed out is there: its last presentation is done. -/
  | release {d : DeviceQueues S F I} {before behind : List (S × ℕ)} {s : S} {last : ℕ}
      (h : d.acquires = before ++ (s, last) :: behind) (hlast : last ≤ d.presented) :
      Step d { d with
        semaphores := Function.update d.semaphores s true
        acquires := before ++ behind }
  | start {d : DeviceQueues S F I} {b : Batch S F} {rest : List (Batch S F)}
      (h : d.queued = b :: rest) (hwait : ∀ s ∈ b.wait, d.semaphores s = true) :
      Step d { d with
        semaphores := mark b.wait false d.semaphores
        queued := rest
        running := d.running ++ [b] }
  | finish {d : DeviceQueues S F I} {b : Batch S F} {rest : List (Batch S F)}
      (h : d.running = b :: rest) :
      Step d { d with
        semaphores := mark b.signal true d.semaphores
        fences := mark b.fence true d.fences
        running := rest }
  | present {d : DeviceQueues S F I} {s : S} {rest : List S}
      (h : d.presents = s :: rest) (hwait : d.semaphores s = true) :
      Step d { d with
        semaphores := Function.update d.semaphores s false
        presents := rest
        presented := d.presented + 1 }

variable {d d' : DeviceQueues S F I}

theorem held_of_step (h : Step d d') : d'.held = d.held := by
  cases h <;> rfl

theorem fence_of_step {f : F} (h : Step d d') (hf : d.fences f = true) : d'.fences f = true := by
  cases h with
  | release _ _ => exact hf
  | start _ _ => exact hf
  | finish _ => exact mark_true hf
  | present _ _ => exact hf

/-- No batch comes of its own. -/
theorem mem_of_step {b : Batch S F} (h : Step d d') (hb : b ∈ d'.running ++ d'.queued) :
    b ∈ d.running ++ d.queued := by
  cases h with
  | release _ _ => exact hb
  | start hqueued _ =>
      rw [hqueued]
      simpa only [List.append_assoc, List.singleton_append] using hb
  | finish hrunning =>
      rw [hrunning]
      exact List.mem_cons_of_mem _ hb
  | present _ _ => exact hb

theorem countP_le_of_step (p : Batch S F → Bool) (h : Step d d') :
    (d'.running ++ d'.queued).countP p ≤ (d.running ++ d.queued).countP p := by
  cases h with
  | release _ _ => exact Nat.le_refl _
  | start hqueued _ =>
      rw [hqueued]
      simp only [List.append_assoc, List.singleton_append, Nat.le_refl]
  | finish hrunning =>
      rw [hrunning, List.cons_append, List.countP_cons]
      exact Nat.le_add_right _ _
  | present _ _ => exact Nat.le_refl _

omit [DecidableEq S] [DecidableEq F] in
/-- How much the device has still to do. -/
def work (d : DeviceQueues S F I) : ℕ :=
  d.acquires.length + 2 * d.queued.length + d.running.length + d.presents.length

theorem work_lt_of_step (h : Step d d') : d'.work < d.work := by
  cases h with
  | release hacquires _ =>
      simp only [work, hacquires, List.length_append, List.length_cons]
      omega
  | start hqueued _ =>
      simp only [work, hqueued, List.length_append, List.length_cons, List.length_nil]
      omega
  | finish hrunning =>
      simp only [work, hrunning, List.length_cons]
      omega
  | present hpresents _ =>
      simp only [work, hpresents, List.length_cons]
      omega

end DeviceQueues

end ARArch

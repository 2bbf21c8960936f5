import ARArch.Handles

/-!
# RenderScript contexts

`MAR` keeps the RenderScript contexts that it has created, two at most, and gives the first of them
to a camera when it creates no new one. `stopPreview` destroys all of them and keeps them in its
list, so that a later camera may be given a destroyed one.
-/

namespace ARArch

open Handles

/-- A context is that of the process when `RenderScript.create` has made it. -/
structure RenderScript where
  handle : Handle
  isProcess : Bool

/-- `null` is what is returned while RenderScript is disabled. -/
inductive CreateAnswer
  | context
  | null
  | exception
  deriving DecidableEq

/-- `renderscripts` of `MAR`, and the contexts that exist. -/
structure RenderScripts where
  objects : Handles := {}
  renderscripts : List (Option RenderScript) := []

namespace RenderScripts

/-- `MAX_RENDERSCRIPTS` -/
def maxRenderscripts : ℕ := 2

/-- `if (renderscripts.size > 0) rs = renderscripts[0]` -/
def first (s : RenderScripts) : Option RenderScript := s.renderscripts.head?.join

/-- Create a context and add it; `none` is the exception. -/
def create (isProcess : Bool) (answer : CreateAnswer) (s : RenderScripts) :
    Option (Option RenderScript × RenderScripts) :=
  match answer with
  | .context =>
    let rs : RenderScript := { handle := (s.objects.create none).1, isProcess }
    some (some rs, {
      objects := (s.objects.create none).2
      renderscripts := s.renderscripts ++ [some rs] })
  | .null => some (none, { s with renderscripts := s.renderscripts ++ [none] })
  | .exception => none

def createRenderscript (isMultiCamera : Bool) (answer : CreateAnswer) (s : RenderScripts) :
    Option RenderScript × RenderScripts :=
  if isMultiCamera then
    if s.renderscripts.length < maxRenderscripts then
      (s.create false answer).getD (s.first, s)
    else (s.first, s)
  else if s.renderscripts.length > 0 then (s.first, s)
  else (s.create true answer).getD (s.first, s)

/-- `rs?.destroy()`. Whether it has an effect on a context of the process depends on the platform;
it has none from API 21 on. -/
def destroyContext (destroysProcess : Bool) (objects : Handles) : Option RenderScript → Handles
  | none => objects
  | some rs => if rs.isProcess && !destroysProcess then objects else objects.destroy rs.handle

/-- The end of `stopPreview`. -/
def destroyAll (destroysProcess : Bool) (s : RenderScripts) : RenderScripts :=
  { s with objects := s.renderscripts.foldl (destroyContext destroysProcess) s.objects }

/-- A round of `initialize`: whether there is a camera, whether what comes before and behind the
context throws, and what the creation of a context does. -/
structure CameraRound where
  isCamera : Bool
  failsBefore : Bool
  answer : CreateAnswer
  failsBehind : Bool

/-- The creations that `initialize` gets to. -/
def creations : List CameraRound → List CreateAnswer
  | [] => []
  | round :: rounds =>
    if !round.isCamera then creations rounds
    else if round.failsBefore then []
    else round.answer :: if round.failsBehind then [] else creations rounds

/-- The calls of `MAR`; those of `initialize` have the cameras as rounds. A camera that cannot be
stopped makes `stopPreview` throw. -/
inductive Request
  | initializeCameras (isRenderScript : Bool) (rounds : List CameraRound)
  | stopPreview (camerasStop : Bool)

/-- What concerns the contexts. -/
inductive Step
  | createRenderscript (isMultiCamera : Bool) (answer : CreateAnswer)
  | destroyAll
  deriving DecidableEq

def Request.steps : Request → List Step
  | .initializeCameras isRenderScript rounds =>
    if isRenderScript then
      (creations rounds).map (.createRenderscript (rounds.length > 1))
    else []
  | .stopPreview camerasStop => if camerasStop then [.destroyAll] else []

def Step.after (destroysProcess : Bool) (s : RenderScripts) : Step → RenderScripts
  | .createRenderscript isMultiCamera answer =>
    (RenderScripts.createRenderscript isMultiCamera answer s).2
  | .destroyAll => RenderScripts.destroyAll destroysProcess s

def run (destroysProcess : Bool) (steps : List Step) : RenderScripts :=
  steps.foldl (Step.after destroysProcess) {}

/-- The number of contexts that are not destroyed. -/
def undestroyed (s : RenderScripts) : ℕ :=
  ((List.range s.objects.next).filter fun id => id ∉ s.objects.destroyed).length

/-- No context is returned that has been destroyed, and there are two undestroyed ones at most. -/
structure NoneReused (destroysProcess : Bool) (steps : List Step) : Prop where
  returned : ∀ front isMultiCamera answer back,
    steps = front ++ .createRenderscript isMultiCamera answer :: back →
      ∀ rs, (createRenderscript isMultiCamera answer (run destroysProcess front)).1 = some rs →
        ¬(run destroysProcess front).objects.Dead rs.handle
  undestroyed_le : ∀ front, front <+: steps →
    (run destroysProcess front).undestroyed ≤ maxRenderscripts

/-- What the steps alone tell: how many entries there are, whether the first can be destroyed, and
whether it has been. -/
structure Entries where
  size : ℕ := 0
  destroyable : Bool := false
  stopped : Bool := false

def Entries.add (destroyable : Bool) (e : Entries) : Entries :=
  { e with
    size := e.size + 1
    destroyable := if e.size = 0 then destroyable else e.destroyable }

/-- The number of contexts from which on the first is taken. -/
def limit (isMultiCamera : Bool) : ℕ := if isMultiCamera then maxRenderscripts else 1

/-- With this number of contexts there is one more behind the call. -/
def Adds (isMultiCamera : Bool) (answer : CreateAnswer) (size : ℕ) : Prop :=
  answer ≠ .exception ∧ size < limit isMultiCamera

instance {isMultiCamera : Bool} {answer : CreateAnswer} {size : ℕ} :
    Decidable (Adds isMultiCamera answer size) :=
  inferInstanceAs (Decidable (_ ∧ _))

def Entries.after (destroysProcess : Bool) (e : Entries) : Step → Entries
  | .createRenderscript isMultiCamera answer =>
    if Adds isMultiCamera answer e.size then
      e.add (answer = .context && (isMultiCamera || destroysProcess))
    else e
  | .destroyAll => { e with stopped := e.destroyable }

def entries (destroysProcess : Bool) (steps : List Step) : Entries :=
  steps.foldl (Entries.after destroysProcess) {}

variable {s : RenderScripts} {e : Entries} {destroysProcess isMultiCamera : Bool}
  {answer : CreateAnswer} {rs : RenderScript} {steps front : List Step}

/-- A context that `destroy()` has an effect on. -/
def Destroyable (destroysProcess : Bool) (rs : RenderScript) : Prop :=
  rs.isProcess = false ∨ destroysProcess = true

instance {destroysProcess : Bool} {rs : RenderScript} :
    Decidable (Destroyable destroysProcess rs) :=
  inferInstanceAs (Decidable (_ ∨ _))

/-- The entries are those of the list, whose contexts are different objects. -/
structure Tracks (destroysProcess : Bool) (s : RenderScripts) (e : Entries) : Prop where
  size : s.renderscripts.length = e.size
  size_le : e.size ≤ maxRenderscripts
  next_le : s.objects.next ≤ e.size
  owners : ∀ rs, some rs ∈ s.renderscripts → rs.handle.owners = []
  id_lt : ∀ rs, some rs ∈ s.renderscripts → rs.handle.id < s.objects.next
  destroyed_lt : ∀ id ∈ s.objects.destroyed, id < s.objects.next
  unique : s.renderscripts.Pairwise fun a b =>
    ∀ rs ∈ a, ∀ rs' ∈ b, rs.handle.id ≠ rs'.handle.id
  destroyable : e.destroyable = true ↔ ∃ rs, s.first = some rs ∧ Destroyable destroysProcess rs
  stopped : e.stopped = true ↔ ∃ rs, s.first = some rs ∧ rs.handle.id ∈ s.objects.destroyed
  destroyable_of_stopped : e.stopped = true → e.destroyable = true

theorem dead_iff (h : rs.handle.owners = []) :
    s.objects.Dead rs.handle ↔ rs.handle.id ∈ s.objects.destroyed := by
  simp [Dead, Handle.lineage, h]

theorem renderscripts_of_first (h : s.first = some rs) :
    ∃ others, s.renderscripts = some rs :: others := by
  unfold first at h
  cases hlist : s.renderscripts with
  | nil =>
    rw [hlist] at h
    cases h
  | cons o others =>
    rw [hlist] at h
    have ho : o = some rs := h
    exact ⟨others, by rw [ho]⟩

theorem tracks_new : Tracks destroysProcess {} {} := by
  constructor <;> simp [first]

/-! ### A new context -/

/-- The new entry comes last, and a new context has the next number. -/
structure Created (isProcess : Bool) (answer : CreateAnswer) (s : RenderScripts)
    (o : Option RenderScript) (t : RenderScripts) : Prop where
  renderscripts : t.renderscripts = s.renderscripts ++ [o]
  destroyed : t.objects.destroyed = s.objects.destroyed
  next_le : s.objects.next ≤ t.objects.next
  next_le_succ : t.objects.next ≤ s.objects.next + 1
  context : ∀ rs, o = some rs → rs.handle.owners = [] ∧ rs.handle.id = s.objects.next ∧
    rs.handle.id < t.objects.next ∧ rs.isProcess = isProcess
  isSome : o.isSome = decide (answer = .context)

variable {isProcess : Bool} {o : Option RenderScript} {t : RenderScripts}

theorem created_of_create (h : s.create isProcess answer = some (o, t)) :
    Created isProcess answer s o t := by
  cases answer with
  | context =>
    cases h
    refine ⟨rfl, rfl, Nat.le_succ _, Nat.le_refl _, ?_, rfl⟩
    rintro rs ⟨⟩
    exact ⟨rfl, rfl, Nat.lt_succ_self _, rfl⟩
  | null =>
    cases h
    refine ⟨rfl, rfl, Nat.le_refl _, Nat.le_succ _, ?_, rfl⟩
    rintro rs ⟨⟩
  | exception => cases h

theorem Created.first (h : Created isProcess answer s o t) :
    t.first = if s.renderscripts.length = 0 then o else s.first := by
  unfold RenderScripts.first
  rw [h.renderscripts]
  cases s.renderscripts with
  | nil => rfl
  | cons a others => rfl

theorem Tracks.first_of_empty (h : Tracks destroysProcess s e) (hempty : e.size = 0) :
    s.first = none := by
  rw [← h.size, List.length_eq_zero_iff] at hempty
  rw [RenderScripts.first, hempty]
  rfl

theorem Tracks.size_ne_zero (h : Tracks destroysProcess s e) (hstopped : e.stopped = true) :
    e.size ≠ 0 := by
  intro hempty
  obtain ⟨rs, hfirst, -⟩ := h.stopped.mp hstopped
  rw [h.first_of_empty hempty] at hfirst
  cases hfirst

/-- A new context is not among those that have been destroyed. -/
theorem Created.not_destroyed (hc : Created isProcess answer s o t)
    (h : Tracks destroysProcess s e) (ho : o = some rs) : rs.handle.id ∉ s.objects.destroyed := by
  intro hid
  have hlt := h.destroyed_lt _ hid
  have hnew := (hc.context rs ho).2.1
  omega

theorem Created.destroyable_iff (hc : Created isProcess answer s o t) :
    (decide (answer = .context) && (!isProcess || destroysProcess)) = true ↔
      ∃ rs, o = some rs ∧ Destroyable destroysProcess rs := by
  rw [← hc.isSome]
  cases o with
  | none => simp
  | some rs =>
    have hprocess := (hc.context rs rfl).2.2.2
    simp [Destroyable, hprocess]

theorem tracks_created (h : Tracks destroysProcess s e) (hsize : e.size < maxRenderscripts)
    (hc : Created isProcess answer s o t) :
    Tracks destroysProcess t (e.add (answer = .context && (!isProcess || destroysProcess))) := by
  have hmem : ∀ rs, some rs ∈ t.renderscripts → some rs ∈ s.renderscripts ∨ o = some rs := by
    intro rs hrs
    rw [hc.renderscripts, List.mem_append, List.mem_singleton] at hrs
    exact hrs.imp_right Eq.symm
  constructor
  case size =>
    rw [hc.renderscripts, List.length_append, h.size]
    rfl
  case size_le => exact hsize
  case next_le => exact Nat.le_trans hc.next_le_succ (Nat.succ_le_succ h.next_le)
  case owners =>
    intro rs hrs
    obtain hold | hnew := hmem rs hrs
    · exact h.owners rs hold
    · exact (hc.context rs hnew).1
  case id_lt =>
    intro rs hrs
    obtain hold | hnew := hmem rs hrs
    · exact Nat.lt_of_lt_of_le (h.id_lt rs hold) hc.next_le
    · exact (hc.context rs hnew).2.2.1
  case destroyed_lt =>
    rw [hc.destroyed]
    exact fun id hid => Nat.lt_of_lt_of_le (h.destroyed_lt id hid) hc.next_le
  case unique =>
    rw [hc.renderscripts, List.pairwise_append]
    refine ⟨h.unique, List.pairwise_singleton _ _, ?_⟩
    intro a ha b hb rs hrs rs' hrs'
    rw [List.mem_singleton] at hb
    subst hb hrs
    have hlt := h.id_lt rs ha
    have hnew := (hc.context rs' hrs').2.1
    omega
  case destroyable =>
    rw [hc.first, h.size]
    by_cases hempty : e.size = 0
    · simp only [Entries.add, hempty, if_true]
      exact hc.destroyable_iff
    · simp only [Entries.add, hempty, if_false]
      exact h.destroyable
  case stopped =>
    rw [hc.first, hc.destroyed, h.size]
    by_cases hempty : e.size = 0
    · simp only [hempty, if_true]
      constructor
      · exact fun hstopped => absurd hempty (h.size_ne_zero hstopped)
      · rintro ⟨rs, ho, hid⟩
        exact absurd hid (hc.not_destroyed h ho)
    · simp only [hempty, if_false]
      exact h.stopped
  case destroyable_of_stopped =>
    intro hstopped
    simp only [Entries.add, h.size_ne_zero hstopped, if_false]
    exact h.destroyable_of_stopped hstopped

/-! ### The calls -/

theorem limit_le : limit isMultiCamera ≤ maxRenderscripts := by
  cases isMultiCamera <;> decide

theorem createRenderscript_eq : createRenderscript isMultiCamera answer s =
    if s.renderscripts.length < limit isMultiCamera then
      (s.create (!isMultiCamera) answer).getD (s.first, s)
    else (s.first, s) := by
  cases isMultiCamera with
  | true => rfl
  | false =>
    simp only [createRenderscript, limit, Bool.false_eq_true, if_false, Bool.not_false]
    by_cases hpos : s.renderscripts.length > 0
    · rw [if_pos hpos, if_neg (by omega)]
    · rw [if_neg hpos, if_pos (by omega)]

/-- The call takes the first context. -/
theorem createRenderscript_of_not_adds
    (h : ¬Adds isMultiCamera answer s.renderscripts.length) :
    createRenderscript isMultiCamera answer s = (s.first, s) := by
  rw [createRenderscript_eq]
  split
  next hlt =>
    have hanswer : answer = .exception := by
      by_contra hne
      exact h ⟨hne, hlt⟩
    subst hanswer
    rfl
  · rfl

/-- The call adds a context. -/
theorem createRenderscript_of_adds (h : Adds isMultiCamera answer s.renderscripts.length) :
    ∃ o t, createRenderscript isMultiCamera answer s = (o, t) ∧
      Created (!isMultiCamera) answer s o t := by
  rw [createRenderscript_eq, if_pos h.2]
  cases hcreate : s.create (!isMultiCamera) answer with
  | none =>
    cases answer with
    | context | null => cases hcreate
    | exception => exact absurd rfl h.1
  | some r => exact ⟨r.1, r.2, rfl, created_of_create hcreate⟩

theorem destroyContext_some {objects : Handles} :
    destroyContext destroysProcess objects (some rs) =
      if Destroyable destroysProcess rs then objects.destroy rs.handle else objects := by
  obtain ⟨handle, isProcess⟩ := rs
  cases isProcess <;> cases destroysProcess <;> rfl

theorem destroyed_destroyContext {objects : Handles} {id : ℕ} :
    id ∈ (destroyContext destroysProcess objects o).destroyed ↔ id ∈ objects.destroyed ∨
      ∃ rs, o = some rs ∧ Destroyable destroysProcess rs ∧ rs.handle.id = id := by
  cases o with
  | none => simp [destroyContext]
  | some rs =>
    rw [destroyContext_some]
    split
    next hdestroyable =>
      simp only [Handles.destroy, List.mem_cons, Option.some.injEq, exists_eq_left', hdestroyable,
        true_and]
      rw [or_comm, eq_comm]
    next hkept => simp [hkept]

theorem next_destroyContext {objects : Handles} :
    (destroyContext destroysProcess objects o).next = objects.next := by
  cases o with
  | none => rfl
  | some rs =>
    rw [destroyContext_some]
    split
    · rfl
    · rfl

theorem destroyed_foldl {objects : Handles} {list : List (Option RenderScript)} {id : ℕ} :
    id ∈ (list.foldl (destroyContext destroysProcess) objects).destroyed ↔
      id ∈ objects.destroyed ∨
        ∃ rs, some rs ∈ list ∧ Destroyable destroysProcess rs ∧ rs.handle.id = id := by
  induction list generalizing objects with
  | nil => simp
  | cons o list ih =>
    rw [List.foldl_cons, ih, destroyed_destroyContext, or_assoc]
    apply or_congr_right
    rw [← exists_or]
    apply exists_congr
    intro rs
    rw [← or_and_right, List.mem_cons, eq_comm]

theorem next_foldl {objects : Handles} {list : List (Option RenderScript)} :
    (list.foldl (destroyContext destroysProcess) objects).next = objects.next := by
  induction list generalizing objects with
  | nil => rfl
  | cons o list ih => rw [List.foldl_cons, ih, next_destroyContext]

theorem Tracks.eq_of_first {rs' : RenderScript} (h : Tracks destroysProcess s e)
    (hfirst : s.first = some rs) (hmem : some rs' ∈ s.renderscripts)
    (hid : rs'.handle.id = rs.handle.id) : rs' = rs := by
  obtain ⟨others, hlist⟩ := renderscripts_of_first hfirst
  have hunique := h.unique
  rw [hlist] at hmem hunique
  obtain heq | hother := List.mem_cons.mp hmem
  · exact Option.some.inj heq
  · exact absurd hid.symm ((List.pairwise_cons.mp hunique).1 _ hother rs rfl rs' rfl)

theorem tracks_destroyAll (h : Tracks destroysProcess s e) :
    Tracks destroysProcess (s.destroyAll destroysProcess) { e with stopped := e.destroyable } := by
  have hfirst : (s.destroyAll destroysProcess).first = s.first := rfl
  have hnext : (s.destroyAll destroysProcess).objects.next = s.objects.next := next_foldl
  constructor
  case size => exact h.size
  case size_le => exact h.size_le
  case next_le => exact hnext ▸ h.next_le
  case owners => exact h.owners
  case id_lt => exact hnext ▸ h.id_lt
  case destroyed_lt =>
    intro id hid
    rw [hnext]
    obtain hold | ⟨rs, hmem, -, rfl⟩ := destroyed_foldl.mp hid
    · exact h.destroyed_lt id hold
    · exact h.id_lt rs hmem
  case unique => exact h.unique
  case destroyable => exact h.destroyable
  case stopped =>
    constructor
    · intro hdestroyable
      obtain ⟨rs, hfirst, hrs⟩ := h.destroyable.mp hdestroyable
      obtain ⟨others, hlist⟩ := renderscripts_of_first hfirst
      have hmem : some rs ∈ s.renderscripts := hlist ▸ List.mem_cons_self
      exact ⟨rs, hfirst, destroyed_foldl.mpr (.inr ⟨rs, hmem, hrs, rfl⟩)⟩
    · rintro ⟨rs, hfirst, hid⟩
      obtain hold | ⟨rs', hmem, hrs', hid'⟩ := destroyed_foldl.mp hid
      · exact h.destroyable_of_stopped (h.stopped.mpr ⟨rs, hfirst, hold⟩)
      · obtain rfl := h.eq_of_first hfirst hmem hid'
        exact h.destroyable.mpr ⟨rs', hfirst, hrs'⟩
  case destroyable_of_stopped => exact id

theorem tracks_after (h : Tracks destroysProcess s e) (step : Step) :
    Tracks destroysProcess (step.after destroysProcess s) (e.after destroysProcess step) := by
  cases step with
  | createRenderscript isMultiCamera answer =>
    have hlength := h.size
    by_cases hadds : Adds isMultiCamera answer e.size
    · obtain ⟨o, t, hcreate, hc⟩ := createRenderscript_of_adds (hlength ▸ hadds)
      have hsize : e.size < maxRenderscripts := Nat.lt_of_lt_of_le hadds.2 limit_le
      rw [Step.after, hcreate, Entries.after, if_pos hadds]
      have ht := tracks_created h hsize hc
      rwa [Bool.not_not] at ht
    · rw [Step.after, createRenderscript_of_not_adds (hlength ▸ hadds), Entries.after,
        if_neg hadds]
      exact h
  | destroyAll => exact tracks_destroyAll h

theorem tracks_run : Tracks destroysProcess (run destroysProcess steps)
    (entries destroysProcess steps) := by
  have hfold : ∀ {s e}, Tracks destroysProcess s e →
      Tracks destroysProcess (steps.foldl (Step.after destroysProcess) s)
        (steps.foldl (Entries.after destroysProcess) e) := by
    induction steps with
    | nil => exact id
    | cons step steps ih => exact fun h => ih (tracks_after h step)
  exact hfold tracks_new

theorem Tracks.undestroyed_le (h : Tracks destroysProcess s e) :
    s.undestroyed ≤ maxRenderscripts := by
  have hfilter : s.undestroyed ≤ s.objects.next := by
    unfold undestroyed
    exact (List.length_filter_le _ _).trans_eq List.length_range
  exact Nat.le_trans hfilter (Nat.le_trans h.next_le h.size_le)

/-- `createRenderscript` returns a destroyed context exactly if the first one is destroyed and it
adds none. -/
theorem Tracks.returned_iff (h : Tracks destroysProcess s e) (isMultiCamera : Bool)
    (answer : CreateAnswer) :
    (∀ rs, (createRenderscript isMultiCamera answer s).1 = some rs → ¬s.objects.Dead rs.handle) ↔
      (e.stopped = true → isMultiCamera = true ∧ answer ≠ .exception ∧
        e.size < maxRenderscripts) := by
  have hlength := h.size
  by_cases hadds : Adds isMultiCamera answer e.size
  · obtain ⟨o, t, hcreate, hc⟩ := createRenderscript_of_adds (hlength ▸ hadds)
    apply iff_of_true
    · intro rs hrs
      rw [hcreate] at hrs
      rw [dead_iff (hc.context rs hrs).1]
      exact hc.not_destroyed h hrs
    · intro hstopped
      have hsize := h.size_ne_zero hstopped
      cases isMultiCamera with
      | true => exact ⟨rfl, hadds⟩
      | false => exact absurd (Nat.lt_one_iff.mp hadds.2) hsize
  · rw [createRenderscript_of_not_adds (hlength ▸ hadds)]
    constructor
    · intro hlive hstopped
      obtain ⟨rs, hfirst, hid⟩ := h.stopped.mp hstopped
      obtain ⟨others, hlist⟩ := renderscripts_of_first hfirst
      have howners := h.owners rs (hlist ▸ List.mem_cons_self)
      exact absurd ((dead_iff howners).mpr hid) (hlive rs hfirst)
    · intro hcall rs hfirst hdead
      obtain ⟨others, hlist⟩ := renderscripts_of_first hfirst
      have howners := h.owners rs (hlist ▸ List.mem_cons_self)
      obtain ⟨rfl, hanswer⟩ := hcall (h.stopped.mpr ⟨rs, hfirst, (dead_iff howners).mp hdead⟩)
      exact hadds hanswer

/-- A destroyed context is reused exactly if, behind a `stopPreview` that has destroyed the first
one, `createRenderscript` adds none: it is called for one camera, there are two contexts already, or
the creation throws. -/
theorem noneReused_iff (destroysProcess : Bool) (requests : List Request) :
    NoneReused destroysProcess (requests.flatMap Request.steps) ↔
      ∀ front isMultiCamera answer back, requests.flatMap Request.steps =
          front ++ .createRenderscript isMultiCamera answer :: back →
        (entries destroysProcess front).stopped = true →
          isMultiCamera = true ∧ answer ≠ .exception ∧
            (entries destroysProcess front).size < maxRenderscripts := by
  constructor
  · intro hnone front isMultiCamera answer back hsteps
    exact (tracks_run.returned_iff isMultiCamera answer).mp
      (hnone.returned front isMultiCamera answer back hsteps)
  · intro hcalls
    constructor
    · intro front isMultiCamera answer back hsteps
      exact (tracks_run.returned_iff isMultiCamera answer).mpr
        (hcalls front isMultiCamera answer back hsteps)
    · exact fun front _ => tracks_run.undestroyed_le

def roundOfSuccess : CameraRound := ⟨true, false, .context, false⟩

/-- Two cameras, a stop, and the same cameras again: the first context has been destroyed. -/
theorem destroyed_context_reused : ¬NoneReused false
    ([.initializeCameras true [roundOfSuccess, roundOfSuccess], .stopPreview true,
      .initializeCameras true [roundOfSuccess, roundOfSuccess]].flatMap Request.steps) := by
  intro hnone
  have hdead : (run false [.createRenderscript true .context, .createRenderscript true .context,
      .destroyAll]).objects.Dead ⟨0, []⟩ := by decide
  exact hnone.returned [.createRenderscript true .context, .createRenderscript true .context,
    .destroyAll] true .context [.createRenderscript true .context] rfl ⟨⟨0, []⟩, false⟩ rfl hdead

end RenderScripts

end ARArch

import ARArch.SensorQueues
import ARArch.Sessions

/-!
# Which event queues are polled

`process_queues` goes through all sensors that were added, whatever `initialize` could do for them.
A sensor without a default sensor keeps the pointer that was never set, one without a queue a null
pointer, and one that could not be enabled the pointer to a queue that was destroyed. The callers
poll as soon as one sensor was set up, so that one that was not is enough for a fault.
-/

namespace ARArch

/-- A call of `add_sensor`, and what the system answers then. -/
structure AddCall where
  sys : SensorSystem
  sensorId : ℤ
  queuedMax : ℤ
  errs : Option String

/-- The sensors after some calls of `add_sensor`. -/
def Sensors.added (packageName : String) (calls : List AddCall) : Sensors :=
  calls.foldl (fun s c => (Sensors.addSensor c.sys c.sensorId c.queuedMax c.errs s).2.2)
    { packageName := packageName }

/-- `initialize` comes to the end of its turn for a sensor, with or without an event rate. -/
def SensorSystem.setsUp (sys : SensorSystem) (sensorId : ℤ) : Bool :=
  (sys.answers sensorId).defaultSensor.isSome && (sys.answers sensorId).hasQueue &&
    decide (0 ≤ (sys.answers sensorId).enableStatus)

/-- What comes after `initialize`: an event arrives in a queue, or `process_queues` is called. -/
inductive SensorRequest
  | arrive (q : ℕ) (event : ASensorEvent)
  | process (poll : Poll) (maxToProcess : ℤ)

@[reducible] def SensorRequest.Ans : SensorRequest → Type
  | arrive _ _ => Unit
  | process _ _ => ℤ

/-- An event arrives in a queue. -/
def EventQueues.arrive (qs : EventQueues) (q : ℕ) (event : ASensorEvent) : EventQueues :=
  { qs with live :=
      qs.live.adjust q (fun queue => { queue with pending := queue.pending ++ [event] }) }

/-- There is nothing after a fault. -/
def Sensors.respond : Service SensorRequest SensorRequest.Ans Sensors
  | .arrive q event, s => some ((), { s with queues := s.queues.arrive q event })
  | .process poll maxToProcess, s => (s.processQueues poll maxToProcess).toOption

/-- No call of `process_queues` after `initialize` polls or reads anything but a living queue that
was made for the sensor. `run` and `sensor_handler_thread` make such calls if some sensor was set
up, and call `initialize` with a stream. -/
def Sensors.PollsOnlyLive (sys : SensorSystem) (text : String) (s : Sensors) : Prop :=
  ∀ inited errs s₁, s.initializeSensors sys (some text) = some (inited, errs, s₁) → 0 < inited →
    ∀ done s₂, Session Sensors.respond (fun _ _ _ => True) s₁ done s₂ →
      ∀ poll maxToProcess, s₂.processQueues poll maxToProcess ≠ .error .deadQueue

theorem EventQueues.live_create (qs : EventQueues) (sensorId : ℤ) (q : ℕ) :
    (qs.create sensorId).live q = if q = qs.made then some { sensorId } else qs.live q :=
  Table.assign_apply _ _ _ _

theorem EventQueues.live_destroy (qs : EventQueues) (q q' : ℕ) :
    (qs.destroy q').live q = if q = q' then none else qs.live q :=
  Table.erase_apply _ _ _

namespace Sensors

/-- The sensor points to a living queue that was made for it. -/
def Owns (qs : EventQueues) (entry : ℤ × SensorData) : Prop :=
  ∃ q queue, entry.2.sensorQueue = .object q ∧ qs.live q = some queue ∧ queue.sensorId = entry.1

variable {qs : EventQueues} {entry : ℤ × SensorData} {maxToProcess count : ℤ}
  {sensors : List (ℤ × SensorData)} {info info' : SensorData} {events : List ASensorEvent}
  {s : Sensors} {sys : SensorSystem}

theorem pending_of_owns (h : Owns qs entry) :
    ∃ events, qs.pending entry.1 entry.2.sensorQueue = .ok events := by
  obtain ⟨q, queue, hq, hlive, hid⟩ := h
  refine ⟨queue.pending, ?_⟩
  rw [hq]
  simp [EventQueues.pending, hlive, hid]

theorem pending_of_not_owns (h : ¬ Owns qs entry) :
    qs.pending entry.1 entry.2.sensorQueue = .error .deadQueue := by
  cases hq : entry.2.sensorQueue with
  | indeterminate => rfl
  | null => rfl
  | object q =>
      cases hlive : qs.live q with
      | none => simp [EventQueues.pending, hlive]
      | some queue =>
          by_cases hid : queue.sensorId = entry.1
          · exact absurd ⟨q, queue, hq, hlive, hid⟩ h
          · simp [EventQueues.pending, hlive, hid]

/-! ### What a call leaves -/

theorem push_sensorQueue {ev : ASensorEvent} (h : info.push ev = .ok info') :
    info'.sensorQueue = info.sensorQueue := by
  unfold SensorData.push at h
  split at h
  · cases h
    rfl
  · cases h

theorem readEvents_sensorQueue {p : ℤ × List ASensorEvent × SensorData}
    (h : readEvents maxToProcess events count info = .ok p) :
    p.2.2.sensorQueue = info.sensorQueue := by
  induction events generalizing count info with
  | nil =>
      cases h
      rfl
  | cons ev events ih =>
      rw [readEvents] at h
      cases hp : info.push ev with
      | error fault =>
          rw [hp] at h
          cases h
      | ok info' =>
          rw [hp] at h
          change (if count > maxToProcess then _ else _) = _ at h
          rw [← push_sensorQueue hp]
          split_ifs at h
          · cases h
            rfl
          · exact ih h

/-- The only fault of reading is an insertion. -/
theorem readEvents_ne_deadQueue :
    readEvents maxToProcess events count info ≠ .error .deadQueue := by
  induction events generalizing count info with
  | nil => exact fun h => by cases h
  | cons ev events ih =>
      rw [readEvents]
      cases hp : info.push ev with
      | error fault =>
          unfold SensorData.push at hp
          split at hp
          · cases hp
          · cases hp
            exact fun h => by cases h
      | ok info' =>
          change (if count > maxToProcess then _ else _) ≠ _
          split_ifs
          · exact fun h => by cases h
          · exact ih

/-- The same queues live, for the same sensors. -/
def SameOwners (qs qs' : EventQueues) : Prop :=
  ∀ q, (qs'.live q).map EventQueue.sensorId = (qs.live q).map EventQueue.sensorId

variable {qs' : EventQueues} {entry' : ℤ × SensorData}

theorem SameOwners.refl : SameOwners qs qs := fun _ => rfl

theorem SameOwners.trans {qs'' : EventQueues} (h : SameOwners qs qs') (h' : SameOwners qs' qs'') :
    SameOwners qs qs'' :=
  fun q => (h' q).trans (h q)

theorem sameOwners_adjust {q : ℕ} {f : EventQueue → EventQueue}
    (hf : ∀ queue, (f queue).sensorId = queue.sensorId) (made : ℕ) :
    SameOwners qs { live := qs.live.adjust q f, made := made } := by
  intro q'
  by_cases hq : q' = q
  · subst hq
    cases hl : qs.live q' with
    | none => simp [Table.adjust, hl]
    | some queue => simp [Table.adjust, hl, hf]
  · simp [Table.adjust, hq]

theorem sameOwners_setPending {p : Pointer} : SameOwners qs (qs.setPending events p) := by
  cases p with
  | indeterminate => exact .refl
  | null => exact .refl
  | object q =>
      apply sameOwners_adjust
      exact fun _ => rfl

theorem owns_of_sameOwners (h : SameOwners qs qs') (hid : entry'.1 = entry.1)
    (hq : entry'.2.sensorQueue = entry.2.sensorQueue) (ho : Owns qs entry) : Owns qs' entry' := by
  obtain ⟨q, queue, hp, hlive, hsensor⟩ := ho
  have hmap := h q
  rw [hlive, Option.map_some] at hmap
  obtain ⟨queue', hlive', hsensor'⟩ := Option.map_eq_some_iff.mp hmap
  exact ⟨q, queue', hq.trans hp, hlive', hsensor'.trans (hsensor.trans hid.symm)⟩

/-- What a turn of the loop over the sensors can do: fault at the pointer, fault at an insertion,
or go on with the same queues and the same pointer. -/
theorem processFrom_turn (maxToProcess count : ℤ) (qs : EventQueues) (entry : ℤ × SensorData)
    (sensors : List (ℤ × SensorData)) :
    (¬ Owns qs entry ∧
        processFrom maxToProcess (entry :: sensors) count qs = .error .deadQueue) ∨
      (pendingEvents qs entry ≠ [] ∧
        processFrom maxToProcess (entry :: sensors) count qs = .error .pastEnd) ∨
      ∃ info c qs', Owns qs entry ∧ info.sensorQueue = entry.2.sensorQueue ∧
        SameOwners qs qs' ∧ (pendingEvents qs entry = [] → qs' = qs) ∧
        processFrom maxToProcess (entry :: sensors) count qs =
          (processFrom maxToProcess sensors c qs').map
            (fun r => (r.1, (entry.1, info) :: r.2.1, r.2.2)) := by
  obtain ⟨sensorId, info⟩ := entry
  by_cases ho : Owns qs (sensorId, info)
  · obtain ⟨events, hp⟩ := pending_of_owns ho
    have hevents := (hasQueue_of_ok hp).2
    rw [hevents, processFrom, hp]
    change _ ∨ (_ ∧ (if events.isEmpty = true then _ else _) = _) ∨ ∃ info c qs', _ ∧ _ ∧ _ ∧ _ ∧
      (if events.isEmpty = true then _ else _) = _
    right
    cases events with
    | nil =>
        refine .inr ⟨info, count, qs, ho, rfl, .refl, fun _ => rfl, ?_⟩
        exact bind_ok_eq_map (processFrom maxToProcess sensors count qs) _
    | cons ev events =>
        change (_ ∧ (readEvents maxToProcess (ev :: events) 0 info).bind _ = _) ∨
          ∃ info c qs', _ ∧ _ ∧ _ ∧ _ ∧ (readEvents maxToProcess (ev :: events) 0 _).bind _ = _
        cases hr : readEvents maxToProcess (ev :: events) 0 info with
        | error fault =>
            cases fault with
            | deadQueue => exact absurd hr readEvents_ne_deadQueue
            | pastEnd => exact .inl ⟨List.cons_ne_nil _ _, rfl⟩
        | ok p =>
            refine .inr ⟨p.2.2, p.1, qs.setPending p.2.1 info.sensorQueue, ho,
              readEvents_sensorQueue hr, sameOwners_setPending,
              fun h => absurd h (List.cons_ne_nil _ _), ?_⟩
            exact bind_ok_eq_map
              (processFrom maxToProcess sensors p.1 (qs.setPending p.2.1 _)) _
  · refine .inl ⟨ho, ?_⟩
    rw [processFrom, pending_of_not_owns ho]
    rfl

theorem processFrom_ne_deadQueue (h : ∀ e ∈ sensors, Owns qs e) :
    processFrom maxToProcess sensors count qs ≠ .error .deadQueue := by
  induction sensors generalizing count qs with
  | nil => exact fun hdead => by cases hdead
  | cons entry rest ih =>
      obtain ⟨ho, hrest⟩ := List.forall_mem_cons.mp h
      rcases processFrom_turn maxToProcess count qs entry rest with
        ⟨hnot, -⟩ | ⟨-, hpast⟩ | ⟨info, c, qs', -, -, hsame, -, hrun⟩
      · exact absurd ho hnot
      · rw [hpast]
        exact fun hdead => by cases hdead
      · rw [hrun]
        have hnext : processFrom maxToProcess rest c qs' ≠ .error .deadQueue :=
          ih (fun e he => owns_of_sameOwners hsame rfl rfl (hrest e he))
        cases hr : processFrom maxToProcess rest c qs' with
        | error fault =>
            intro hdead
            rw [hr] at hnext
            exact hnext hdead
        | ok r => exact fun hdead => by cases hdead

theorem processQueues_ne_deadQueue {poll : Poll} (h : ∀ e ∈ s.sensors, Owns s.queues e) :
    s.processQueues poll maxToProcess ≠ .error .deadQueue := by
  cases poll with
  | timeout => exact nofun
  | error => exact nofun
  | events =>
      have hlive : processFrom maxToProcess s.sensors 0 s.queues ≠ .error .deadQueue :=
        processFrom_ne_deadQueue h
      unfold processQueues
      cases hr : processFrom maxToProcess s.sensors 0 s.queues with
      | error fault =>
          rw [hr] at hlive
          intro hdead
          apply hlive
          cases hdead
          rfl
      | ok r => exact nofun

/-- A call leaves the queues where they are, and the pointers of the sensors. -/
theorem processFrom_sameOwners {r : ℤ × List (ℤ × SensorData) × EventQueues}
    (h : processFrom maxToProcess sensors count qs = .ok r) :
    SameOwners qs r.2.2 ∧
      r.2.1.map (fun e => (e.1, e.2.sensorQueue)) =
        sensors.map (fun e => (e.1, e.2.sensorQueue)) := by
  induction sensors generalizing count qs r with
  | nil =>
      cases h
      exact ⟨.refl, rfl⟩
  | cons entry rest ih =>
      rcases processFrom_turn maxToProcess count qs entry rest with
        ⟨-, hdead⟩ | ⟨-, hpast⟩ | ⟨info, c, qs', -, hpointer, hsame, -, hrun⟩
      · rw [hdead] at h
        cases h
      · rw [hpast] at h
        cases h
      · rw [hrun] at h
        cases hr : processFrom maxToProcess rest c qs' with
        | error fault =>
            rw [hr] at h
            cases h
        | ok r' =>
            rw [hr] at h
            cases h
            obtain ⟨hsame', hpointers⟩ := ih hr
            refine ⟨hsame.trans hsame', ?_⟩
            rw [List.map_cons, List.map_cons, hpointers, hpointer]

/-- With empty queues the first sensor without a living one is met. -/
theorem processFrom_deadQueue (hempty : ∀ e ∈ sensors, pendingEvents qs e = [])
    (h : ∃ e ∈ sensors, ¬ Owns qs e) :
    processFrom maxToProcess sensors count qs = .error .deadQueue := by
  induction sensors generalizing count with
  | nil =>
      obtain ⟨e, he, -⟩ := h
      cases he
  | cons entry rest ih =>
      obtain ⟨hnone, hrest⟩ := List.forall_mem_cons.mp hempty
      rcases processFrom_turn maxToProcess count qs entry rest with
        ⟨-, hdead⟩ | ⟨hsome, -⟩ | ⟨info, c, qs', ho, -, -, hqs, hrun⟩
      · exact hdead
      · exact absurd hnone hsome
      · have hdead : ∃ e ∈ rest, ¬ Owns qs e := by
          obtain ⟨e, he, hnot⟩ := h
          rcases List.mem_cons.mp he with rfl | he
          · exact absurd ho hnot
          · exact ⟨e, he, hnot⟩
        rw [hrun, hqs hnone, ih hrest hdead]
        rfl

/-! ### What is set up -/

/-- The loop of `initialize` has been through some sensors that had no queues before: those that
were set up are counted and have an empty queue. -/
structure SetUp (sys : SensorSystem) (st : Initializing) : Prop where
  count : st.n = st.sensors.countP (fun e => sys.setsUp e.1)
  owns : ∀ e ∈ st.sensors, Owns st.queues e ↔ sys.setsUp e.1 = true
  named : ∀ e ∈ st.sensors, ∀ q, e.2.sensorQueue = .object q → q < st.queues.made
  fresh : ∀ q, st.queues.made ≤ q → st.queues.live q = none
  empty : ∀ q queue, st.queues.live q = some queue → queue.pending = []

theorem SetUp.pendingEvents_eq {st : Initializing} (h : SetUp sys st) :
    ∀ e ∈ st.sensors, pendingEvents st.queues e = [] := by
  intro e he
  by_cases ho : Owns st.queues e
  · obtain ⟨q, queue, hq, hl, hid⟩ := ho
    have hp : st.queues.pending e.1 e.2.sensorQueue = .ok queue.pending := by
      rw [hq]
      simp [EventQueues.pending, hl, hid]
    rw [(hasQueue_of_ok hp).2]
    exact h.empty q queue hl
  · unfold pendingEvents
    rw [pending_of_not_owns ho]
    rfl

/-- What a turn can do for a sensor that has no queue: give it one, or leave it without. The
queues made before stay as they are. -/
theorem initializeSensor_turn (sys : SensorSystem) (st : Initializing) (entry : ℤ × SensorData)
    (hentry : entry.2.sensorQueue = .indeterminate) :
    ∃ info : SensorData,
      (initializeSensor sys st entry).sensors = st.sensors ++ [(entry.1, info)] ∧
      ((sys.setsUp entry.1 = true ∧ info.sensorQueue = .object st.queues.made ∧
          (initializeSensor sys st entry).n = st.n + 1 ∧
          (initializeSensor sys st entry).queues = st.queues.create entry.1) ∨
        (sys.setsUp entry.1 = false ∧ (initializeSensor sys st entry).n = st.n ∧
          (((initializeSensor sys st entry).queues = st.queues ∧
              ∀ q, info.sensorQueue ≠ .object q) ∨
            ((initializeSensor sys st entry).queues =
                (st.queues.create entry.1).destroy st.queues.made ∧
              info.sensorQueue = .object st.queues.made)))) := by
  cases hs : (sys.answers entry.1).defaultSensor with
  | none =>
      simp only [initializeSensor, SensorSystem.setsUp, hs]
      exact ⟨_, rfl, .inr ⟨rfl, trivial, .inl ⟨trivial, by simp [hentry]⟩⟩⟩
  | some sensor =>
      by_cases hq : (sys.answers entry.1).hasQueue = true
      · by_cases he : (sys.answers entry.1).enableStatus < 0
        · have hnot : ¬ 0 ≤ (sys.answers entry.1).enableStatus := by omega
          simp only [initializeSensor, SensorSystem.setsUp, hs, hq, he, hnot, if_true]
          exact ⟨_, rfl, .inr ⟨by simp, trivial, .inr ⟨trivial, rfl⟩⟩⟩
        · have hle : 0 ≤ (sys.answers entry.1).enableStatus := by omega
          simp only [initializeSensor, SensorSystem.setsUp, hs, hq, he, hle, if_true, if_false]
          exact ⟨_, rfl, .inl ⟨by simp, rfl, trivial, trivial⟩⟩
      · simp only [initializeSensor, SensorSystem.setsUp, hs, hq]
        exact ⟨_, rfl, .inr ⟨by simp, rfl, .inl ⟨rfl, by simp⟩⟩⟩

theorem owns_congr {qs' : EventQueues} (hlive : ∀ q < qs.made, qs'.live q = qs.live q)
    (hnamed : ∀ q, entry.2.sensorQueue = .object q → q < qs.made) :
    Owns qs' entry ↔ Owns qs entry := by
  constructor
  · rintro ⟨q, queue, hq, hl, hid⟩
    exact ⟨q, queue, hq, (hlive q (hnamed q hq)).symm.trans hl, hid⟩
  · rintro ⟨q, queue, hq, hl, hid⟩
    exact ⟨q, queue, hq, (hlive q (hnamed q hq)).trans hl, hid⟩

/-- One more sensor, with queues that leave those made before as they are. -/
theorem SetUp.extend {st st' : Initializing} {entry : ℤ × SensorData} (h : SetUp sys st)
    (hsensors : st'.sensors = st.sensors ++ [entry])
    (hn : st'.n = st.n + if sys.setsUp entry.1 then 1 else 0)
    (hmade : st.queues.made ≤ st'.queues.made)
    (hlive : ∀ q < st.queues.made, st'.queues.live q = st.queues.live q)
    (hnew : ∀ q ≥ st.queues.made, ∀ queue, st'.queues.live q = some queue →
      q < st'.queues.made ∧ queue.pending = [])
    (hpointer : ∀ q, entry.2.sensorQueue = .object q → q < st'.queues.made)
    (howns : Owns st'.queues entry ↔ sys.setsUp entry.1 = true) : SetUp sys st' where
  count := by
    rw [hn, hsensors, h.count, List.countP_append, List.countP_singleton]
  owns := by
    rw [hsensors]
    intro e he
    rcases List.mem_append.mp he with he | he
    · rw [owns_congr hlive (h.named e he)]
      exact h.owns e he
    · rw [List.mem_singleton.mp he]
      exact howns
  named := by
    rw [hsensors]
    intro e he q hq
    rcases List.mem_append.mp he with he | he
    · exact (h.named e he q hq).trans_le hmade
    · rw [List.mem_singleton.mp he] at hq
      exact hpointer q hq
  fresh := by
    intro q hq
    cases hl : st'.queues.live q with
    | none => rfl
    | some queue =>
        have hlt := (hnew q (hmade.trans hq) queue hl).1
        omega
  empty := by
    intro q queue hl
    by_cases hq : q < st.queues.made
    · rw [hlive q hq] at hl
      exact h.empty q queue hl
    · exact (hnew q (not_lt.mp hq) queue hl).2

theorem SetUp.turn {st : Initializing} (h : SetUp sys st)
    (hentry : entry.2.sensorQueue = .indeterminate) :
    SetUp sys (initializeSensor sys st entry) := by
  have hnone (q : ℕ) (hq : q ≥ st.queues.made) : st.queues.live q = none := h.fresh q hq
  obtain ⟨info, hsensors, ⟨hup, hpointer, hn, hqueues⟩ | ⟨hup, hn, hrest⟩⟩ :=
    initializeSensor_turn sys st entry hentry
  · apply h.extend hsensors
    · rw [hn, if_pos hup]
    · rw [hqueues]
      exact Nat.le_succ _
    · intro q hq
      rw [hqueues, EventQueues.live_create, if_neg (by omega)]
    · intro q hq queue hl
      rw [hqueues, EventQueues.live_create] at hl
      split_ifs at hl with hqm
      · cases hl
        rw [hqueues, hqm]
        exact ⟨Nat.lt_succ_self _, rfl⟩
      · rw [hnone q hq] at hl
        cases hl
    · intro q hq
      rw [hqueues]
      cases hpointer.symm.trans hq
      exact Nat.lt_succ_self _
    · refine iff_of_true ⟨st.queues.made, { sensorId := entry.1 }, hpointer, ?_, rfl⟩ hup
      rw [hqueues, EventQueues.live_create, if_pos rfl]
  · have hzero : (initializeSensor sys st entry).n =
        st.n + if sys.setsUp entry.1 then 1 else 0 := by
      rw [hn, hup]
      rfl
    have hdown : ¬ sys.setsUp entry.1 = true := by
      rw [hup]
      exact Bool.false_ne_true
    rcases hrest with ⟨hqueues, hpointer⟩ | ⟨hqueues, hpointer⟩
    · apply h.extend hsensors hzero
      · rw [hqueues]
      · intro q hq
        rw [hqueues]
      · intro q hq queue hl
        rw [hqueues, hnone q hq] at hl
        cases hl
      · intro q hq
        exact absurd hq (hpointer q)
      · refine iff_of_false ?_ hdown
        rintro ⟨q, queue, hq, -⟩
        exact hpointer q hq
    · have herased (q : ℕ) : (initializeSensor sys st entry).queues.live q =
          st.queues.live q := by
        rw [hqueues, EventQueues.live_destroy, EventQueues.live_create]
        split_ifs with hq
        · rw [hq, hnone _ le_rfl]
        · rfl
      apply h.extend hsensors hzero
      · rw [hqueues]
        exact Nat.le_succ _
      · exact fun q _ => herased q
      · intro q hq queue hl
        rw [herased, hnone q hq] at hl
        cases hl
      · intro q hq
        rw [hqueues]
        cases hpointer.symm.trans hq
        exact Nat.lt_succ_self _
      · refine iff_of_false ?_ hdown
        rintro ⟨q, queue, hq, hl, -⟩
        cases hpointer.symm.trans hq
        rw [herased, hnone _ le_rfl] at hl
        cases hl

/-- Sensors that `initialize` has not seen. -/
structure Unseen (s : Sensors) : Prop where
  pointers : ∀ e ∈ s.sensors, e.2.sensorQueue = .indeterminate
  queues : s.queues = {}
  looper : s.looper = .null

/-- `add_sensor` adds a new sensor behind the others, or leaves the sensors as they are. -/
theorem addSensor_eq (s : Sensors) (sys : SensorSystem) (sensorId queuedMax : ℤ)
    (errs : Option String) :
    (addSensor sys sensorId queuedMax errs s).2.2 = s ∨
      ∃ n, (addSensor sys sensorId queuedMax errs s).2.2 =
        { s with sensors := s.sensors ++ [(sensorId, SensorData.new n)] } := by
  unfold addSensor
  by_cases hmanager : sys.hasManager = true
  · rw [if_pos hmanager]
    dsimp only
    by_cases hsensor : (sys.answers sensorId).defaultSensor.isSome = true
    · rw [if_pos hsensor]
      by_cases hfound : (s.find sensorId).isSome = true
      · rw [if_pos hfound]
        exact .inl rfl
      · rw [if_neg hfound]
        exact .inr ⟨_, rfl⟩
    · rw [if_neg hsensor]
      exact .inl rfl
  · rw [if_neg hmanager]
    exact .inl rfl

theorem unseen_addSensor (h : Unseen s) (sys : SensorSystem) (sensorId queuedMax : ℤ)
    (errs : Option String) : Unseen (addSensor sys sensorId queuedMax errs s).2.2 := by
  rcases addSensor_eq s sys sensorId queuedMax errs with hs | ⟨n, hs⟩
  · rw [hs]
    exact h
  · rw [hs]
    refine ⟨fun e he => ?_, h.queues, h.looper⟩
    rcases List.mem_append.mp he with he | he
    · exact h.pointers e he
    · rw [List.mem_singleton.mp he]
      rfl

theorem unseen_added (packageName : String) (calls : List AddCall) :
    Unseen (added packageName calls) := by
  have hfold (s : Sensors) (h : Unseen s) : Unseen (calls.foldl
      (fun s c => (addSensor c.sys c.sensorId c.queuedMax c.errs s).2.2) s) := by
    induction calls generalizing s with
    | nil => exact h
    | cons c calls ih => exact ih _ (unseen_addSensor h c.sys c.sensorId c.queuedMax c.errs)
  exact hfold _ ⟨List.forall_mem_nil _, rfl, rfl⟩

theorem setUp_foldl {st : Initializing} (h : SetUp sys st)
    (hunseen : ∀ e ∈ sensors, e.2.sensorQueue = .indeterminate) :
    SetUp sys (sensors.foldl (initializeSensor sys) st) ∧
      (sensors.foldl (initializeSensor sys) st).sensors.map Prod.fst =
        st.sensors.map Prod.fst ++ sensors.map Prod.fst := by
  induction sensors generalizing st with
  | nil => exact ⟨h, by simp⟩
  | cons entry rest ih =>
      obtain ⟨hentry, hrest⟩ := List.forall_mem_cons.mp hunseen
      obtain ⟨info, hsensors, -⟩ := initializeSensor_turn sys st entry hentry
      obtain ⟨hset, hids⟩ := ih (h.turn hentry) hrest
      refine ⟨hset, hids.trans ?_⟩
      rw [hsensors]
      simp

/-- What `initialize` leaves when it comes to its loop. -/
theorem initializeSensors_eq (h : Unseen s) (hsensors : s.sensors ≠ [])
    (hmanager : sys.hasManager = true) (hlooper : sys.hasLooper = true) (text : String) :
    ∃ st, SetUp sys st ∧ st.sensors.map Prod.fst = s.sensors.map Prod.fst ∧
      s.initializeSensors sys (some text) = some (st.n, st.errs,
        { s with looper := .object 0, sensors := st.sensors, queues := st.queues }) := by
  have hstart : SetUp sys { queues := s.queues, errs := some text } := by
    rw [h.queues]
    exact ⟨rfl, List.forall_mem_nil _, List.forall_mem_nil _, fun _ _ => rfl, nofun⟩
  obtain ⟨hset, hids⟩ := setUp_foldl hstart h.pointers
  refine ⟨_, hset, hids, ?_⟩
  have hempty : ¬ s.sensors.isEmpty = true := by
    rw [List.isEmpty_iff]
    exact hsensors
  have hloop : (if s.looper = .null ∧ sys.hasLooper = true then { s with looper := .object 0 }
      else s) = { s with looper := .object 0 } := if_pos ⟨h.looper, hlooper⟩
  unfold initializeSensors
  rw [if_neg hempty, if_neg (not_not.mpr hmanager)]
  dsimp only
  rw [hloop, if_neg (by nofun)]

theorem initializeSensors_zero (h : Unseen s)
    (hnone : s.sensors = [] ∨ sys.hasManager = false ∨ sys.hasLooper = false) (text : String) :
    ∃ errs s', s.initializeSensors sys (some text) = some (0, errs, s') := by
  unfold initializeSensors
  by_cases hempty : s.sensors.isEmpty = true
  · rw [if_pos hempty]
    exact ⟨_, _, rfl⟩
  · rw [if_neg hempty]
    by_cases hmanager : ¬ sys.hasManager = true
    · rw [if_pos hmanager]
      exact ⟨_, _, rfl⟩
    · rw [if_neg hmanager]
      have hlooper : ¬ sys.hasLooper = true := by
        rw [Bool.not_eq_true]
        refine (hnone.resolve_left ?_).resolve_left ?_
        · exact fun hnil => hempty (List.isEmpty_iff.mpr hnil)
        · simpa using hmanager
      have hloop : (if s.looper = .null ∧ sys.hasLooper = true
          then { s with looper := .object 0 } else s) = s := if_neg (fun hc => hlooper hc.2)
      dsimp only
      rw [hloop, if_pos h.looper]
      exact ⟨_, _, rfl⟩

/-- From sensors with queues of their own no call reaches a dead queue. -/
theorem owns_of_session {s₁ s₂ : Sensors} {done : List (Done SensorRequest SensorRequest.Ans)}
    (h : Session respond (fun _ _ _ => True) s₁ done s₂)
    (howns : ∀ e ∈ s₁.sensors, Owns s₁.queues e) : ∀ e ∈ s₂.sensors, Owns s₂.queues e := by
  apply h.invariant (I := fun _ s => ∀ e ∈ s.sensors, Owns s.queues e) howns
  intro _ s q a s' hs _ hq
  cases q with
  | arrive q event =>
      cases hq
      intro e he
      have hsame : SameOwners s.queues (s.queues.arrive q event) := by
        apply sameOwners_adjust
        exact fun _ => rfl
      exact owns_of_sameOwners hsame rfl rfl (hs e he)
  | process poll maxToProcess =>
      have hrun : s.processQueues poll maxToProcess = .ok (a, s') := by
        change (s.processQueues poll maxToProcess).toOption = some (a, s') at hq
        cases hp : s.processQueues poll maxToProcess with
        | error fault =>
            rw [hp] at hq
            cases hq
        | ok p =>
            rw [hp] at hq
            cases hq
            rfl
      cases poll with
      | timeout =>
          cases hrun
          exact hs
      | error =>
          cases hrun
          exact hs
      | events =>
          obtain ⟨r, hr, -, rfl⟩ := processQueues_eq_ok hrun
          obtain ⟨hsame, hpointers⟩ := processFrom_sameOwners hr
          intro e he
          have hmem := List.mem_map_of_mem (f := fun e => (e.1, e.2.sensorQueue)) he
          rw [hpointers] at hmem
          obtain ⟨e₀, he₀, heq⟩ := List.mem_map.mp hmem
          obtain ⟨hid, hpointer⟩ := Prod.mk.inj heq
          exact owns_of_sameOwners hsame hid.symm hpointer.symm (hs e₀ he₀)

theorem pollsOnlyLive_of_zero (h : Unseen s)
    (hnone : s.sensors = [] ∨ sys.hasManager = false ∨ sys.hasLooper = false) (text : String) :
    s.PollsOnlyLive sys text := by
  obtain ⟨errs, s', hinit⟩ := initializeSensors_zero h hnone text
  intro inited errs' s₁ hrun hpos
  cases hinit.symm.trans hrun
  exact absurd hpos (lt_irrefl 0)

/-- Once `initialize` comes to its loop, all sensors or none must be set up. -/
theorem pollsOnlyLive_iff_of_loop (h : Unseen s) (hsensors : s.sensors ≠ [])
    (hmanager : sys.hasManager = true) (hlooper : sys.hasLooper = true) (text : String) :
    s.PollsOnlyLive sys text ↔ (∀ e ∈ s.sensors, sys.setsUp e.1 = false) ∨
      ∀ e ∈ s.sensors, sys.setsUp e.1 = true := by
  obtain ⟨st, hset, hids, hinit⟩ := initializeSensors_eq h hsensors hmanager hlooper text
  have hall (b : Bool) : (∀ e ∈ s.sensors, sys.setsUp e.1 = b) ↔
      ∀ e ∈ st.sensors, sys.setsUp e.1 = b := by
    have hmap (l : List (ℤ × SensorData)) : (∀ e ∈ l, sys.setsUp e.1 = b) ↔
        ∀ sensorId ∈ l.map Prod.fst, sys.setsUp sensorId = b := by simp
    rw [hmap, hmap, hids]
  rw [hall, hall]
  constructor
  · intro hlive
    by_contra hmixed
    push Not at hmixed
    obtain ⟨⟨e, he, hup⟩, e', he', hdown⟩ := hmixed
    have hpos : 0 < st.n := by
      rw [hset.count, List.countP_pos_iff]
      exact ⟨e, he, by simpa using hup⟩
    have hempty : ∀ e ∈ st.sensors, pendingEvents st.queues e = [] := hset.pendingEvents_eq
    apply hlive _ _ _ hinit hpos _ _ .start .events 200
    have hdead : processFrom 200 st.sensors 0 st.queues = .error .deadQueue :=
      processFrom_deadQueue hempty ⟨e', he', fun ho => hdown ((hset.owns e' he').mp ho)⟩
    unfold processQueues
    rw [hdead]
    rfl
  · rintro (hnone | hup) inited errs s₁ hrun hpos done s₂ hs poll maxToProcess
    · cases hinit.symm.trans hrun
      rw [hset.count, List.countP_pos_iff] at hpos
      obtain ⟨e, he, hup⟩ := hpos
      rw [hnone e he] at hup
      cases hup
    · cases hinit.symm.trans hrun
      have howns := owns_of_session hs (fun e he => (hset.owns e he).mpr (hup e he))
      exact processQueues_ne_deadQueue howns

end Sensors

/-- However sensors were added, only living queues are polled if and only if `initialize` does not
come to its loop, sets no sensor up, or sets all of them up. -/
theorem polls_only_live_iff (sys : SensorSystem) (packageName text : String)
    (calls : List AddCall) :
    (Sensors.added packageName calls).PollsOnlyLive sys text ↔
      sys.hasManager = false ∨ sys.hasLooper = false ∨
        (∀ e ∈ (Sensors.added packageName calls).sensors, sys.setsUp e.1 = false) ∨
        ∀ e ∈ (Sensors.added packageName calls).sensors, sys.setsUp e.1 = true := by
  have h := Sensors.unseen_added packageName calls
  by_cases hloop : (Sensors.added packageName calls).sensors ≠ [] ∧ sys.hasManager = true ∧
      sys.hasLooper = true
  · obtain ⟨hsensors, hmanager, hlooper⟩ := hloop
    rw [Sensors.pollsOnlyLive_iff_of_loop h hsensors hmanager hlooper, hmanager, hlooper]
    simp
  · have hnone : (Sensors.added packageName calls).sensors = [] ∨ sys.hasManager = false ∨
        sys.hasLooper = false := by
      by_contra hall
      simp only [not_or, Bool.not_eq_false] at hall
      exact hloop hall
    refine iff_of_true (Sensors.pollsOnlyLive_of_zero h hnone text) ?_
    rcases hnone with hnil | hmanager | hlooper
    · rw [hnil]
      exact .inr (.inr (.inl (List.forall_mem_nil _)))
    · exact .inl hmanager
    · exact .inr (.inl hlooper)

/-- A system that has every sensor and cannot enable the gyroscope. -/
def noGyroscope : SensorSystem where
  hasManager := true
  hasLooper := true
  answers sensorId :=
    { defaultSensor := some 0
      hasQueue := true
      minDelay := 5000
      enableStatus := if sensorId = 4 then -1 else 0
      rateStatus := fun _ => 0 }

/-- The first call of `process_queues` polls the queue that was destroyed. -/
theorem destroyed_queue_polled :
    ¬∀ (sys : SensorSystem) (packageName text : String) (calls : List AddCall),
      (Sensors.added packageName calls).PollsOnlyLive sys text := by
  intro h
  have hlive := h noGyroscope "" "" [⟨noGyroscope, 9, 1000, none⟩, ⟨noGyroscope, 4, 1000, none⟩]
  exact hlive 1 _ _ rfl (by decide) _ _ .start .events 200 rfl

end ARArch

import ARArch.Sensors
import Mathlib.Algebra.GroupWithZero.Nat
import Mathlib.Data.List.Forall2

/-!
# Draining the event queues

`process_queues` counts the events of each sensor anew and tests the count after it has pushed an
event and before it counts it: two more events than the limit are taken, and what it returns is the
count of the last sensor that had events. Both go unnoticed while the queues are short and only
one sensor has events.
-/

namespace ARArch

/-- What is only done to a result is a map. -/
theorem bind_ok_eq_map {ε α β : Type} (x : Except ε α) (f : α → β) :
    x.bind (fun a => .ok (f a)) = x.map f := by
  cases x with
  | error e => rfl
  | ok a => rfl

namespace EventQueues

variable {qs : EventQueues} {sensorId sensorId' : ℤ} {p p' : Pointer}
  {events left : List ASensorEvent}

theorem pending_setPending (h : qs.pending sensorId p = .ok events) :
    (qs.setPending left p).pending sensorId p = .ok left := by
  cases p with
  | indeterminate => cases h
  | null => cases h
  | object q =>
      unfold pending at h
      cases hq : qs.live q with
      | none => simp [hq] at h
      | some queue =>
          simp only [hq] at h
          split_ifs at h with hid
          simp [setPending, pending, Table.adjust, hq, hid]

/-- The queue of another sensor is another queue. -/
theorem pending_setPending_of_ne (h : qs.pending sensorId p = .ok events)
    (hne : sensorId' ≠ sensorId) :
    (qs.setPending left p).pending sensorId' p' = qs.pending sensorId' p' := by
  cases p with
  | indeterminate => cases h
  | null => cases h
  | object q =>
      unfold pending at h
      cases hq : qs.live q with
      | none => simp [hq] at h
      | some queue =>
          simp only [hq] at h
          split_ifs at h with hid
          cases p' with
          | indeterminate => rfl
          | null => rfl
          | object q' =>
              by_cases hqq : q' = q
              · subst hqq
                have hid' : queue.sensorId ≠ sensorId' := fun he => hne (he.symm.trans hid)
                simp [setPending, pending, Table.adjust, hq, hid']
              · simp [setPending, pending, Table.adjust, hqq]

end EventQueues

namespace SensorData

/-- Push events one after another. -/
def pushes (info : SensorData) (events : List ASensorEvent) : Except Fault SensorData :=
  events.foldlM push info

@[simp] theorem pushes_nil (info : SensorData) : info.pushes [] = .ok info := rfl

theorem pushes_cons (info : SensorData) (ev : ASensorEvent) (events : List ASensorEvent) :
    info.pushes (ev :: events) = (info.push ev).bind (fun info => info.pushes events) := rfl

end SensorData

namespace Sensors

variable {maxToProcess count : ℤ} {info info' : SensorData} {events : List ASensorEvent}

/-- How many events a call takes from a queue: two more than the limit, if there are so many. -/
def toTake (maxToProcess : ℤ) (events : List ASensorEvent) : ℕ :=
  min events.length (maxToProcess + 2).toNat

/-- With `r + 1` turns left, that many events are taken. -/
theorem readEvents_eq {r : ℕ} (hr : count + (r + 1) = maxToProcess + 2) :
    readEvents maxToProcess events count info =
      (info.pushes (events.take (r + 1))).map (fun info =>
        (count + (min events.length (r + 1) : ℕ), events.drop (r + 1), info)) := by
  induction events generalizing count info r with
  | nil => simp [readEvents, Except.map]
  | cons ev events ih =>
      rw [List.take_succ_cons, SensorData.pushes_cons, readEvents, List.drop_succ_cons,
        List.length_cons]
      cases hp : info.push ev with
      | error fault => rfl
      | ok info' =>
          change (if count > maxToProcess then Except.ok (count + 1, events, info')
            else readEvents maxToProcess events (count + 1) info') =
              (info'.pushes (events.take r)).map _
          cases r with
          | zero =>
              have hlast : count > maxToProcess := by
                push_cast at hr
                omega
              have hone : min (events.length + 1) (0 + 1) = 1 := by omega
              rw [if_pos hlast, hone]
              rfl
          | succ r =>
              have hmore : ¬ count > maxToProcess := by
                push_cast at hr
                omega
              have hnext : count + 1 + (r + 1) = maxToProcess + 2 := by
                push_cast at hr
                omega
              have hsum : count + 1 + (min events.length (r + 1) : ℕ) =
                  count + (min (events.length + 1) (r + 1 + 1) : ℕ) := by omega
              rw [if_neg hmore, ih hnext, hsum]

/-- The call of `process_queues` for one sensor. -/
theorem readEvents_toTake (hmax : 0 ≤ maxToProcess) :
    readEvents maxToProcess events 0 info =
      (info.pushes (events.take (toTake maxToProcess events))).map (fun info =>
        ((toTake maxToProcess events : ℤ), events.drop (toTake maxToProcess events), info)) := by
  obtain ⟨r, hr⟩ : ∃ r : ℕ, (0 : ℤ) + (r + 1) = maxToProcess + 2 :=
    ⟨(maxToProcess + 1).toNat, by omega⟩
  have hturns : (maxToProcess + 2).toNat = r + 1 := by omega
  have htake : events.take (min events.length (r + 1)) = events.take (r + 1) := by
    rw [Nat.min_comm, ← List.take_eq_take_min]
  have hdrop : events.drop (min events.length (r + 1)) = events.drop (r + 1) := by
    rw [Nat.min_comm, ← List.drop_eq_drop_min]
  rw [readEvents_eq hr, toTake, hturns, htake, hdrop]
  simp only [Int.zero_add]

/-- The events that wait for a sensor. -/
def pendingEvents (qs : EventQueues) (entry : ℤ × SensorData) : List ASensorEvent :=
  (qs.pending entry.1 entry.2.sensorQueue).toOption.getD []

/-- The sensor has a living queue of its own. -/
def HasQueue (qs : EventQueues) (entry : ℤ × SensorData) : Prop :=
  qs.pending entry.1 entry.2.sensorQueue = .ok (pendingEvents qs entry)

/-- The first `k` events that wait for a sensor leave its queue, and each is pushed into its map. -/
structure Takes (qs qs' : EventQueues) (k : ℕ) (before after : ℤ × SensorData) : Prop where
  queue : HasQueue qs before
  le : k ≤ (pendingEvents qs before).length
  left : qs'.pending before.1 before.2.sensorQueue = .ok ((pendingEvents qs before).drop k)
  same : after.1 = before.1
  pushed : before.2.pushes ((pendingEvents qs before).take k) = .ok after.2

/-- The count that the loop over the sensors ends with. -/
def lastCount (count : ℤ) : List ℕ → ℤ
  | [] => count
  | k :: ks => lastCount (if k = 0 then count else k) ks

variable {qs qs' base : EventQueues} {sensors sensors' : List (ℤ × SensorData)} {count' : ℤ}
  {k : ℕ}

theorem hasQueue_of_ok {entry : ℤ × SensorData}
    (h : qs.pending entry.1 entry.2.sensorQueue = .ok events) :
    HasQueue qs entry ∧ pendingEvents qs entry = events := by
  have he : pendingEvents qs entry = events := by
    unfold pendingEvents
    rw [h]
    rfl
  exact ⟨by rw [HasQueue, h, he], he⟩

theorem pendingEvents_congr {entry : ℤ × SensorData}
    (h : qs.pending entry.1 entry.2.sensorQueue = qs'.pending entry.1 entry.2.sensorQueue) :
    pendingEvents qs entry = pendingEvents qs' entry := by
  unfold pendingEvents
  rw [h]

theorem hasQueue_congr {entry : ℤ × SensorData}
    (h : qs.pending entry.1 entry.2.sensorQueue = qs'.pending entry.1 entry.2.sensorQueue) :
    HasQueue qs entry ↔ HasQueue qs' entry := by
  unfold HasQueue
  rw [h, pendingEvents_congr h]

theorem toTake_le : toTake maxToProcess events ≤ events.length := Nat.min_le_left _ _

theorem toTake_eq_zero (hmax : 0 ≤ maxToProcess) :
    toTake maxToProcess events = 0 ↔ events = [] := by
  rw [toTake, ← List.length_eq_zero_iff]
  omega

/-- The queues after `k` events were taken for a sensor; no queue is touched for none. -/
def afterTaking (qs : EventQueues) (entry : ℤ × SensorData) (k : ℕ) : EventQueues :=
  if k = 0 then qs else qs.setPending ((pendingEvents qs entry).drop k) entry.2.sensorQueue

section Turn

variable {entry : ℤ × SensorData} {r : ℤ × List (ℤ × SensorData) × EventQueues}

theorem pending_afterTaking (hq : HasQueue qs entry) :
    (afterTaking qs entry k).pending entry.1 entry.2.sensorQueue =
      .ok ((pendingEvents qs entry).drop k) := by
  unfold afterTaking
  split_ifs with hk
  · rw [hk, List.drop_zero]
    exact hq
  · exact EventQueues.pending_setPending hq

theorem pending_afterTaking_of_ne (hq : HasQueue qs entry) {sensorId : ℤ}
    (hne : sensorId ≠ entry.1) (p : Pointer) :
    (afterTaking qs entry k).pending sensorId p = qs.pending sensorId p := by
  unfold afterTaking
  split_ifs
  · rfl
  · exact EventQueues.pending_setPending_of_ne hq hne

/-- One turn of the loop over the sensors. -/
theorem processFrom_cons (hmax : 0 ≤ maxToProcess) (hq : HasQueue qs entry)
    (hk : toTake maxToProcess (pendingEvents qs entry) = k) :
    processFrom maxToProcess (entry :: sensors) count qs =
      (entry.2.pushes ((pendingEvents qs entry).take k)).bind (fun info =>
        (processFrom maxToProcess sensors (if k = 0 then count else k)
          (afterTaking qs entry k)).map (fun r => (r.1, (entry.1, info) :: r.2.1, r.2.2))) := by
  have hnone : toTake maxToProcess (pendingEvents qs entry) = 0 ↔ pendingEvents qs entry = [] :=
    toTake_eq_zero hmax
  rw [hk] at hnone
  obtain ⟨sensorId, info⟩ := entry
  unfold HasQueue at hq
  unfold afterTaking
  generalize pendingEvents qs (sensorId, info) = events at hq hk hnone ⊢
  rw [processFrom, hq]
  change (if events.isEmpty = true then _ else _) = _
  simp only [List.isEmpty_iff, ← hnone]
  split_ifs with hzero
  · rw [hzero, List.take_zero]
    exact bind_ok_eq_map (processFrom maxToProcess sensors count qs) _
  · rw [readEvents_toTake hmax, hk]
    cases info.pushes (events.take k) with
    | error fault => rfl
    | ok info =>
        exact bind_ok_eq_map
          (processFrom maxToProcess sensors k (qs.setPending (events.drop k) _)) _

/-- The loop goes on only for a sensor with a queue. -/
theorem hasQueue_of_processFrom
    (h : processFrom maxToProcess (entry :: sensors) count qs = .ok r) : HasQueue qs entry := by
  obtain ⟨sensorId, info⟩ := entry
  cases hp : qs.pending sensorId info.sensorQueue with
  | error fault =>
      rw [processFrom, hp] at h
      cases h
  | ok events => exact (hasQueue_of_ok hp).1

theorem processFrom_cons_eq_ok (hmax : 0 ≤ maxToProcess)
    (hk : toTake maxToProcess (pendingEvents qs entry) = k)
    (h : processFrom maxToProcess (entry :: sensors) count qs = .ok r) :
    ∃ info r', entry.2.pushes ((pendingEvents qs entry).take k) = .ok info ∧
      processFrom maxToProcess sensors (if k = 0 then count else k) (afterTaking qs entry k) =
        .ok r' ∧ r = (r'.1, (entry.1, info) :: r'.2.1, r'.2.2) := by
  rw [processFrom_cons hmax (hasQueue_of_processFrom h) hk] at h
  cases hp : entry.2.pushes ((pendingEvents qs entry).take k) with
  | error fault =>
      rw [hp] at h
      cases h
  | ok info =>
      rw [hp] at h
      cases hr : processFrom maxToProcess sensors (if k = 0 then count else k)
          (afterTaking qs entry k) with
      | error fault =>
          simp [Except.bind, hr, Except.map] at h
      | ok r' =>
          simp only [Except.bind, hr, Except.map, Except.ok.injEq] at h
          exact ⟨info, r', rfl, rfl, h.symm⟩

end Turn

/-- What the loop over the sensors has done when it is through: it has taken from each queue what
it takes from a queue, and left all others. -/
theorem processFrom_ok (hmax : 0 ≤ maxToProcess) (hkeys : (sensors.map Prod.fst).Nodup)
    {r : ℤ × List (ℤ × SensorData) × EventQueues}
    (h : processFrom maxToProcess sensors count qs = .ok r)
    (hbase : ∀ e ∈ sensors,
      base.pending e.1 e.2.sensorQueue = qs.pending e.1 e.2.sensorQueue) :
    List.Forall₂ (fun e e' => Takes base r.2.2 (toTake maxToProcess (pendingEvents base e)) e e')
        sensors r.2.1 ∧
      r.1 = lastCount count
        (sensors.map (fun e => toTake maxToProcess (pendingEvents base e))) ∧
      ∀ sensorId ∉ sensors.map Prod.fst, ∀ p, r.2.2.pending sensorId p = qs.pending sensorId p := by
  induction sensors generalizing count qs r with
  | nil =>
      cases h
      exact ⟨.nil, rfl, fun _ _ _ => rfl⟩
  | cons entry rest ih =>
      rw [List.map_cons, List.nodup_cons] at hkeys
      obtain ⟨hnew, hkeys⟩ := hkeys
      obtain ⟨hhead, hrest⟩ := List.forall_mem_cons.mp hbase
      have hq := hasQueue_of_processFrom h
      have hevents := pendingEvents_congr hhead
      generalize hk : toTake maxToProcess (pendingEvents base entry) = k
      have hle : k ≤ (pendingEvents base entry).length := by
        rw [← hk]
        exact toTake_le
      rw [hevents] at hk
      obtain ⟨info, r', hpushes, hr', rfl⟩ := processFrom_cons_eq_ok hmax hk h
      have hagree : ∀ e ∈ rest, base.pending e.1 e.2.sensorQueue =
          (afterTaking qs entry k).pending e.1 e.2.sensorQueue := by
        intro e he
        have hne : e.1 ≠ entry.1 := fun heq => hnew (heq ▸ List.mem_map_of_mem he)
        rw [pending_afterTaking_of_ne hq hne, hrest e he]
      obtain ⟨htakes, hcount, hframe⟩ := ih hkeys hr' hagree
      refine ⟨.cons ?_ htakes, ?_, ?_⟩
      · rw [hevents, hk]
        refine ⟨(hasQueue_congr hhead).mpr hq, hle, ?_, rfl, ?_⟩
        · rw [hframe _ hnew, pending_afterTaking hq, hevents]
        · rw [hevents]
          exact hpushes
      · rw [List.map_cons, hevents, hk]
        exact hcount
      · intro sensorId hmem p
        rw [List.map_cons, List.mem_cons] at hmem
        obtain ⟨hne, hmem⟩ := not_or.mp hmem
        rw [hframe sensorId hmem, pending_afterTaking_of_ne hq hne]

theorem processFrom_total (hmax : 0 ≤ maxToProcess) (hkeys : (sensors.map Prod.fst).Nodup)
    (hqueues : ∀ e ∈ sensors, HasQueue qs e)
    (hpushes : ∀ e ∈ sensors, ∃ info, e.2.pushes ((pendingEvents qs e).take
      (toTake maxToProcess (pendingEvents qs e))) = .ok info) :
    ∃ r, processFrom maxToProcess sensors count qs = .ok r := by
  induction sensors generalizing count qs with
  | nil => exact ⟨_, rfl⟩
  | cons entry rest ih =>
      rw [List.map_cons, List.nodup_cons] at hkeys
      obtain ⟨hnew, hkeys⟩ := hkeys
      obtain ⟨hq, hrest⟩ := List.forall_mem_cons.mp hqueues
      obtain ⟨⟨info, hinfo⟩, hpushes⟩ := List.forall_mem_cons.mp hpushes
      generalize hk : toTake maxToProcess (pendingEvents qs entry) = k at hinfo
      have hsame : ∀ e ∈ rest, (afterTaking qs entry k).pending e.1 e.2.sensorQueue =
          qs.pending e.1 e.2.sensorQueue := by
        intro e he
        have hne : e.1 ≠ entry.1 := fun heq => hnew (heq ▸ List.mem_map_of_mem he)
        exact pending_afterTaking_of_ne hq hne _
      have hnext : ∃ r, processFrom maxToProcess rest (if k = 0 then count else k)
          (afterTaking qs entry k) = .ok r := by
        refine ih hkeys (fun e he => (hasQueue_congr (hsame e he)).mpr (hrest e he)) ?_
        intro e he
        rw [pendingEvents_congr (hsame e he)]
        exact hpushes e he
      obtain ⟨r, hr⟩ := hnext
      rw [processFrom_cons hmax hq hk, hinfo]
      exact ⟨_, by rw [Except.bind, hr]; rfl⟩

/-! ### The count that is returned -/

theorem lastCount_of_zeros {ks : List ℕ} (h : ∀ k ∈ ks, k = 0) : lastCount count ks = count := by
  induction ks with
  | nil => rfl
  | cons k ks ih =>
      obtain ⟨hk, hks⟩ := List.forall_mem_cons.mp h
      rw [lastCount, if_pos hk]
      exact ih hks

theorem lastCount_le_sum (ks : List ℕ) : lastCount 0 ks ≤ ks.sum := by
  have hle (c : ℕ) : lastCount c ks ≤ max c ks.sum := by
    induction ks generalizing c with
    | nil =>
        rw [lastCount]
        omega
    | cons k ks ih =>
        rw [lastCount, List.sum_cons]
        split_ifs with hk
        · have := ih c
          omega
        · have := ih k
          omega
  have hzero := hle 0
  rw [Nat.zero_max] at hzero
  exact hzero

/-- A sensor with events makes the count forget those before it. -/
theorem lastCount_of_exists {ks : List ℕ} (h : ∃ k ∈ ks, k ≠ 0) :
    lastCount count ks = lastCount 0 ks := by
  induction ks generalizing count with
  | nil =>
      obtain ⟨k, hk, -⟩ := h
      cases hk
  | cons k ks ih =>
      rw [lastCount, lastCount]
      by_cases hk : k = 0
      · rw [if_pos hk, if_pos hk]
        obtain ⟨k', hmem, hne⟩ := h
        rcases List.mem_cons.mp hmem with rfl | hmem
        · exact absurd hk hne
        · exact ih ⟨k', hmem, hne⟩
      · rw [if_neg hk, if_neg hk]

/-- The count is the total if and only if no two sensors had events. -/
theorem lastCount_eq_sum_iff (ks : List ℕ) :
    lastCount 0 ks = ks.sum ↔ ks.Pairwise (fun k k' => k = 0 ∨ k' = 0) := by
  induction ks with
  | nil => exact iff_of_true rfl .nil
  | cons k ks ih =>
      rw [lastCount, List.sum_cons, List.pairwise_cons]
      by_cases hk : k = 0
      · rw [if_pos hk, hk, Nat.zero_add, ih]
        exact ⟨fun h => ⟨fun _ _ => .inl rfl, h⟩, fun h => h.2⟩
      · rw [if_neg hk]
        by_cases hzeros : ∀ k' ∈ ks, k' = 0
        · have hsum : ks.sum = 0 := List.sum_eq_zero_iff_forall_eq_nat.mpr hzeros
          rw [lastCount_of_zeros hzeros, hsum]
          refine iff_of_true (by omega) ⟨fun k' hk' => .inr (hzeros k' hk'), ?_⟩
          exact List.pairwise_of_forall_mem_list (fun k' hk' _ _ => .inl (hzeros k' hk'))
        · push Not at hzeros
          have hle := lastCount_le_sum ks
          rw [lastCount_of_exists hzeros]
          refine iff_of_false (by omega) ?_
          rintro ⟨hhead, -⟩
          obtain ⟨k', hk', hne⟩ := hzeros
          exact (hhead k' hk').elim hk hne

/-! ### Draining within the limit -/

/-- A call that is not cut short takes at most `maxToProcess` events from each queue, pushes each
into the map of its sensor, and returns how many it has taken. -/
def DrainsWithin (maxToProcess : ℤ) (s : Sensors) : Prop :=
  ∃ (taken : ℤ × SensorData → ℕ) (s' : Sensors),
    s.processQueues .events maxToProcess = .ok ((s.sensors.map taken).sum, s') ∧
      (∀ e ∈ s.sensors, (taken e : ℤ) ≤ maxToProcess) ∧
      List.Forall₂ (fun e e' => Takes s.queues s'.queues (taken e) e e') s.sensors s'.sensors

/-- Every sensor has a queue of its own with at most `maxToProcess` events, which its map takes
up, and at most one sensor has any. -/
structure Drainable (maxToProcess : ℤ) (s : Sensors) : Prop where
  queues : ∀ e ∈ s.sensors, HasQueue s.queues e
  within : ∀ e ∈ s.sensors, ((pendingEvents s.queues e).length : ℤ) ≤ maxToProcess
  alone : s.sensors.Pairwise
    (fun e e' => pendingEvents s.queues e = [] ∨ pendingEvents s.queues e' = [])
  stored : ∀ e ∈ s.sensors, ∃ info, e.2.pushes (pendingEvents s.queues e) = .ok info

variable {s s' : Sensors}

theorem processQueues_eq_ok (h : s.processQueues .events maxToProcess = .ok (count, s')) :
    ∃ r, processFrom maxToProcess s.sensors 0 s.queues = .ok r ∧ r.1 = count ∧
      s' = { s with sensors := r.2.1, queues := r.2.2 } := by
  cases hr : processFrom maxToProcess s.sensors 0 s.queues with
  | error fault =>
      unfold processQueues at h
      rw [hr] at h
      cases h
  | ok r =>
      unfold processQueues at h
      rw [hr] at h
      cases h
      exact ⟨r, rfl, rfl, rfl⟩

/-- What is taken from a queue is determined by what is left in it. -/
theorem Takes.unique {k k' : ℕ} {e e' e'' : ℤ × SensorData} (h : Takes qs qs' k e e')
    (h' : Takes qs qs' k' e e'') : k = k' := by
  have hleft := h.left.symm.trans h'.left
  have hlength := congrArg List.length (Except.ok.inj hleft)
  have hle := h.le
  have hle' := h'.le
  rw [List.length_drop, List.length_drop] at hlength
  omega

theorem taken_eq {taken taken' : ℤ × SensorData → ℕ}
    (h : List.Forall₂ (fun e e' => Takes qs qs' (taken e) e e') sensors sensors')
    (h' : List.Forall₂ (fun e e' => Takes qs qs' (taken' e) e e') sensors sensors') :
    ∀ e ∈ sensors, taken e = taken' e := by
  induction h with
  | nil => exact fun e he => by cases he
  | cons hhead _ ih =>
      obtain ⟨hhead', hrest'⟩ := List.forall₂_cons.mp h'
      exact List.forall_mem_cons.mpr ⟨hhead.unique hhead', ih hrest'⟩

theorem takes_of_forall₂ {taken : ℤ × SensorData → ℕ}
    (h : List.Forall₂ (fun e e' => Takes qs qs' (taken e) e e') sensors sensors') :
    ∀ e ∈ sensors, ∃ e', Takes qs qs' (taken e) e e' := by
  induction h with
  | nil => exact fun e he => by cases he
  | cons hhead _ ih => exact List.forall_mem_cons.mpr ⟨⟨_, hhead⟩, ih⟩

theorem toTake_of_le (h : (events.length : ℤ) ≤ maxToProcess) :
    toTake maxToProcess events = events.length := by
  rw [toTake]
  omega

/-- With no more than the limit in each queue, everything is taken. -/
theorem take_toTake (h : (events.length : ℤ) ≤ maxToProcess) :
    events.take (toTake maxToProcess events) = events := by
  rw [toTake_of_le h, List.take_length]

theorem pairwise_toTake (hmax : 0 ≤ maxToProcess) :
    (s.sensors.map (fun e => toTake maxToProcess (pendingEvents s.queues e))).Pairwise
        (fun k k' => k = 0 ∨ k' = 0) ↔
      s.sensors.Pairwise
        (fun e e' => pendingEvents s.queues e = [] ∨ pendingEvents s.queues e' = []) := by
  rw [List.pairwise_map]
  simp only [toTake_eq_zero hmax]

theorem DrainsWithin.drainable (hmax : 0 ≤ maxToProcess) (hkeys : (s.sensors.map Prod.fst).Nodup)
    (h : s.DrainsWithin maxToProcess) : s.Drainable maxToProcess := by
  obtain ⟨taken, s', hrun, hlimit, htakes⟩ := h
  obtain ⟨r, hr, hcount, rfl⟩ := processQueues_eq_ok hrun
  obtain ⟨htakes', hlast, -⟩ := processFrom_ok hmax hkeys hr (fun _ _ => rfl)
  have htaken := taken_eq htakes htakes'
  have hwithin : ∀ e ∈ s.sensors,
      ((pendingEvents s.queues e).length : ℤ) ≤ maxToProcess := by
    intro e he
    have hle := hlimit e he
    rw [htaken e he, toTake] at hle
    omega
  refine ⟨fun e he => ?_, hwithin, ?_, fun e he => ?_⟩
  · obtain ⟨e', hte⟩ := takes_of_forall₂ htakes e he
    exact hte.queue
  · rw [← pairwise_toTake hmax, ← lastCount_eq_sum_iff, ← hlast, hcount,
      List.map_congr_left htaken]
  · obtain ⟨e', hte⟩ := takes_of_forall₂ htakes' e he
    have hpushed := hte.pushed
    rw [take_toTake (hwithin e he)] at hpushed
    exact ⟨e'.2, hpushed⟩

theorem Drainable.drainsWithin (hmax : 0 ≤ maxToProcess)
    (hkeys : (s.sensors.map Prod.fst).Nodup) (h : s.Drainable maxToProcess) :
    s.DrainsWithin maxToProcess := by
  have hrun : ∃ r, processFrom maxToProcess s.sensors 0 s.queues = .ok r := by
    refine processFrom_total hmax hkeys h.queues ?_
    intro e he
    rw [take_toTake (h.within e he)]
    exact h.stored e he
  obtain ⟨r, hr⟩ := hrun
  obtain ⟨htakes, hlast, -⟩ := processFrom_ok hmax hkeys hr (fun _ _ => rfl)
  have htotal := (lastCount_eq_sum_iff _).mpr ((pairwise_toTake hmax).mpr h.alone)
  refine ⟨_, { s with sensors := r.2.1, queues := r.2.2 }, ?_, fun e he => ?_, htakes⟩
  · rw [← htotal, ← hlast, processQueues, hr]
    rfl
  · rw [toTake_of_le (h.within e he)]
    exact h.within e he

end Sensors

/-- `process_queues` keeps to its limit and returns the total if and only if every sensor has a
queue of its own with no more events than that, which its map takes up, and no two sensors have
any. -/
theorem drains_within_iff {maxToProcess : ℤ} (hmax : 0 ≤ maxToProcess) (s : Sensors)
    (hkeys : (s.sensors.map Prod.fst).Nodup) :
    s.DrainsWithin maxToProcess ↔ s.Drainable maxToProcess :=
  ⟨fun h => h.drainable hmax hkeys, fun h => h.drainsWithin hmax hkeys⟩

/-- Two sensors with events waiting for them. -/
def twoSensors (events events' : List ASensorEvent) : Sensors where
  sensors := [(4, { SensorData.new 1000 with sensorQueue := .object 0 }),
    (9, { SensorData.new 1000 with sensorQueue := .object 1 })]
  queues :=
    { live := (Table.empty.assign 0 { sensorId := 4, pending := events }).assign 1
        { sensorId := 9, pending := events' }
      made := 2 }

/-- One event for the first of them. -/
theorem drains_within_iff_one : (twoSensors [⟨7, 0⟩] []).DrainsWithin 200 := by
  refine (drains_within_iff (by decide) _ (by decide)).mpr ⟨?_, ?_, ?_, ?_⟩
  · exact List.forall_mem_cons.mpr ⟨rfl, List.forall_mem_cons.mpr ⟨rfl, fun _ h => nomatch h⟩⟩
  · exact List.forall_mem_cons.mpr
      ⟨by decide, List.forall_mem_cons.mpr ⟨by decide, fun _ h => nomatch h⟩⟩
  · exact List.pairwise_pair.mpr (.inr rfl)
  · exact List.forall_mem_cons.mpr
      ⟨⟨_, rfl⟩, List.forall_mem_cons.mpr ⟨⟨_, rfl⟩, fun _ h => nomatch h⟩⟩

/-- Of two events both are taken when the limit is 0. -/
theorem limit_exceeded :
    ¬∀ (maxToProcess : ℤ) (s : Sensors), 0 ≤ maxToProcess → (s.sensors.map Prod.fst).Nodup →
      (∀ e ∈ s.sensors, Sensors.HasQueue s.queues e) → s.DrainsWithin maxToProcess := by
  intro h
  have hqueues : ∀ e ∈ (twoSensors [⟨7, 0⟩, ⟨8, 0⟩] []).sensors,
      Sensors.HasQueue (twoSensors [⟨7, 0⟩, ⟨8, 0⟩] []).queues e :=
    List.forall_mem_cons.mpr ⟨rfl, List.forall_mem_cons.mpr ⟨rfl, fun _ h => nomatch h⟩⟩
  obtain ⟨taken, s', hrun, hlimit, -⟩ :=
    h 0 (twoSensors [⟨7, 0⟩, ⟨8, 0⟩] []) (by decide) (by decide) hqueues
  obtain ⟨r, hr, hcount, -⟩ := Sensors.processQueues_eq_ok hrun
  have htwo : r.1 = 2 := by
    cases hr
    rfl
  obtain ⟨hfirst, hrest⟩ := List.forall_mem_cons.mp hlimit
  obtain ⟨hsecond, -⟩ := List.forall_mem_cons.mp hrest
  have hsum : ((twoSensors [⟨7, 0⟩, ⟨8, 0⟩] []).sensors.map taken).sum =
      taken (4, { SensorData.new 1000 with sensorQueue := .object 0 }) +
        taken (9, { SensorData.new 1000 with sensorQueue := .object 1 }) := rfl
  omega

end ARArch

import ARArch.LiveQueues
import ARArch.SensorRanges

/-!
# What is remembered of a sensor

The way of an event from its arrival to an answer of `get_between` or `get_from`: it waits in the
event queue of its sensor until `process_queues` takes it into the map, and stays there until
enough later events have come. Sensors that were all set up neither lose nor double an event on
this way, and none of their calls faults.
-/

namespace ARArch

open Keyed

namespace Multimap

variable {K V : Type} [LinearOrder K]

/-- The elements from a key on. -/
def inRangeFrom (m : Multimap K V) (starting : K) : List (K × V) :=
  m.elements.filter (fun e => starting ≤ e.1)

end Multimap

namespace BoundedMap

variable {K V : Type} [LinearOrder K]

/-- The loop of `all` and of `from`, over the elements from the iterator on. -/
def allFrom : List (K × V) → Multimap K V → ℕ → ℕ × Multimap K V
  | [], results, c => (c, results)
  | e :: es, results, c => allFrom es (results.insert e) (c + 1)

def all (b : BoundedMap K V) (results : Multimap K V) : ℕ × Multimap K V :=
  allFrom b.m.elements results 0

/-- `from`, which is a keyword. -/
def startingFrom (b : BoundedMap K V) (starting : K) (results : Multimap K V) :
    ℕ × Multimap K V :=
  allFrom (b.m.elements.drop (b.m.lowerBound starting)) results 0

variable {es : List (K × V)} {results : Multimap K V} {c : ℕ}

theorem allFrom_eq : allFrom es results c = (c + es.length, results.insertAll es) := by
  induction es generalizing results c with
  | nil => rfl
  | cons e es ih =>
      rw [allFrom, ih, List.length_cons, Nat.add_assoc, Nat.add_comm 1]
      rfl

theorem all_eq (b : BoundedMap K V) :
    b.all results = (b.m.elements.length, results.insertAll b.m.elements) := by
  rw [all, allFrom_eq, Nat.zero_add]

/-- In a sorted list the elements below a key come first. -/
theorem drop_takeWhile_eq_filter {l : List (K × V)} (h : Sorted l) (starting : K) :
    l.drop (l.takeWhile (fun e => e.1 < starting)).length = l.filter (fun e => starting ≤ e.1) := by
  induction l with
  | nil => rfl
  | cons d l ih =>
      obtain ⟨hd, hl⟩ := List.pairwise_cons.mp h
      by_cases hs : d.1 < starting
      · simpa [hs, not_le.mpr hs] using ih hl
      · have hall : ∀ e ∈ d :: l, starting ≤ e.1 := by
          intro e he
          rcases List.mem_cons.mp he with rfl | he
          · exact not_lt.mp hs
          · exact (not_lt.mp hs).trans (hd e he)
        have hfilter : (d :: l).filter (fun e => starting ≤ e.1) = d :: l := by
          rw [List.filter_eq_self]
          intro e he
          simpa using hall e he
        rw [hfilter]
        simp [hs]

theorem startingFrom_eq (b : BoundedMap K V) (starting : K) :
    b.startingFrom starting results =
      ((b.m.inRangeFrom starting).length, results.insertAll (b.m.inRangeFrom starting)) := by
  have hdrop : b.m.elements.drop (b.m.lowerBound starting) = b.m.inRangeFrom starting :=
    drop_takeWhile_eq_filter b.m.sorted starting
  rw [startingFrom, allFrom_eq, hdrop, Nat.zero_add]

end BoundedMap

namespace SensorData

def all (info : SensorData) (events : Multimap ℤ ASensorEvent) : ℕ × Multimap ℤ ASensorEvent :=
  info.sharedQueue.all events

def startingFrom (info : SensorData) (start : ℤ) (events : Multimap ℤ ASensorEvent) :
    ℕ × Multimap ℤ ASensorEvent :=
  info.sharedQueue.startingFrom start events

end SensorData

namespace Sensors

/-- `get_all` with the number of a sensor. -/
def getAll (s : Sensors) (sensorId : ℤ) (events : Multimap ℤ ASensorEvent) :
    ℕ × Multimap ℤ ASensorEvent :=
  match s.find sensorId with
  | none => (0, events)
  | some info => info.all events

def getFrom (s : Sensors) (sensorId start : ℤ) (events : Multimap ℤ ASensorEvent) :
    ℕ × Multimap ℤ ASensorEvent :=
  match s.find sensorId with
  | none => (0, events)
  | some info => info.startingFrom start events

variable {done : List (Done SensorRequest SensorRequest.Ans)} {s s₁ s₂ : Sensors}
  {sys : SensorSystem} {q : ℕ} {sensorId starting ending : ℤ} {info info' : SensorData}
  {e e' : ℤ × SensorData} {events results : Multimap ℤ ASensorEvent} {evs : List ASensorEvent}

def stamped (ev : ASensorEvent) : ℤ × ASensorEvent := (ev.timestamp, ev)

def arrivesIn (q : ℕ) : SensorRequest → List ASensorEvent
  | .arrive q' event => if q' = q then [event] else []
  | .process _ _ => []

/-- The events that have arrived in a queue, the earliest first. -/
def arrived (q : ℕ) (done : List (Done SensorRequest SensorRequest.Ans)) : List ASensorEvent :=
  done.reverse.flatMap (fun d => arrivesIn q d.request)

theorem arrived_cons (d : Done SensorRequest SensorRequest.Ans) :
    arrived q (d :: done) = arrived q done ++ arrivesIn q d.request := by
  simp [arrived]

/-- No event is older than the least key of the maps, and the limit is none below zero. -/
def Timely (_ : List (Done SensorRequest SensorRequest.Ans)) (_ : Sensors) : SensorRequest → Prop
  | .arrive _ event => 0 ≤ event.timestamp
  | .process _ maxToProcess => 0 ≤ maxToProcess

/-- The events of a queue are those in the map, as far as it has room, and then those that wait. -/
structure Remembers (done : List (Done SensorRequest SensorRequest.Ans)) (qs : EventQueues)
    (e : ℤ × SensorData) (q : ℕ) (taken : List ASensorEvent) : Prop where
  pointer : e.2.sensorQueue = .object q
  queue : HasQueue qs e
  order : arrived q done = taken ++ pendingEvents qs e
  timely : ∀ ev ∈ arrived q done, 0 ≤ ev.timestamp
  room : 1 ≤ e.2.sharedQueue.maxSize
  holds : BoundedMap.Holds e.2.sharedQueue.maxSize 0 (taken.map stamped) e.2.sharedQueue

/-- A map that holds the largest of some events takes up more of them. -/
theorem pushes_holds {es : List (ℤ × ASensorEvent)} {maxSize : ℕ} (hmax : 1 ≤ maxSize)
    (h : BoundedMap.Holds maxSize 0 es info.sharedQueue)
    (hkeys : ∀ d ∈ es ++ evs.map stamped, 0 ≤ d.1) :
    ∃ info', info.pushes evs = .ok info' ∧ info'.sensorQueue = info.sensorQueue ∧
      BoundedMap.Holds maxSize 0 (es ++ evs.map stamped) info'.sharedQueue := by
  induction evs generalizing info es with
  | nil =>
      refine ⟨info, rfl, rfl, ?_⟩
      rw [List.map_nil, List.append_nil]
      exact h
  | cons ev evs ih =>
      have happend : es ++ (ev :: evs).map stamped = es ++ [stamped ev] ++ evs.map stamped := by
        simp
      rw [happend] at hkeys ⊢
      obtain ⟨b, hb, hholds⟩ :=
        BoundedMap.holds_insert hmax h (fun d hd => hkeys d (List.mem_append_left _ hd))
      have hpush : info.push ev = .ok { info with sharedQueue := b } := by
        have hinsert : info.sharedQueue.insert (ev.timestamp, ev) = some b := hb
        rw [SensorData.push, hinsert]
      have hmap : BoundedMap.Holds maxSize 0 (es ++ [stamped ev])
          { info with sharedQueue := b }.sharedQueue := hholds
      obtain ⟨info', hpushes, hpointer, hholds'⟩ := ih hmap hkeys
      refine ⟨info', ?_, hpointer, hholds'⟩
      rw [SensorData.pushes_cons, hpush]
      exact hpushes

theorem exists_left {α β : Type} {R : α → β → Prop} {l : List α} {l' : List β} {b : β}
    (h : List.Forall₂ R l l') (hb : b ∈ l') : ∃ a ∈ l, R a b := by
  induction h with
  | nil => cases hb
  | cons hhead _ ih =>
      obtain rfl | hb := List.mem_cons.mp hb
      · exact ⟨_, List.mem_cons_self, hhead⟩
      · obtain ⟨a, ha, hab⟩ := ih hb
        exact ⟨a, List.mem_cons_of_mem _ ha, hab⟩

namespace Remembers

variable {qs qs' : EventQueues} {taken : List ASensorEvent} {k : ℕ}

theorem arrive {q' : ℕ} {event : ASensorEvent} (h : Remembers done qs e q taken)
    (hevent : 0 ≤ event.timestamp) :
    Remembers (⟨.arrive q' event, ()⟩ :: done) (qs.arrive q' event) e q taken := by
  have hpointer := h.pointer
  have hqueue := h.queue
  rw [HasQueue, hpointer] at hqueue
  have hnew : (qs.arrive q' event).pending e.1 e.2.sensorQueue =
      .ok (pendingEvents qs e ++ arrivesIn q (.arrive q' event)) := by
    rw [hpointer]
    unfold EventQueues.pending at hqueue ⊢
    cases hlive : qs.live q with
    | none => simp [hlive] at hqueue
    | some queue =>
        simp only [hlive] at hqueue
        split_ifs at hqueue with hid
        have hpending := Except.ok.inj hqueue
        by_cases hq : q' = q
        · subst hq
          simp [EventQueues.arrive, Table.adjust, hlive, hid, arrivesIn, hpending]
        · have hne : q ≠ q' := fun heq => hq heq.symm
          simp [EventQueues.arrive, Table.adjust, hlive, hid, arrivesIn, hpending, hq, hne]
  obtain ⟨hqueue', hpending'⟩ := hasQueue_of_ok hnew
  refine ⟨hpointer, hqueue', ?_, ?_, h.room, h.holds⟩
  · rw [arrived_cons, h.order, hpending', List.append_assoc]
  · rw [arrived_cons]
    intro ev hev
    obtain hev | hev := List.mem_append.mp hev
    · exact h.timely ev hev
    · simp only [arrivesIn] at hev
      split_ifs at hev
      · obtain rfl := List.mem_singleton.mp hev
        exact hevent
      · cases hev

theorem stamps (h : Remembers done qs e q taken) (k : ℕ) :
    ∀ d ∈ taken.map stamped ++ ((pendingEvents qs e).take k).map stamped, 0 ≤ d.1 := by
  intro d hd
  rw [← List.map_append] at hd
  obtain ⟨ev, hev, rfl⟩ := List.mem_map.mp hd
  apply h.timely
  rw [h.order]
  obtain hev | hev := List.mem_append.mp hev
  · exact List.mem_append_left _ hev
  · exact List.mem_append_right _ (List.mem_of_mem_take hev)

theorem takes {d : Done SensorRequest SensorRequest.Ans} (h : Remembers done qs e q taken)
    (hd : arrivesIn q d.request = []) (ht : Takes qs qs' k e e') :
    Remembers (d :: done) qs' e' q (taken ++ (pendingEvents qs e).take k) := by
  obtain ⟨info, hpushes, hpointer, hholds⟩ := pushes_holds h.room h.holds (h.stamps k)
  obtain rfl : info = e'.2 := Except.ok.inj (hpushes.symm.trans ht.pushed)
  have hleft : qs'.pending e'.1 e'.2.sensorQueue = .ok ((pendingEvents qs e).drop k) := by
    rw [ht.same, hpointer]
    exact ht.left
  obtain ⟨hqueue, hpending⟩ := hasQueue_of_ok hleft
  have harrived : arrived q (d :: done) = arrived q done := by
    rw [arrived_cons, hd, List.append_nil]
  refine ⟨hpointer.trans h.pointer, hqueue, ?_, ?_, ?_, ?_⟩
  · rw [harrived, h.order, hpending, List.append_assoc, List.take_append_drop]
  · rw [harrived]
    exact h.timely
  · rw [hholds.bound]
    exact h.room
  · rw [List.map_append, hholds.bound]
    exact hholds

theorem skip {d : Done SensorRequest SensorRequest.Ans} (h : Remembers done qs e q taken)
    (hd : arrivesIn q d.request = []) : Remembers (d :: done) qs e q taken := by
  have harrived : arrived q (d :: done) = arrived q done := by
    rw [arrived_cons, hd, List.append_nil]
  exact ⟨h.pointer, h.queue, harrived ▸ h.order, harrived ▸ h.timely, h.room, h.holds⟩

/-- The map takes up what waits. -/
theorem pushes (h : Remembers done qs e q taken) (k : ℕ) :
    ∃ info, e.2.pushes ((pendingEvents qs e).take k) = .ok info := by
  obtain ⟨info, hpushes, -, -⟩ := pushes_holds h.room h.holds (h.stamps k)
  exact ⟨info, hpushes⟩

end Remembers

/-- All sensors are remembered. -/
structure AllRemembered (done : List (Done SensorRequest SensorRequest.Ans)) (s : Sensors) :
    Prop where
  keys : (s.sensors.map Prod.fst).Nodup
  sensors : ∀ e ∈ s.sensors, ∃ q taken, Remembers done s.queues e q taken

theorem AllRemembered.processes (h : AllRemembered done s) {poll : Poll} {maxToProcess : ℤ}
    (hmax : 0 ≤ maxToProcess) : ∃ p, s.processQueues poll maxToProcess = .ok p := by
  cases poll with
  | timeout => exact ⟨_, rfl⟩
  | error => exact ⟨_, rfl⟩
  | events =>
      have hqueues : ∀ e ∈ s.sensors, HasQueue s.queues e := by
        intro e he
        obtain ⟨q, taken, hr⟩ := h.sensors e he
        exact hr.queue
      have hpushes : ∀ e ∈ s.sensors, ∃ info, e.2.pushes ((pendingEvents s.queues e).take
          (toTake maxToProcess (pendingEvents s.queues e))) = .ok info := by
        intro e he
        obtain ⟨q, taken, hr⟩ := h.sensors e he
        exact hr.pushes _
      have htotal : ∃ r, processFrom maxToProcess s.sensors 0 s.queues = .ok r :=
        processFrom_total hmax h.keys hqueues hpushes
      obtain ⟨r, hr⟩ := htotal
      exact ⟨_, by rw [processQueues, hr]; rfl⟩

theorem keys_of_forall₂ {R : ℤ × SensorData → ℤ × SensorData → Prop}
    {sensors sensors' : List (ℤ × SensorData)} (hR : ∀ e e', R e e' → e'.1 = e.1)
    (h : List.Forall₂ R sensors sensors') :
    sensors'.map Prod.fst = sensors.map Prod.fst := by
  induction h with
  | nil => rfl
  | cons hhead _ ih => rw [List.map_cons, List.map_cons, ih, hR _ _ hhead]

theorem AllRemembered.step {request : SensorRequest} {a : request.Ans} {s' : Sensors}
    (h : AllRemembered done s) (hok : Timely done s request)
    (hq : respond request s = some (a, s')) : AllRemembered (⟨request, a⟩ :: done) s' := by
  cases request with
  | arrive q' event =>
      cases hq
      refine ⟨h.keys, fun e he => ?_⟩
      obtain ⟨q, taken, hr⟩ := h.sensors e he
      exact ⟨q, taken, hr.arrive hok⟩
  | process poll maxToProcess =>
      obtain ⟨p, hp⟩ : ∃ p, s.processQueues poll maxToProcess = .ok p := h.processes hok
      have hrun : s.processQueues poll maxToProcess = .ok (a, s') := by
        rw [respond, hp] at hq
        rw [hp]
        exact congrArg _ (Option.some.inj hq)
      cases poll with
      | timeout =>
          cases hrun
          refine ⟨h.keys, fun e he => ?_⟩
          obtain ⟨q, taken, hr⟩ := h.sensors e he
          exact ⟨q, taken, hr.skip rfl⟩
      | error =>
          cases hrun
          refine ⟨h.keys, fun e he => ?_⟩
          obtain ⟨q, taken, hr⟩ := h.sensors e he
          exact ⟨q, taken, hr.skip rfl⟩
      | events =>
          obtain ⟨r, hr, -, rfl⟩ := processQueues_eq_ok hrun
          obtain ⟨htakes, -, -⟩ := processFrom_ok hok h.keys hr (fun _ _ => rfl)
          refine ⟨?_, ?_⟩
          · rw [keys_of_forall₂ (fun _ _ ht => ht.same) htakes]
            exact h.keys
          · intro e' he'
            obtain ⟨e, he, ht⟩ := exists_left htakes he'
            obtain ⟨q, taken, hr⟩ := h.sensors e he
            exact ⟨q, _, hr.takes rfl ht⟩

/-! ### From `initialize` on -/

/-- `initialize` leaves the maps as they are. -/
theorem initializeSensor_map (sys : SensorSystem) (st : Initializing) (e : ℤ × SensorData) :
    (initializeSensor sys st e).sensors.map (fun e => (e.1, e.2.sharedQueue)) =
      st.sensors.map (fun e => (e.1, e.2.sharedQueue)) ++ [(e.1, e.2.sharedQueue)] := by
  unfold initializeSensor
  dsimp only
  split
  · simp
  · split_ifs <;> simp

theorem initializeSensor_maps (sensors : List (ℤ × SensorData)) (st : Initializing) :
    (sensors.foldl (initializeSensor sys) st).sensors.map (fun e => (e.1, e.2.sharedQueue)) =
      st.sensors.map (fun e => (e.1, e.2.sharedQueue)) ++
        sensors.map (fun e => (e.1, e.2.sharedQueue)) := by
  induction sensors generalizing st with
  | nil => simp
  | cons e rest ih =>
      rw [List.foldl_cons, ih, initializeSensor_map, List.append_assoc]
      rfl

/-- Sensors have numbers of their own, and maps that are new. -/
structure Added (s : Sensors) : Prop where
  keys : (s.sensors.map Prod.fst).Nodup
  maps : ∀ e ∈ s.sensors, ∃ n : ℕ, e.2.sharedQueue = { maxSize := n, minkey := 0 }

theorem added_addSensor (h : Added s) (sensorId queuedMax : ℤ) (errs : Option String) :
    Added (addSensor sys sensorId queuedMax errs s).2.2 := by
  unfold addSensor
  by_cases hmanager : sys.hasManager = true
  · rw [if_pos hmanager]
    dsimp only
    by_cases hsensor : (sys.answers sensorId).defaultSensor.isSome = true
    · rw [if_pos hsensor]
      by_cases hfound : (s.find sensorId).isSome = true
      · rw [if_pos hfound]
        exact h
      · rw [if_neg hfound]
        rw [Bool.not_eq_true, Option.isSome_eq_false_iff, Option.isNone_iff_eq_none, find,
          List.lookup_eq_none_iff] at hfound
        have hnew : sensorId ∉ s.sensors.map Prod.fst := by
          intro hmem
          obtain ⟨e, he, heq⟩ := List.mem_map.mp hmem
          have hne := hfound e he
          rw [heq, bne_self_eq_false] at hne
          cases hne
        constructor
        · rw [List.map_append]
          exact h.keys.append (List.nodup_singleton _) (List.disjoint_singleton.mpr hnew)
        · intro e he
          obtain he | he := List.mem_append.mp he
          · exact h.maps e he
          · rw [List.mem_singleton.mp he]
            exact ⟨_, rfl⟩
    · rw [if_neg hsensor]
      exact h
  · rw [if_neg hmanager]
    exact h

theorem added_added (packageName : String) (calls : List AddCall) :
    Added (added packageName calls) := by
  have hfold (s : Sensors) (h : Added s) : Added (calls.foldl
      (fun s c => (addSensor c.sys c.sensorId c.queuedMax c.errs s).2.2) s) := by
    induction calls generalizing s with
    | nil => exact h
    | cons c calls ih => exact ih _ (added_addSensor h c.sensorId c.queuedMax c.errs)
  exact hfold _ ⟨List.nodup_nil, List.forall_mem_nil _⟩

theorem initializeSensors_maps {text : String} {inited : ℕ} {errs : Option String}
    (h : s.initializeSensors sys (some text) = some (inited, errs, s₁)) :
    s₁.sensors.map (fun e => (e.1, e.2.sharedQueue)) =
      s.sensors.map (fun e => (e.1, e.2.sharedQueue)) := by
  have hloop : ∀ st : Initializing, st.sensors = [] →
      (s.sensors.foldl (initializeSensor sys) st).sensors.map (fun e => (e.1, e.2.sharedQueue)) =
        s.sensors.map (fun e => (e.1, e.2.sharedQueue)) := by
    intro st hst
    rw [initializeSensor_maps, hst]
    rfl
  unfold initializeSensors at h
  by_cases hempty : s.sensors.isEmpty = true
  · rw [if_pos hempty] at h
    cases h
    rfl
  · rw [if_neg hempty] at h
    by_cases hmanager : ¬ sys.hasManager = true
    · rw [if_pos hmanager] at h
      cases h
      rfl
    · rw [if_neg hmanager] at h
      dsimp only at h
      by_cases hprepared : s.looper = .null ∧ sys.hasLooper = true
      · rw [if_pos hprepared, if_neg (by nofun)] at h
        cases h
        exact hloop _ rfl
      · rw [if_neg hprepared] at h
        by_cases hnull : s.looper = .null
        · rw [if_pos hnull] at h
          cases h
          rfl
        · rw [if_neg hnull] at h
          cases h
          exact hloop _ rfl

theorem remembered_initialized {packageName text : String} {calls : List AddCall} {inited : ℕ}
    {errs : Option String}
    (hinit : (added packageName calls).initializeSensors sys (some text) = some (inited, errs, s₁))
    (hpos : 0 < inited)
    (hup : ∀ e ∈ (added packageName calls).sensors, sys.setsUp e.1 = true)
    (hroom : ∀ e ∈ (added packageName calls).sensors, 1 ≤ e.2.sharedQueue.maxSize) :
    AllRemembered [] s₁ := by
  have hadded := added_added packageName calls
  have hunseen := unseen_added packageName calls
  have hmaps := initializeSensors_maps hinit
  have hloop : (added packageName calls).sensors ≠ [] ∧ sys.hasManager = true ∧
      sys.hasLooper = true := by
    by_contra hnone
    have hzero : (added packageName calls).sensors = [] ∨ sys.hasManager = false ∨
        sys.hasLooper = false := by
      simpa only [ne_eq, not_and_or, not_not, Bool.not_eq_true] using hnone
    obtain ⟨errs', s', heq⟩ := initializeSensors_zero hunseen hzero text
    cases hinit.symm.trans heq
    exact lt_irrefl 0 hpos
  obtain ⟨st, hset, hids, heq⟩ :=
    initializeSensors_eq hunseen hloop.1 hloop.2.1 hloop.2.2 text
  cases hinit.symm.trans heq
  refine ⟨hids ▸ hadded.keys, ?_⟩
  intro e he
  have hmem := List.mem_map_of_mem (f := fun e => (e.1, e.2.sharedQueue)) he
  rw [hmaps] at hmem
  obtain ⟨e₀, he₀, heq₀⟩ := List.mem_map.mp hmem
  obtain ⟨hid, hmap⟩ := Prod.mk.inj heq₀
  have hsets : sys.setsUp e.1 = true := hid ▸ hup e₀ he₀
  obtain ⟨q, queue, hpointer, hlive, howner⟩ := (hset.owns e he).mpr hsets
  obtain ⟨n, hnew⟩ := hadded.maps e₀ he₀
  have hempty := hset.pendingEvents_eq e he
  have hqueue : HasQueue st.queues e := by
    obtain ⟨events, hevents⟩ := pending_of_owns ⟨q, queue, hpointer, hlive, howner⟩
    exact (hasQueue_of_ok hevents).1
  refine ⟨q, [], hpointer, hqueue, ?_, List.forall_mem_nil _, hmap ▸ hroom e₀ he₀, ?_⟩
  · exact hempty.symm
  · rw [← hmap, hnew]
    exact ⟨rfl, rfl, largest_nil.symm⟩

theorem remembered_of_session (h : AllRemembered [] s₁)
    (hrun : Session respond Timely s₁ done s₂) : AllRemembered done s₂ := by
  apply hrun.invariant (I := AllRemembered) h
  intro done s request a s' hs hok hq
  exact hs.step hok hq

theorem mem_of_find (h : s.find sensorId = some info) : (sensorId, info) ∈ s.sensors := by
  obtain ⟨before, behind, hsplit, -⟩ := List.lookup_eq_some_iff.mp h
  rw [hsplit]
  exact List.mem_append_right _ List.mem_cons_self

end Sensors

/-- Of sensors that were all set up, however events arrive and queues are processed: no call faults,
the events of a sensor are taken in the order of their arrival, none is lost or doubled between
its queue and its map, and what is asked for is answered from the largest of those taken. -/
theorem sensor_history {sys : SensorSystem} {packageName text : String} {calls : List AddCall}
    {inited : ℕ} {errs : Option String} {s₁ s₂ : Sensors}
    {done : List (Done SensorRequest SensorRequest.Ans)}
    (hinit : (Sensors.added packageName calls).initializeSensors sys (some text) =
      some (inited, errs, s₁)) (hpos : 0 < inited)
    (hup : ∀ e ∈ (Sensors.added packageName calls).sensors, sys.setsUp e.1 = true)
    (hroom : ∀ e ∈ (Sensors.added packageName calls).sensors, 1 ≤ e.2.sharedQueue.maxSize)
    (hrun : Session Sensors.respond Sensors.Timely s₁ done s₂) :
    (∀ poll maxToProcess, 0 ≤ maxToProcess →
      ∃ p, s₂.processQueues poll maxToProcess = .ok p) ∧
    ∀ sensorId info, s₂.find sensorId = some info → ∃ q taken waiting,
      info.sensorQueue = .object q ∧ s₂.queues.pending sensorId (.object q) = .ok waiting ∧
      Sensors.arrived q done = taken ++ waiting ∧ ∀ starting results,
        let kept := largest info.sharedQueue.maxSize (taken.map Sensors.stamped)
        let since := kept.filter (fun e => starting ≤ e.1)
        s₂.getAll sensorId results = (kept.length, results.insertAll kept) ∧
        s₂.getFrom sensorId starting results = (since.length, results.insertAll since) ∧
        ∀ ending, starting ≤ ending →
          let within := kept.filter (fun e => starting ≤ e.1 ∧ e.1 ≤ ending)
          s₂.getBetween sensorId starting ending results =
            some (within.length, results.insertAll within) := by
  have hall := Sensors.remembered_of_session
    (Sensors.remembered_initialized hinit hpos hup hroom) hrun
  refine ⟨fun poll maxToProcess hmax => hall.processes hmax, ?_⟩
  intro sensorId info hfind
  obtain ⟨q, taken, hr⟩ := hall.sensors _ (Sensors.mem_of_find hfind)
  have hpointer : info.sensorQueue = .object q := hr.pointer
  have hqueue : s₂.queues.pending sensorId info.sensorQueue = .ok _ := hr.queue
  refine ⟨q, taken, _, hpointer, hpointer ▸ hqueue, hr.order, ?_⟩
  have hkept : info.sharedQueue.m.elements =
      largest info.sharedQueue.maxSize (taken.map Sensors.stamped) := hr.holds.elements
  intro starting results
  rw [← hkept]
  refine ⟨?_, ?_, ?_⟩
  · rw [Sensors.getAll, hfind]
    exact BoundedMap.all_eq _
  · rw [Sensors.getFrom, hfind]
    exact BoundedMap.startingFrom_eq _ _
  · intro ending hle
    rw [Sensors.getBetween, hfind]
    exact BoundedMap.answersRange_iff.mpr (Multimap.walkable_of_le hle)

/-- A system that sets up every sensor. -/
def everySensor : SensorSystem where
  hasManager := true
  hasLooper := true
  answers _ :=
    { defaultSensor := some 0
      hasQueue := true
      minDelay := 5000
      enableStatus := 0
      rateStatus := fun _ => 0 }

/-- Of two events of the gravity sensor the first is processed. -/
theorem sensor_history_gravity : ∃ s₁ s₂ done,
    (Sensors.added "" [⟨everySensor, 9, 1000, none⟩]).initializeSensors everySensor (some "") =
        some (1, some "", s₁) ∧ Session Sensors.respond Sensors.Timely s₁ done s₂ ∧
      Sensors.arrived 0 done = [⟨7, 0⟩, ⟨8, 1⟩] ∧
      ∃ info, s₂.find 9 = some info ∧ ∃ q taken waiting, info.sensorQueue = .object q ∧
        s₂.queues.pending 9 (.object q) = .ok waiting ∧
        Sensors.arrived q done = taken ++ waiting ∧ ∀ starting results,
          let kept := largest info.sharedQueue.maxSize (taken.map Sensors.stamped)
          let since := kept.filter (fun e => starting ≤ e.1)
          s₂.getAll 9 results = (kept.length, results.insertAll kept) ∧
          s₂.getFrom 9 starting results = (since.length, results.insertAll since) ∧
          ∀ ending, starting ≤ ending →
            let within := kept.filter (fun e => starting ≤ e.1 ∧ e.1 ≤ ending)
            s₂.getBetween 9 starting ending results =
              some (within.length, results.insertAll within) := by
  obtain ⟨s₁, hinit⟩ : ∃ s₁, (Sensors.added "" [⟨everySensor, 9, 1000, none⟩]).initializeSensors
      everySensor (some "") = some (1, some "", s₁) := ⟨_, rfl⟩
  have hstart : Session Sensors.respond Sensors.Timely s₁ [] s₁ := .start
  have hfirst : Session Sensors.respond Sensors.Timely s₁ [⟨.arrive 0 ⟨7, 0⟩, ()⟩] _ :=
    hstart.call (show (0 : ℤ) ≤ 7 by decide) rfl
  cases hinit
  have htaken : Session Sensors.respond Sensors.Timely _
      [⟨.process .events 200, (1 : ℤ)⟩, ⟨.arrive 0 ⟨7, 0⟩, ()⟩] _ :=
    hfirst.call (show (0 : ℤ) ≤ 200 by decide) rfl
  have hrun : Session Sensors.respond Sensors.Timely _
      [⟨.arrive 0 ⟨8, 1⟩, ()⟩, ⟨.process .events 200, (1 : ℤ)⟩, ⟨.arrive 0 ⟨7, 0⟩, ()⟩] _ :=
    htaken.call (show (0 : ℤ) ≤ 8 by decide) rfl
  have hinit : (Sensors.added "" [⟨everySensor, 9, 1000, none⟩]).initializeSensors everySensor
      (some "") = some (1, some "", _) := rfl
  have hup : ∀ e ∈ (Sensors.added "" [⟨everySensor, 9, 1000, none⟩]).sensors,
      everySensor.setsUp e.1 = true := by decide
  have hroom : ∀ e ∈ (Sensors.added "" [⟨everySensor, 9, 1000, none⟩]).sensors,
      1 ≤ e.2.sharedQueue.maxSize := by decide
  refine ⟨_, _, _, hinit, hrun, rfl, _, rfl, ?_⟩
  exact (sensor_history hinit Nat.one_pos hup hroom hrun).2 9 _ rfl

end ARArch

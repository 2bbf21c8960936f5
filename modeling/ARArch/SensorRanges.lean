import ARArch.Sensors

/-!
# The events of an interval

`get_between` and `get_all_between` hand the interval that they are given on to the maps of the
sensors. They answer it exactly if every map that they ask can be walked.
-/

namespace ARArch

variable {starting ending : ℤ} {events : Multimap ℤ ASensorEvent}

namespace Multimap

theorem insertAll_append {K V : Type} [LinearOrder K] (m : Multimap K V) (es es' : List (K × V)) :
    m.insertAll (es ++ es') = (m.insertAll es).insertAll es' :=
  List.foldl_append

end Multimap

namespace Sensors

/-- The events of one sensor in an interval, none of a sensor that was not added. -/
def rangeOf (s : Sensors) (sensorId starting ending : ℤ) : List (ℤ × ASensorEvent) :=
  match s.find sensorId with
  | none => []
  | some info => info.sharedQueue.m.inRange starting ending

/-- The events of some sensors in an interval. -/
def rangeOfAll (starting ending : ℤ) (sensors : List (ℤ × SensorData)) :
    List (ℤ × ASensorEvent) :=
  sensors.flatMap (fun entry => entry.2.sharedQueue.m.inRange starting ending)

/-- The events of one sensor are added, and counted. -/
def AnswersBetween (s : Sensors) (sensorId starting ending : ℤ)
    (events : Multimap ℤ ASensorEvent) : Prop :=
  s.getBetween sensorId starting ending events =
    some ((s.rangeOf sensorId starting ending).length,
      events.insertAll (s.rangeOf sensorId starting ending))

/-- The events of all sensors are added, and counted. -/
def AnswersAllBetween (s : Sensors) (starting ending : ℤ) (events : Multimap ℤ ASensorEvent) :
    Prop :=
  s.getAllBetween starting ending events =
    some ((rangeOfAll starting ending s.sensors).length,
      events.insertAll (rangeOfAll starting ending s.sensors))

theorem answersBetween_iff (s : Sensors) (sensorId : ℤ) :
    s.AnswersBetween sensorId starting ending events ↔
      ∀ info, s.find sensorId = some info → info.sharedQueue.m.Walkable starting ending := by
  unfold AnswersBetween getBetween rangeOf
  cases hfind : s.find sensorId with
  | none => exact iff_of_true rfl (fun info hinfo => by cases hinfo)
  | some info =>
      have hiff : info.sharedQueue.AnswersRange starting ending events ↔
          info.sharedQueue.m.Walkable starting ending := info.sharedQueue.answersRange_iff
      constructor
      · intro h info' hinfo
        cases hinfo
        exact hiff.mp h
      · intro h
        exact hiff.mpr (h info rfl)

theorem allBetweenFrom_eq_some {sensors : List (ℤ × SensorData)} {no : ℕ}
    (h : ∀ entry ∈ sensors, entry.2.sharedQueue.m.Walkable starting ending) :
    allBetweenFrom starting ending sensors no events =
      some (no + (rangeOfAll starting ending sensors).length,
        events.insertAll (rangeOfAll starting ending sensors)) := by
  induction sensors generalizing no events with
  | nil => rfl
  | cons entry rest ih =>
      obtain ⟨sensorId, info⟩ := entry
      obtain ⟨hinfo, hrest⟩ := List.forall_mem_cons.mp h
      have hrange : info.between starting ending events = some _ :=
        BoundedMap.answersRange_iff.mpr hinfo
      rw [allBetweenFrom, hrange]
      refine (ih hrest).trans ?_
      unfold rangeOfAll
      rw [List.flatMap_cons, List.length_append, Multimap.insertAll_append, Nat.add_assoc]

/-- A map that cannot be walked leaves the whole call without an answer. -/
theorem allBetweenFrom_eq_none {sensors : List (ℤ × SensorData)} {no : ℕ}
    {entry : ℤ × SensorData} (hmem : entry ∈ sensors)
    (h : ¬ entry.2.sharedQueue.m.Walkable starting ending) :
    allBetweenFrom starting ending sensors no events = none := by
  induction sensors generalizing no events with
  | nil => cases hmem
  | cons head rest ih =>
      obtain ⟨sensorId, info⟩ := head
      rw [allBetweenFrom]
      rcases List.mem_cons.mp hmem with rfl | hrest
      · have hnone : info.between starting ending events = none := by
          refine BoundedMap.between_eq.trans (if_neg ?_)
          rwa [← Multimap.walkable_iff]
        rw [hnone]
        rfl
      · cases hp : info.between starting ending events with
        | none => rfl
        | some p => exact ih hrest

theorem answersAllBetween_iff (s : Sensors) :
    s.AnswersAllBetween starting ending events ↔
      ∀ entry ∈ s.sensors, entry.2.sharedQueue.m.Walkable starting ending := by
  constructor
  · intro h entry hmem
    by_contra hentry
    have hnone : allBetweenFrom starting ending s.sensors 0 events = none :=
      allBetweenFrom_eq_none hmem hentry
    cases h.symm.trans hnone
  · intro h
    refine (allBetweenFrom_eq_some h).trans ?_
    rw [Nat.zero_add]

end Sensors

/-- `between` answers any two keys exactly if no key lies between them in the wrong order or no key
reaches the first; `get_between` and `get_all_between` do so if the maps asked do. -/
theorem ranges_answered_iff {K V : Type} [LinearOrder K] (b : BoundedMap K V) (first last : K)
    (results : Multimap K V) (s : Sensors) (sensorId starting ending : ℤ)
    (events : Multimap ℤ ASensorEvent) :
    (b.AnswersRange first last results ↔ b.m.Walkable first last) ∧
      (s.AnswersBetween sensorId starting ending events ↔
        ∀ info, s.find sensorId = some info → info.sharedQueue.m.Walkable starting ending) ∧
      (s.AnswersAllBetween starting ending events ↔
        ∀ entry ∈ s.sensors, entry.2.sharedQueue.m.Walkable starting ending) :=
  ⟨BoundedMap.answersRange_iff, s.answersBetween_iff sensorId, s.answersAllBetween_iff⟩

/-- The keys 5 and 9, asked for those from 8 to 3: the walk begins at 9, behind its end at 5. -/
theorem range_past_end :
    ¬∀ (b : BoundedMap ℤ ℕ) (starting ending : ℤ) (results : Multimap ℤ ℕ),
      b.AnswersRange starting ending results := by
  intro h
  have hmap := h { maxSize := 10, minkey := 0, m := ⟨[(5, 0), (9, 0)], by decide⟩ } 8 3
    Multimap.empty
  cases hmap

end ARArch

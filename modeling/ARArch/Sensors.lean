import ARArch.RangeQuery
import ARArch.Table
import Mathlib.Algebra.Ring.Int.Defs

/-!
# Sensors

`Sensors` keeps a `SensorData` for every sensor that was added. `initialize` asks the system for
the sensor and for an event queue, `process_queues` moves events from the event queues into the
maps of the sensors, and the maps are asked for the events of an interval.

The sensor manager, the looper and the event queues belong to the system. What it answers is a
parameter, and its event queues are part of the state here, each with the sensor that it was made
for. A call for a sensor with anything else than a living event queue made for this sensor is a
fault, and so is an insertion that runs past the end of a map. All calls come from one thread.
-/

namespace ARArch

structure ASensorEvent where
  timestamp : ℤ
  /-- The rest of an event, which is only copied. -/
  data : ℕ
  deriving DecidableEq

/-- A pointer that was never set, is null, or leads to the object with a number. -/
inductive Pointer
  | indeterminate
  | null
  | object (n : ℕ)
  deriving DecidableEq

/-- `sensor` and `sensor_queue` have no initializers. -/
structure SensorData where
  sensor : Pointer := .indeterminate
  sensorQueue : Pointer := .indeterminate
  sharedQueue : BoundedMap ℤ ASensorEvent
  isSupported : Bool := false
  good : Bool := false

structure EventQueue where
  sensorId : ℤ
  pending : List ASensorEvent := []

/-- The event queues that live; `made` names the next one. -/
structure EventQueues where
  live : Table ℕ EventQueue := Table.empty
  made : ℕ := 0

/-- What the system answers for a sensor. -/
structure SensorAnswers where
  defaultSensor : Option ℕ
  hasQueue : Bool
  minDelay : ℤ
  enableStatus : ℤ
  rateStatus : ℤ → ℤ

structure SensorSystem where
  hasManager : Bool
  hasLooper : Bool
  answers : ℤ → SensorAnswers

/-- The entries of `sensors` in the order of an iteration. -/
structure Sensors where
  packageName : String := ""
  sensors : List (ℤ × SensorData) := []
  looper : Pointer := .null
  queues : EventQueues := {}

/-- What leaves the language. -/
inductive Fault
  | deadQueue
  | pastEnd
  deriving DecidableEq

inductive Poll
  | timeout
  | error
  | events
  deriving DecidableEq

/-- `if (errs) *errs << text`. -/
def report (errs : Option String) (text : String) : Option String := errs.map (· ++ text)

namespace EventQueues

/-- `ASensorManager_createEventQueue`, when it succeeds. -/
def create (qs : EventQueues) (sensorId : ℤ) : EventQueues :=
  { live := qs.live.assign qs.made { sensorId }, made := qs.made + 1 }

/-- `ASensorManager_destroyEventQueue`. -/
def destroy (qs : EventQueues) (q : ℕ) : EventQueues := { qs with live := qs.live.erase q }

/-- The events that `ASensorEventQueue_hasEvents` and `ASensorEventQueue_getEvents` find, called
for a sensor. -/
def pending (qs : EventQueues) (sensorId : ℤ) : Pointer → Except Fault (List ASensorEvent)
  | .object q =>
    match qs.live q with
    | some queue => if queue.sensorId = sensorId then .ok queue.pending else .error .deadQueue
    | none => .error .deadQueue
  | .null | .indeterminate => .error .deadQueue

/-- Leave these events in a queue. -/
def setPending (qs : EventQueues) (events : List ASensorEvent) : Pointer → EventQueues
  | .object q =>
      { qs with live := qs.live.adjust q (fun queue => { queue with pending := events }) }
  | .null | .indeterminate => qs

end EventQueues

namespace SensorData

/-- The constructor. -/
def new (maxQueueSize : ℕ) : SensorData :=
  { sharedQueue := { maxSize := maxQueueSize, minkey := 0 } }

def push (info : SensorData) (ev : ASensorEvent) : Except Fault SensorData :=
  match info.sharedQueue.insert (ev.timestamp, ev) with
  | some b => .ok { info with sharedQueue := b }
  | none => .error .pastEnd

def between (info : SensorData) (start ending : ℤ) (events : Multimap ℤ ASensorEvent) :
    Option (ℕ × Multimap ℤ ASensorEvent) :=
  info.sharedQueue.between start ending events

end SensorData

namespace Sensors

/-- The sensors by their numbers in `android/sensor.h`. -/
def supportedSensors : List (ℤ × String) :=
  [(9, "Gravity"), (10, "Linear Accelerometer"), (1, "Accelerometer"), (4, "Gyroscope"),
    (2, "Magnetic"), (11, "Rotation Vector"), (15, "Game Rotation Vector"),
    (35, "Uncalibrated Accelerometer"), (16, "Uncalibrated Gyroscope"),
    (14, "Uncalibrated Magnetic")]

def find (s : Sensors) (sensorId : ℤ) : Option SensorData := s.sensors.lookup sensorId

/-- The name in the message is the character with the number of the sensor: the iterator's `first`
is assigned, not the name. -/
def addSensor (sys : SensorSystem) (sensorId queuedMax : ℤ) (errs : Option String) (s : Sensors) :
    Bool × Option String × Sensors :=
  if sys.hasManager then
    let sensorName := if (supportedSensors.lookup sensorId).isSome
      then String.singleton (Char.ofNat sensorId.toNat) else "Unknown/Unsupported"
    if (sys.answers sensorId).defaultSensor.isSome then
      if (s.find sensorId).isSome then (false, errs, s)
      else (true, errs, { s with
        sensors := s.sensors ++ [(sensorId, SensorData.new (queuedMax % 2 ^ 64).toNat)] })
    else (false,
      report errs ("Sensors::add_sensor: Error obtaining " ++ sensorName ++ " sensor."), s)
  else (false, report errs ("Sensors::add_sensor:: Error getting Android Sensor Manager using " ++
    "main package name '" ++ s.packageName ++ "'"), s)

/-- The sensors that the loop of `initialize` has been through, and what it has to go on with. -/
structure Initializing where
  n : ℕ := 0
  sensors : List (ℤ × SensorData) := []
  queues : EventQueues
  errs : Option String

/-- One turn of the loop of `initialize`. -/
def initializeSensor (sys : SensorSystem) (st : Initializing) (entry : ℤ × SensorData) :
    Initializing :=
  let sensorId := entry.1
  let answers := sys.answers sensorId
  let sensorName := (supportedSensors.lookup sensorId).getD ""
  let info := { entry.2 with isSupported := (supportedSensors.lookup sensorId).isSome }
  match answers.defaultSensor with
  | none => { st with
      sensors := st.sensors ++ [(sensorId, { info with sensor := .null, good := false })]
      errs := report st.errs ("Error obtaining " ++ sensorName ++ " sensor.") }
  | some sensor =>
    let info := { info with sensor := .object sensor }
    if answers.hasQueue then
      let queue := st.queues.made
      let queues := st.queues.create sensorId
      let info := { info with sensorQueue := .object queue }
      let bestrate := if answers.minDelay ≤ 0 then 4000 else answers.minDelay
      let errs := if answers.minDelay ≤ 0 then
        report st.errs ("Error obtaining best sampling rate for " ++ sensorName ++ " sensor.")
        else st.errs
      if answers.enableStatus < 0 then
        -- the queue is destroyed, and the pointer to it stays
        { st with
          sensors := st.sensors ++ [(sensorId, { info with good := false })]
          queues := queues.destroy queue
          errs := report errs ("Error enabling " ++ sensorName ++ " sensor") }
      else
        { n := st.n + 1
          sensors := st.sensors ++ [(sensorId, info)]
          queues := queues
          errs := if answers.rateStatus bestrate < 0 then
            report errs ("Error setting rate to " ++ toString bestrate ++ " for " ++ sensorName ++
              " sensor")
            else errs }
    else { st with
      sensors := st.sensors ++ [(sensorId, { info with sensorQueue := .null, good := false })]
      errs := report st.errs ("Error obtaining " ++ sensorName ++ " events queue") }

/-- `initialize`; `none` where `errs` is written to without a test for null. -/
def initializeSensors (sys : SensorSystem) (errs : Option String) (s : Sensors) :
    Option (ℕ × Option String × Sensors) :=
  if s.sensors.isEmpty then
    errs.map (fun text => (0, some (text ++ "Sensors::initialize - No sensors to initialize"), s))
  else if ¬ sys.hasManager then
    some (0, report errs ("Error getting Android Sensor Manager using main package name '" ++
      s.packageName ++ "'"), s)
  else
    let s := if s.looper = .null ∧ sys.hasLooper then { s with looper := .object 0 } else s
    if s.looper = .null then some (0, report errs "Error getting Android thread looper.", s)
    else
      let st := s.sensors.foldl (initializeSensor sys) { queues := s.queues, errs := errs }
      some (st.n, st.errs, { s with sensors := st.sensors, queues := st.queues })

/-- The loop of `process_queues` over the events of one sensor: the count, the events left in the
queue, and the sensor. -/
def readEvents (maxToProcess : ℤ) :
    List ASensorEvent → ℤ → SensorData → Except Fault (ℤ × List ASensorEvent × SensorData)
  | [], count, info => .ok (count, [], info)
  | event :: events, count, info => do
    let info ← info.push event
    if count > maxToProcess then .ok (count + 1, events, info)
    else readEvents maxToProcess events (count + 1) info

/-- The loop of `process_queues` over the sensors. -/
def processFrom (maxToProcess : ℤ) : List (ℤ × SensorData) → ℤ → EventQueues →
    Except Fault (ℤ × List (ℤ × SensorData) × EventQueues)
  | [], count, queues => .ok (count, [], queues)
  | (sensorId, info) :: rest, count, queues => do
    let events ← queues.pending sensorId info.sensorQueue
    if events.isEmpty then
      let r ← processFrom maxToProcess rest count queues
      .ok (r.1, (sensorId, info) :: r.2.1, r.2.2)
    else
      let p ← readEvents maxToProcess events 0 info
      let r ← processFrom maxToProcess rest p.1 (queues.setPending p.2.1 info.sensorQueue)
      .ok (r.1, (sensorId, p.2.2) :: r.2.1, r.2.2)

def processQueues (poll : Poll) (maxToProcess : ℤ) (s : Sensors) : Except Fault (ℤ × Sensors) :=
  match poll with
  | .timeout | .error => .ok (0, s)
  | .events => do
    let r ← processFrom maxToProcess s.sensors 0 s.queues
    .ok (r.1, { s with sensors := r.2.1, queues := r.2.2 })

def getBetween (s : Sensors) (sensorId start ending : ℤ) (events : Multimap ℤ ASensorEvent) :
    Option (ℕ × Multimap ℤ ASensorEvent) :=
  match s.find sensorId with
  | none => some (0, events)
  | some info => info.between start ending events

/-- The loop of `get_all_between`. -/
def allBetweenFrom (start ending : ℤ) : List (ℤ × SensorData) → ℕ → Multimap ℤ ASensorEvent →
    Option (ℕ × Multimap ℤ ASensorEvent)
  | [], no, events => some (no, events)
  | (_, info) :: rest, no, events => do
    let p ← info.between start ending events
    allBetweenFrom start ending rest (no + p.1) p.2

def getAllBetween (s : Sensors) (start ending : ℤ) (events : Multimap ℤ ASensorEvent) :
    Option (ℕ × Multimap ℤ ASensorEvent) :=
  allBetweenFrom start ending s.sensors 0 events

end Sensors
end ARArch

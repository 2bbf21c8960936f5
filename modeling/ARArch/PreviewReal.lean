import ARArch.PreviewStart
import Mathlib.Data.List.Perm.Subperm

/-!
# When a preview that was started is real

Nothing takes a result out of the map, so that `startPreview` may count one that is older than
the last `initialize` or `stopPreview` of its camera. A camera that it counts is previewing if the
result is newer, comes from the current object of the camera, and is not undone before the call
returns.
-/

namespace ARArch

/-- How far a camera object has come since its camera was last initialized or stopped. -/
inductive Stage
  | stopped
  | started
  | previewing
  deriving DecidableEq

namespace Stage

/-- The object's `startPreview` is called. -/
def start : Stage → Stage
  | stopped => started
  | started => started
  | previewing => previewing

/-- The object reports success. -/
def report : Stage → Stage
  | stopped => stopped
  | started => previewing
  | previewing => previewing

end Stage

/-- The request initializes a camera or stops it, as a failure does. -/
def MARRequest.stops (camera : CameraId) : MARRequest → Bool
  | initializeCamera c _ _ => c = camera
  | stopPreview c => c = camera
  | onPreviewResult c _ isOK => c = camera ∧ isOK = false
  | startPreview _ | step _ => false

def MARRequest.reportsOK (camera : CameraId) : MARRequest → Bool
  | onPreviewResult c _ isOK => c = camera ∧ isOK = true
  | initializeCamera _ _ _ | stopPreview _ | startPreview _ | step _ => false

def stage (camera : CameraId) (object : ℕ) : PreviewHistory → Stage
  | [] => .stopped
  | e :: done =>
    if e.request.stops camera then .stopped
    else if e.answer = .started camera object then (stage camera object done).start
    else if e.request = .onPreviewResult camera object true then
      (stage camera object done).report
    else stage camera object done

/-- The camera was initialized or stopped after the last success reported for it. -/
def stoppedSince (camera : CameraId) : PreviewHistory → Bool
  | [] => false
  | e :: done =>
    if e.request.stops camera then true
    else if e.request.reportsOK camera then false
    else stoppedSince camera done

/-- The cameras that the call is for. -/
def StartCall.cameraSizes : StartCall → List CameraId
  | idle => []
  | starting cameraSizes _ => cameraSizes
  | waiting cameraSizes _ _ _ _ => cameraSizes

/-- The cameras that the call has counted as previewing. -/
def StartCall.countedOK : StartCall → List CameraId
  | waiting _ _ configured badCameras _ => configured.filter (fun camera => camera ∉ badCameras)
  | idle | starting _ _ => []

/-- The camera whose result the next step of the call counts, if it has one. -/
def StartCall.next : StartCall → Option CameraId
  | waiting _ (camera :: _) configured _ _ => if camera ∈ configured then none else some camera
  | waiting _ [] _ _ _ | idle | starting _ _ => none

namespace MAR

/-- The camera's current object was started after its last `initialize` or `stopPreview` and has
reported success since then. -/
def Previewing (mar : MAR) (done : PreviewHistory) (camera : CameraId) : Prop :=
  ∃ object, mar.cameras camera = some object ∧ stage camera object done = .previewing

/-- Success is reported by the current object of a camera, once it has been started; `startPreview`
counts no success after which the camera was initialized or stopped; and no camera that it has
counted is initialized or stopped, or fails, before it returns. -/
def CountsCurrent (done : PreviewHistory) (mar : MAR) : MARRequest → Prop
  | .onPreviewResult camera object true =>
    mar.cameras camera = some object ∧ stage camera object done ≠ .stopped
  | .onPreviewResult camera _ false | .initializeCamera camera _ _ | .stopPreview camera =>
    camera ∉ mar.call.countedOK
  | .step _ => ∀ camera ∈ mar.call.next, mar.isPreviewingReady camera = some true →
      stoppedSince camera done = false
  | .startPreview _ => True

instance (done : PreviewHistory) (mar : MAR) (q : MARRequest) :
    Decidable (mar.CountsCurrent done q) :=
  match q with
  | .onPreviewResult _ _ true => inferInstanceAs (Decidable (_ ∧ _))
  | .onPreviewResult camera _ false | .initializeCamera camera _ _ | .stopPreview camera =>
    inferInstanceAs (Decidable (camera ∉ mar.call.countedOK))
  | .step _ => inferInstanceAs (Decidable (∀ camera ∈ mar.call.next,
      mar.isPreviewingReady camera = some true → stoppedSince camera done = false))
  | .startPreview _ => inferInstanceAs (Decidable True)

variable {mar mar' : MAR} {done : PreviewHistory} {q : MARRequest} {a : PreviewEvent}
  {camera : CameraId} {object : ℕ}

theorem stage_of_not_stops (hq : q.stops camera = false)
    (h : stage camera object done = .previewing) :
    stage camera object (⟨q, a⟩ :: done) = .previewing := by
  unfold stage
  rw [if_neg (by rw [hq]; decide), h]
  split_ifs with hstarted hreports
  · rfl
  · rfl
  · rfl

theorem stoppedSince_of_stops (hq : q.stops camera = true) :
    stoppedSince camera (⟨q, a⟩ :: done) = true := by
  simp only [stoppedSince, hq, if_true]

/-- A request that has nothing to do with a camera. -/
theorem stoppedSince_of_other (hq : q.stops camera = false) (hr : q.reportsOK camera = false) :
    stoppedSince camera (⟨q, a⟩ :: done) = stoppedSince camera done := by
  simp [stoppedSince, hq, hr]

/-- A camera that is neither initialized nor stopped goes on previewing. -/
theorem Previewing.mono (h : mar.Previewing done camera)
    (hcameras : mar'.cameras camera = mar.cameras camera) (hq : q.stops camera = false) :
    mar'.Previewing (⟨q, a⟩ :: done) camera := by
  obtain ⟨object, hobject, hstage⟩ := h
  exact ⟨object, hcameras.trans hobject, stage_of_not_stops hq hstage⟩

/-- `stopPreview` concerns the object only. -/
theorem stopPreview_other (mar : MAR) (camera : CameraId) :
    (mar.stopPreview camera).cameras = mar.cameras ∧
      (mar.stopPreview camera).isPreviewingReady = mar.isPreviewingReady ∧
      (mar.stopPreview camera).call = mar.call := by
  unfold stopPreview
  cases mar.cameras camera with
  | none => exact ⟨rfl, rfl, rfl⟩
  | some object => exact ⟨rfl, rfl, rfl⟩

theorem initializeCamera_other (mar : MAR) (camera : CameraId) (opens isRearFacing : Bool) :
    (∀ c, c ≠ camera →
      (mar.initializeCamera camera opens isRearFacing).cameras c = mar.cameras c) ∧
      (mar.initializeCamera camera opens isRearFacing).isPreviewingReady =
        mar.isPreviewingReady ∧
      (mar.initializeCamera camera opens isRearFacing).call = mar.call := by
  obtain ⟨hcameras, hready, hcall⟩ := stopPreview_other mar camera
  unfold initializeCamera
  cases opens with
  | true => exact ⟨fun c hc => by simp [makeCamera, hc], hready, hcall⟩
  | false => exact ⟨fun c hc => by simp [makeCamera, hc], hready, hcall⟩

end MAR

/-- The effect of a step on the call, given the results reported so far. -/
inductive CallStep (ready : Table CameraId Bool) : StartCall → PreviewEvent → StartCall → Prop
  | idle : CallStep ready .idle .quiet .idle
  | skip {cameraSizes : List CameraId} {p : CameraId × ℕ} {cameraList : List (CameraId × ℕ)} :
      CallStep ready (.starting cameraSizes (p :: cameraList)) .quiet
        (.starting cameraSizes cameraList)
  | start {cameraSizes : List CameraId} {camera : CameraId} {object : ℕ}
      {cameraList : List (CameraId × ℕ)} :
      CallStep ready (.starting cameraSizes ((camera, object) :: cameraList))
        (.started camera object) (.starting cameraSizes cameraList)
  | loop {cameraSizes : List CameraId} :
      CallStep ready (.starting cameraSizes []) .quiet (.waiting cameraSizes cameraSizes [] [] 0)
  | noCameras : CallStep ready (.starting [] []) (.returned true []) .idle
  | look {cameraSizes pass configured badCameras : List CameraId} {camera : CameraId}
      {configuredOK : ℕ} :
      CallStep ready (.waiting cameraSizes (camera :: pass) configured badCameras configuredOK)
        .quiet (.waiting cameraSizes pass configured badCameras configuredOK)
  | count {cameraSizes pass configured badCameras : List CameraId} {camera : CameraId}
      {configuredOK : ℕ} (hc : camera ∉ configured) (hr : ready camera = some true) :
      CallStep ready (.waiting cameraSizes (camera :: pass) configured badCameras configuredOK)
        .quiet
        (.waiting cameraSizes pass (camera :: configured) badCameras (configuredOK + 1))
  | fail {cameraSizes pass configured badCameras : List CameraId} {camera : CameraId}
      {configuredOK : ℕ} (hc : camera ∉ configured) (hr : ready camera = some false) :
      CallStep ready (.waiting cameraSizes (camera :: pass) configured badCameras configuredOK)
        .quiet
        (.waiting cameraSizes pass (camera :: configured) (badCameras ++ [camera]) configuredOK)
  | again {cameraSizes configured badCameras : List CameraId} {configuredOK : ℕ} :
      CallStep ready (.waiting cameraSizes [] configured badCameras configuredOK) .quiet
        (.waiting cameraSizes cameraSizes configured badCameras configuredOK)
  | finish {cameraSizes configured badCameras : List CameraId} {configuredOK : ℕ} :
      CallStep ready (.waiting cameraSizes [] configured badCameras configuredOK)
        (.returned (decide (cameraSizes.length ≤ configuredOK)) badCameras) .idle

namespace MAR

variable {mar mar' : MAR}

/-- A step of `startPreview` leaves both maps alone. -/
theorem callStep (mar : MAR) (late : Bool) :
    (mar.step late).2.cameras = mar.cameras ∧
      (mar.step late).2.isPreviewingReady = mar.isPreviewingReady ∧
      CallStep mar.isPreviewingReady mar.call (mar.step late).1 (mar.step late).2.call := by
  unfold step
  cases hcall : mar.call with
  | idle =>
      refine ⟨rfl, rfl, ?_⟩
      dsimp only
      rw [hcall]
      exact .idle
  | starting cameraSizes cameraList =>
      cases cameraList with
      | nil =>
          dsimp only
          by_cases hc : cameraSizes = []
          · subst hc
            rw [if_pos rfl]
            exact ⟨rfl, rfl, .noCameras⟩
          · rw [if_neg hc]
            exact ⟨rfl, rfl, .loop⟩
      | cons p cameraList =>
          dsimp only [startCamera]
          by_cases hr : (mar.isPreviewingReady p.1).isSome = true
          · rw [if_pos hr]
            exact ⟨rfl, rfl, .skip⟩
          · rw [if_neg hr]
            exact ⟨rfl, rfl, .start⟩
  | waiting cameraSizes pass configured badCameras configuredOK =>
      cases pass with
      | nil =>
          dsimp only
          by_cases hlate : configured.length < cameraSizes.length ∧ late = false
          · rw [if_pos hlate]
            exact ⟨rfl, rfl, .again⟩
          · rw [if_neg hlate]
            exact ⟨rfl, rfl, .finish⟩
      | cons camera pass =>
          dsimp only
          by_cases hc : camera ∈ configured
          · rw [if_pos hc]
            exact ⟨rfl, rfl, .look⟩
          · rw [if_neg hc]
            cases hr : mar.isPreviewingReady camera with
            | none => exact ⟨rfl, rfl, .look⟩
            | some isOK =>
                cases isOK with
                | true => exact ⟨rfl, rfl, .count hc hr⟩
                | false => exact ⟨rfl, rfl, .fail hc hr⟩

end MAR

/-- The lists and the counter of the loop fit together. -/
def StartCall.Tally : StartCall → Prop
  | waiting cameraSizes pass configured badCameras configuredOK =>
    pass ⊆ cameraSizes ∧ configured ⊆ cameraSizes ∧ configured.Nodup ∧
      badCameras ⊆ configured ∧
      configuredOK = (configured.filter (fun camera => camera ∉ badCameras)).length
  | idle | starting _ _ => True

namespace CallStep

variable {ready : Table CameraId Bool} {call call' : StartCall} {event : PreviewEvent}
  {badCameras : List CameraId}

theorem countedOK_fail {configured badCameras : List CameraId} {camera : CameraId}
    (hc : camera ∉ configured) :
    (camera :: configured).filter (fun c => c ∉ badCameras ++ [camera]) =
      configured.filter (fun c => c ∉ badCameras) := by
  rw [List.filter_cons_of_neg (by simp)]
  apply List.filter_congr
  intro c hmem
  have hne : c ≠ camera := fun h => hc (h ▸ hmem)
  simp [hne]

theorem countedOK_count {configured badCameras : List CameraId} {camera : CameraId}
    (hc : camera ∉ badCameras) :
    (camera :: configured).filter (fun c => c ∉ badCameras) =
      camera :: configured.filter (fun c => c ∉ badCameras) :=
  List.filter_cons_of_pos (by simpa using hc)

theorem tally (h : CallStep ready call event call') (ht : call.Tally) : call'.Tally := by
  cases h with
  | idle | skip | start | noCameras | finish => trivial
  | loop => exact ⟨fun c hc => hc, List.nil_subset _, List.nodup_nil, List.nil_subset _, rfl⟩
  | look =>
      obtain ⟨hpass, hrest⟩ := ht
      exact ⟨(List.cons_subset.mp hpass).2, hrest⟩
  | count hc hr =>
      obtain ⟨hpass, hconf, hnodup, hbad, hcount⟩ := ht
      obtain ⟨hcamera, hpass⟩ := List.cons_subset.mp hpass
      refine ⟨hpass, List.cons_subset.mpr ⟨hcamera, hconf⟩, List.nodup_cons.mpr ⟨hc, hnodup⟩,
        fun c hmem => List.mem_cons_of_mem _ (hbad hmem), ?_⟩
      rw [countedOK_count (fun hmem => hc (hbad hmem)), hcount]
      rfl
  | fail hc hr =>
      obtain ⟨hpass, hconf, hnodup, hbad, hcount⟩ := ht
      obtain ⟨hcamera, hpass⟩ := List.cons_subset.mp hpass
      refine ⟨hpass, List.cons_subset.mpr ⟨hcamera, hconf⟩, List.nodup_cons.mpr ⟨hc, hnodup⟩, ?_,
        ?_⟩
      · intro c hmem
        obtain hmem | hmem := List.mem_append.mp hmem
        · exact List.mem_cons_of_mem _ (hbad hmem)
        · exact List.mem_singleton.mp hmem ▸ List.mem_cons_self
      · rw [countedOK_fail hc, hcount]
  | again =>
      obtain ⟨_, hrest⟩ := ht
      exact ⟨fun c hc => hc, hrest⟩

/-- A camera newly counted has the result `true`. -/
theorem counted (h : CallStep ready call event call') {camera : CameraId} (ht : call.Tally)
    (hc : camera ∈ call'.countedOK) :
    camera ∈ call.countedOK ∨ (camera ∈ call.next ∧ ready camera = some true) := by
  cases h with
  | idle | skip | start | loop | noCameras | finish => cases hc
  | look | again => exact Or.inl hc
  | @count _ _ configured bad new _ hnew hr =>
      obtain ⟨_, _, _, hbad, _⟩ := ht
      have hlist : (new :: configured).filter (fun c => c ∉ bad) =
          new :: configured.filter (fun c => c ∉ bad) :=
        countedOK_count (fun hmem => hnew (hbad hmem))
      rw [StartCall.countedOK, hlist] at hc
      obtain rfl | hc := List.mem_cons.mp hc
      · exact Or.inr ⟨if_neg hnew, hr⟩
      · exact Or.inl hc
  | fail hnew hr =>
      rw [StartCall.countedOK, countedOK_fail hnew] at hc
      exact Or.inl hc

/-- A call that returns `true` has counted all its cameras. -/
theorem returned (h : CallStep ready call (.returned true badCameras) call') (ht : call.Tally)
    {camera : CameraId} (hc : camera ∈ call.cameraSizes) : camera ∈ call.countedOK := by
  generalize hevent : PreviewEvent.returned true badCameras = event at h
  cases h with
  | noCameras => cases hc
  | @finish cameraSizes configured bad configuredOK =>
      obtain ⟨_, hconf, hnodup, _, hcount⟩ := ht
      have hle : cameraSizes.length ≤ configuredOK := by
        have hdecide : true = decide (cameraSizes.length ≤ configuredOK) := by
          injection hevent
        exact of_decide_eq_true hdecide.symm
      rw [hcount] at hle
      have hsub : configured.filter (fun c => c ∉ bad) ⊆ cameraSizes :=
        fun c hmem => hconf (List.mem_of_mem_filter hmem)
      have hperm := ((hnodup.filter _).subperm hsub).perm_of_length_le hle
      exact hperm.mem_iff.mpr hc
  | idle | skip | start | loop | look | count | fail | again => cases hevent

end CallStep

namespace MAR

variable {mar mar' : MAR} {done : PreviewHistory} {q : MARRequest} {a : PreviewEvent}
  {camera : CameraId} {object : ℕ}

/-- Every success that is newer than the last `initialize` or `stopPreview` of its camera is real,
and so is what the call has counted. -/
structure Counting (done : PreviewHistory) (mar : MAR) : Prop where
  entries : ∀ camera, mar.isPreviewingReady camera = some true →
    stoppedSince camera done = false → mar.Previewing done camera
  counted : ∀ camera ∈ mar.call.countedOK, mar.Previewing done camera
  tally : mar.call.Tally

namespace Counting

theorem start : Counting [] {} where
  entries := fun camera h => by cases h
  counted := fun camera h => by cases h
  tally := trivial

/-- A camera that the call has not counted is initialized or stopped. -/
theorem stop (h : Counting done mar) (hq : q.stops camera = true)
    (hother : ∀ c, c ≠ camera → q.stops c = false ∧ q.reportsOK c = false ∧
      mar'.cameras c = mar.cameras c ∧ mar'.isPreviewingReady c = mar.isPreviewingReady c)
    (hcall : mar'.call = mar.call) (hcounted : camera ∉ mar.call.countedOK) :
    Counting (⟨q, a⟩ :: done) mar' where
  entries := by
    intro c hready hsince
    by_cases hc : c = camera
    · subst hc
      rw [stoppedSince_of_stops hq] at hsince
      cases hsince
    · obtain ⟨hstops, hreports, hcameras, hsame⟩ := hother c hc
      rw [hsame] at hready
      rw [stoppedSince_of_other hstops hreports] at hsince
      exact (h.entries c hready hsince).mono hcameras hstops
  counted := by
    intro c hmem
    rw [hcall] at hmem
    have hc : c ≠ camera := fun hc => hcounted (hc ▸ hmem)
    obtain ⟨hstops, _, hcameras, _⟩ := hother c hc
    exact (h.counted c hmem).mono hcameras hstops
  tally := hcall ▸ h.tally

/-- The call goes on, and counts only what is real. -/
theorem advance (h : Counting done mar)
    (hq : ∀ c, q.stops c = false ∧ q.reportsOK c = false)
    (hcameras : mar'.cameras = mar.cameras)
    (hready : mar'.isPreviewingReady = mar.isPreviewingReady)
    (hcounted : ∀ c ∈ mar'.call.countedOK, c ∈ mar.call.countedOK ∨
      (mar.isPreviewingReady c = some true ∧ stoppedSince c done = false))
    (htally : mar'.call.Tally) : Counting (⟨q, a⟩ :: done) mar' where
  entries := by
    intro c hc hsince
    rw [hready] at hc
    rw [stoppedSince_of_other (hq c).1 (hq c).2] at hsince
    exact (h.entries c hc hsince).mono (congrFun hcameras c) (hq c).1
  counted := by
    intro c hmem
    have hreal : mar.Previewing done c := by
      obtain hold | ⟨hc, hsince⟩ := hcounted c hmem
      · exact h.counted c hold
      · exact h.entries c hc hsince
    exact hreal.mono (congrFun hcameras c) (hq c).1
  tally := htally

theorem stage_report (hs : stage camera object done ≠ .stopped) :
    stage camera object (⟨.onPreviewResult camera object true, .quiet⟩ :: done) =
      .previewing := by
  have hstops : (MARRequest.onPreviewResult camera object true).stops camera = false := by
    simp [MARRequest.stops]
  unfold stage
  rw [if_neg (by rw [hstops]; decide), if_neg (by simp), if_pos rfl]
  cases h : stage camera object done with
  | stopped => exact absurd h hs
  | started => rfl
  | previewing => rfl

/-- Success is reported by the current object. -/
theorem report (h : Counting done mar) (hobject : mar.cameras camera = some object)
    (hs : stage camera object done ≠ .stopped) :
    Counting (⟨.onPreviewResult camera object true, .quiet⟩ :: done)
      (mar.onPreviewResult camera true) where
  entries := by
    intro c hready hsince
    by_cases hc : c = camera
    · subst hc
      exact ⟨object, hobject, stage_report hs⟩
    · have hstops : (MARRequest.onPreviewResult camera object true).stops c = false := by
        simp [MARRequest.stops]
      have hreports : (MARRequest.onPreviewResult camera object true).reportsOK c = false := by
        simp [MARRequest.reportsOK, Ne.symm hc]
      rw [stoppedSince_of_other hstops hreports] at hsince
      have hold : mar.isPreviewingReady c = some true := by
        rw [← hready]
        exact (Table.assign_of_ne _ _ hc).symm
      exact (h.entries c hold hsince).mono rfl hstops
  counted := by
    intro c hmem
    have hstops : (MARRequest.onPreviewResult camera object true).stops c = false := by
      simp [MARRequest.stops]
    exact (h.counted c hmem).mono rfl hstops
  tally := h.tally

theorem step (h : Counting done mar) (hok : mar.CountsCurrent done q)
    (hq : respond q mar = some (a, mar')) : Counting (⟨q, a⟩ :: done) mar' := by
  cases q with
  | initializeCamera camera opens isRearFacing =>
      cases hq
      obtain ⟨hcameras, hready, hcall⟩ := initializeCamera_other mar camera opens isRearFacing
      refine h.stop (by simp [MARRequest.stops]) (fun c hc => ?_) hcall hok
      exact ⟨by simp [MARRequest.stops, Ne.symm hc], rfl, hcameras c hc, congrFun hready c⟩
  | stopPreview camera =>
      cases hq
      obtain ⟨hcameras, hready, hcall⟩ := stopPreview_other mar camera
      refine h.stop (by simp [MARRequest.stops]) (fun c hc => ?_) hcall hok
      exact ⟨by simp [MARRequest.stops, Ne.symm hc], rfl, congrFun hcameras c, congrFun hready c⟩
  | onPreviewResult camera object isOK =>
      cases hq
      cases isOK with
      | true => exact h.report hok.1 hok.2
      | false =>
          obtain ⟨hcameras, hready, hcall⟩ := stopPreview_other
            { mar with isPreviewingReady := mar.isPreviewingReady.assign camera false } camera
          refine h.stop (by simp [MARRequest.stops]) (fun c hc => ?_) hcall hok
          refine ⟨by simp [MARRequest.stops, Ne.symm hc], by simp [MARRequest.reportsOK],
            congrFun hcameras c, ?_⟩
          exact (congrFun hready c).trans (Table.assign_of_ne _ _ hc)
  | startPreview cameraSizes =>
      have hmar : (mar.startPreview cameraSizes).2 = mar' := congrArg Prod.snd (Option.some.inj hq)
      subst hmar
      unfold startPreview
      split_ifs with hall
      · exact h.advance (fun _ => ⟨rfl, rfl⟩) rfl rfl (fun c hmem => by cases hmem) trivial
      · exact h.advance (fun _ => ⟨rfl, rfl⟩) rfl rfl (fun c hmem => Or.inl hmem) h.tally
  | step late =>
      have hmar : (mar.step late).2 = mar' := congrArg Prod.snd (Option.some.inj hq)
      subst hmar
      obtain ⟨hcameras, hready, hcall⟩ := callStep mar late
      refine h.advance (fun _ => ⟨rfl, rfl⟩) hcameras hready (fun c hmem => ?_)
        (hcall.tally h.tally)
      obtain hold | ⟨hnext, htrue⟩ := hcall.counted h.tally hmem
      · exact Or.inl hold
      · exact Or.inr ⟨htrue, hok c hnext htrue⟩

end Counting

/-- When `startPreview` returns `true`, every camera that it was called for is previewing. -/
theorem preview_start_is_real (done : PreviewHistory) (mar mar' : MAR) (late : Bool)
    (badCameras : List CameraId)
    (h : Session respond (fun done mar q => mar.Delivers done q ∧ mar.CountsCurrent done q)
      {} done mar)
    (hreturn : mar.step late = (.returned true badCameras, mar')) :
    ∀ camera ∈ mar.call.cameraSizes, mar'.Previewing done camera := by
  have hcounting : Counting done mar := by
    apply h.invariant Counting.start
    intro done mar q a mar' hI hok hq
    exact hI.step hok.2 hq
  intro camera hcamera
  obtain ⟨hcameras, _, hcall⟩ := callStep mar late
  rw [hreturn] at hcameras hcall
  obtain ⟨object, hobject, hstage⟩ :=
    hcounting.counted camera (hcall.returned hcounting.tally hcamera)
  exact ⟨object, (congrFun hcameras camera).trans hobject, hstage⟩

/-- A camera that reports success while `startPreview` waits. -/
theorem preview_start_is_real_first :
    ∃ (done : PreviewHistory) (mar mar' : MAR), mar.step false = (.returned true [], mar') ∧
      mar.call.cameraSizes = [1] ∧
        ∀ camera ∈ mar.call.cameraSizes, mar'.Previewing done camera := by
  have hrun : (Session.replay respond
      (fun done mar q => mar.Delivers done q ∧ mar.CountsCurrent done q)
      [.initializeCamera 1 true true, .startPreview [1], .step false, .step false,
        .onPreviewResult 1 0 true, .step false] [] {}).any
      (fun s => (s.2.step false).1 = .returned true [] ∧ s.2.call.cameraSizes = [1]) =
        true := by decide
  obtain ⟨⟨done, mar⟩, hs, hres⟩ := (Option.any_eq_true _ _).mp hrun
  obtain ⟨hevent, hsizes⟩ := of_decide_eq_true hres
  have hreturn : mar.step false = (.returned true [], (mar.step false).2) := by rw [← hevent]
  exact ⟨done, mar, (mar.step false).2, hreturn, hsizes,
    preview_start_is_real done mar _ false [] (Session.of_replay _ .start hs) hreturn⟩

/-- A camera that was stopped after its first start is not started again, and its old result is
counted. -/
theorem stopped_camera_counts :
    ¬∀ (done : PreviewHistory) (mar mar' : MAR) (late : Bool) (badCameras : List CameraId),
      Session respond (fun done mar q => mar.Delivers done q) {} done mar →
      mar.step late = (.returned true badCameras, mar') →
      ∀ camera ∈ mar.call.cameraSizes, mar'.Previewing done camera := by
  intro h
  have hrun : (Session.replay respond (fun done mar q => mar.Delivers done q)
      [.initializeCamera 1 true true, .startPreview [1], .step false, .step false,
        .onPreviewResult 1 0 true, .step false, .step false, .stopPreview 1,
        .startPreview [1], .step false, .step false, .step false] [] {}).any
      (fun s => (s.2.step false).1 = .returned true [] ∧ s.2.call.cameraSizes = [1] ∧
        (s.2.step false).2.cameras 1 = some 0 ∧ stage 1 0 s.1 = .stopped) = true := by decide
  obtain ⟨⟨done, mar⟩, hs, hres⟩ := (Option.any_eq_true _ _).mp hrun
  obtain ⟨hevent, hsizes, hobject, hstage⟩ := of_decide_eq_true hres
  have hreturn : mar.step false = (.returned true [], (mar.step false).2) := by rw [← hevent]
  have hmem : 1 ∈ mar.call.cameraSizes := by rw [hsizes]; exact List.mem_singleton_self 1
  obtain ⟨object, hcamera, hpreviewing⟩ :=
    h done mar _ false [] (Session.of_replay _ .start hs) hreturn 1 hmem
  rw [hobject] at hcamera
  cases hcamera
  rw [hstage] at hpreviewing
  cases hpreviewing

end MAR

end ARArch

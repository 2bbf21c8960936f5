import ARArch.RendererSteps

/-!
# The destructor behind `create`

Wherever `create` ends, the destructor of the renderer runs next. The allocator is destroyed behind
its device, and the functions that destroy the instance leave its handle in the renderer; so only
some of the failures in front of the allocator are safe.
-/

namespace ARArch.VulkanRenderer

open Attempt

variable {a : DriverAnswers} {p : Platform} {r s t : VulkanRenderer} {o : Handles}
  {h d al : Handle} {i report surface : Option Handle}

/-- No handle is destroyed twice or behind its owner or used behind its destruction, each index is
in bounds, and `debug_report` has a value where it is read. -/
def TeardownSafe (p : Platform) (a : DriverAnswers) : Prop :=
  (createAndDelete p a).objects.faults = []

/-- Where the destructor reads `debug_report`, `setup_debug_callback` has stored it. -/
def DebugReportStored (p : Platform) (a : DriverAnswers) : Prop :=
  p.debug = true → p.destroyDebugReportFunction = true →
    a.createDebugReportFunction = true ∧ a.createDebugReport = .success

/-- `create_surface` succeeds. -/
def SurfaceCreated (a : DriverAnswers) : Prop :=
  a.createSurfaceFunction = true ∧ a.createSurface = .success

/-- `get_physical_device` succeeds. -/
structure DeviceFound (a : DriverAnswers) : Prop where
  count : a.enumerateCount = .success ∧ a.deviceCount ≠ 0
  devices : a.enumerateDevices = .success ∧ a.devicesWritten ≠ 0
  formats : a.deviceFormats ≠ 0

def HasQueueFamily (a : DriverAnswers) : Prop :=
  ∃ family ∈ a.queueFamilies, family.queueCount ≠ 0 ∧ family.graphicsAndCompute = true

/-- `create` fails at the assets, at the instance, at the function for the surface, at the queue
families or at the device. -/
def SafeFailure (p : Platform) (a : DriverAnswers) : Prop :=
  a.isAssetDir = false ∨ a.createInstance ≠ .success ∨
    (a.createSurfaceFunction = false ∧ DebugReportStored p a) ∨
    (SurfaceCreated a ∧ DeviceFound a ∧ (¬HasQueueFamily a ∨ a.createDevice ≠ .success))

/-! ### What the destructor destroys last -/

theorem destroyDebugReport_keeps : Keeps r (destroyDebugReport p r) := by
  have huse : Keeps r (r.use r.vkInstance) := rebuilds_use.1
  unfold destroyDebugReport
  split
  · dsimp only
    split
    · have hlog : r.objects ≤ ((r.use r.vkInstance).objects.log .indeterminate) :=
        huse.1.trans Handles.le_log
      have hdestroy : r.objects ≤ ((r.use r.vkInstance).objects.use r.vkInstance) :=
        huse.1.trans Handles.le_use
      split
      · exact ⟨hlog, huse.2⟩
      · exact ⟨hdestroy.trans Handles.le_destroy, huse.2⟩
    · exact huse
  · exact refl_of Keeps r

/-- The device goes first, then its instance, and the allocator last. -/
theorem delete_objects_eq : (delete p r).objects =
    (((destroyDebugReport p r.destroyRenderPart).objects.destroy r.device).destroy
      r.vkInstance).destroy r.vmaAllocator := by
  have hkeep : Keeps r (destroyDebugReport p r.destroyRenderPart) :=
    trans_of Keeps destroyRenderPart_rebuilds.1 destroyDebugReport_keeps
  rw [← hkeep.2.1, ← hkeep.2.2.1, ← hkeep.2.2.2]
  rfl

theorem delete_objects : ∃ o, r.objects ≤ o ∧ (delete p r).objects =
    ((o.destroy r.device).destroy r.vkInstance).destroy r.vmaAllocator := by
  refine ⟨_, ?_, delete_objects_eq⟩
  exact (trans_of Keeps destroyRenderPart_rebuilds.1 destroyDebugReport_keeps).1

theorem objects_le_delete : r.objects ≤ (delete p r).objects := by
  obtain ⟨o, hle, hdelete⟩ := delete_objects (p := p) (r := r)
  rw [hdelete]
  exact hle.trans (Handles.le_destroy.trans (Handles.le_destroy.trans Handles.le_destroy))

theorem faults_delete_of_instance (hi : r.vkInstance = some h) (hdead : r.objects.Dead h) :
    (delete p r).objects.faults ≠ [] := by
  obtain ⟨o, hle, hdelete⟩ := delete_objects (p := p) (r := r)
  rw [hdelete, hi]
  have hdead' : (o.destroy r.device).Dead h := hdead.mono (hle.trans Handles.le_destroy)
  exact Handles.faults_ne_nil_mono (Handles.faults_destroy_of_dead hdead') Handles.le_destroy

theorem faults_delete_of_device (hd : r.device = some d) (hdead : r.objects.Dead d) :
    (delete p r).objects.faults ≠ [] := by
  obtain ⟨o, hle, hdelete⟩ := delete_objects (p := p) (r := r)
  rw [hdelete, hd]
  have hfault := Handles.faults_destroy_of_dead (hdead.mono hle)
  exact Handles.faults_ne_nil_mono hfault (Handles.le_destroy.trans Handles.le_destroy)

/-- The renderer has its allocator, and with it the device that the allocator belongs to. -/
def HasAllocator (r : VulkanRenderer) : Prop :=
  ∃ d al, r.device = some d ∧ r.vmaAllocator = some al ∧ d.id ∈ al.lineage

theorem HasAllocator.of_keeps (hr : HasAllocator r) (hkeep : Keeps r t) : HasAllocator t := by
  obtain ⟨d, al, hd, hal, hmem⟩ := hr
  exact ⟨d, al, hkeep.2.2.1.trans hd, hkeep.2.2.2.trans hal, hmem⟩

theorem faults_delete_of_hasAllocator (hr : HasAllocator r) :
    (delete p r).objects.faults ≠ [] := by
  obtain ⟨d, al, hd, hal, hmem⟩ := hr
  obtain ⟨o, -, hdelete⟩ := delete_objects (p := p) (r := r)
  rw [hdelete, hd, hal]
  have hdead : (o.destroy (some d)).Dead al := Handles.dead_destroy hmem
  exact Handles.faults_destroy_of_dead (hdead.mono Handles.le_destroy)

/-! ### Behind the device -/

theorem createAllocator_hasAllocator (hd : r.device = some d) :
    HasAllocator (createAllocator a r).2 := by
  rw [createAllocator, all_result_snd]
  refine ⟨d, _, hd, rfl, ?_⟩
  have howner : d.id ∈ Handle.ownersBelow r.device := by
    rw [hd]
    exact Handle.id_mem_lineage
  exact List.mem_cons_of_mem _ howner

/-- Once the device is there, `create` ends with an allocator to destroy or with a fault. -/
theorem faults_of_device (hd : r.device = some d) :
    (delete p (Attempt.all ((renderSteps a).map fun step => step.onFailure (destroy p false))
      r).2).objects.faults ≠ [] := by
  have hallocator := createAllocator_hasAllocator (a := a) hd
  have htail : ∀ step ∈ (renderSteps a).tail, ∀ s, HasAllocator s → HasAllocator (step s).2 :=
    fun step hstep s hs => hs.of_keeps (renderSteps_keeps step hstep s)
  have hdestroy : ∀ s, HasAllocator s → (destroy p false s).objects.faults ≠ [] :=
    fun s hs => faults_delete_of_hasAllocator hs
  have hsteps : renderSteps a = createAllocator a :: (renderSteps a).tail := rfl
  rw [hsteps, List.map_cons, all]
  cases hcreated : createAllocator a r with
  | mk created s =>
    cases created with
    | true =>
      rw [hcreated] at hallocator
      have hfirst : ((createAllocator a).onFailure (destroy p false)) r = (true, s) := by
        rw [onFailure, hcreated]
      rw [andThen_of_true hfirst]
      have hrest := all_onFailure (J := fun s => s.objects.faults ≠ []) htail hdestroy hallocator
      dsimp only at hrest
      split at hrest
      · exact faults_delete_of_hasAllocator hrest
      · exact Handles.faults_ne_nil_mono hrest objects_le_delete
    | false =>
      rw [hcreated] at hallocator
      have hfirst : ((createAllocator a).onFailure (destroy p false)) r =
          (false, destroy p false s) := by
        rw [onFailure, hcreated]
      rw [andThen_of_false hfirst]
      exact Handles.faults_ne_nil_mono (hdestroy s hallocator) objects_le_delete

/-! ### Up to the device -/

/-- The renderer while nothing but its instance, its callback and its surface exist. -/
def early (vkInstance report surface : Option Handle) (objects : Handles) : VulkanRenderer :=
  { objects, vkInstance, debugReport := report, surface }

def firstInstance : Handle := { id := 0, owners := [] }

def firstReport : Handle := { id := 1, owners := [0] }

theorem destroyHandles_early :
    (early i report surface o).destroyHandles = early i report surface o := by
  apply foldl_eq_self
  intro step hstep
  simp only [destroyHandleSteps, List.mem_cons, List.not_mem_nil, or_false] at hstep
  obtain rfl | rfl | rfl | rfl | rfl | rfl | rfl | rfl | rfl | rfl | rfl := hstep
  all_goals rfl

/-- There is nothing yet that `destroy(true)` would destroy. -/
theorem destroyRenderPart_early :
    (early i report surface o).destroyRenderPart = early i report surface o := by
  rw [destroyRenderPart, destroyHandles_early]
  rfl

theorem delete_early : (delete p (early i report surface o)).objects =
    (destroyDebugReport p (early i report surface o)).objects.destroy i := by
  rw [delete_objects_eq, destroyRenderPart_early]
  rfl

theorem faults_delete_early_none :
    (delete p (early none report surface o)).objects.faults = o.faults := by
  rw [delete_early]
  obtain ⟨debug, function⟩ := p
  cases debug <;> rfl

theorem faults_delete_early_iff (ho : o.Untouched)
    (hreport : report = none ∨ report = some firstReport) :
    (delete p (early (some firstInstance) report surface o)).objects.faults = [] ↔
      (p.debug = true → p.destroyDebugReportFunction = true → report.isSome = true) := by
  have hinstance : (o.destroy (some firstInstance)).faults = [] := by
    rw [Handles.faults_destroy_of_not_dead ho.not_dead, ho.2]
  have huse : (o.use (some firstInstance)) = o := ho.use_eq
  rw [delete_early]
  obtain ⟨debug, function⟩ := p
  cases debug with
  | false => simpa [destroyDebugReport, early] using hinstance
  | true =>
    cases function with
    | false => simpa [destroyDebugReport, early, use, huse] using hinstance
    | true =>
      obtain rfl | rfl := hreport
      · simp [destroyDebugReport, early, use, huse, Handles.destroy, Handles.log]
      · have hdead : ¬(o.destroy (some firstReport)).Dead firstInstance := by
          simp [Handles.Dead, Handles.destroy, Handle.lineage, ho.1, firstInstance, firstReport]
        have hboth : ((o.destroy (some firstReport)).destroy (some firstInstance)).faults = [] := by
          rw [Handles.faults_destroy_of_not_dead hdead,
            Handles.faults_destroy_of_not_dead ho.not_dead, ho.2]
        simpa [destroyDebugReport, early, use, huse] using hboth

theorem createInstance_early (hcreate : a.createInstance = .success) : ∃ report o,
    createInstance p a {} = (true, early (some firstInstance) report none o) ∧ o.Untouched ∧
      (report = none ∨ report = some firstReport) ∧
      (report.isSome = true ↔ p.debug = true ∧ a.createDebugReportFunction = true ∧
        a.createDebugReport = .success) := by
  have hfirst : createInstance p a {} =
      (true, setupDebugCallback p a (early (some firstInstance) none none { next := 1 })) := by
    simp only [createInstance, all, andThen, vkCreate, if_pos hcreate]
    rfl
  rw [hfirst]
  by_cases hset : p.debug = true ∧ a.createDebugReportFunction = true ∧
      a.createDebugReport = .success
  · refine ⟨some firstReport, { next := 2 }, ?_, ⟨rfl, rfl⟩, .inr rfl, by simp [hset]⟩
    obtain ⟨hdebug, hfunction, hreport⟩ := hset
    simp only [setupDebugCallback, hdebug, hfunction, Bool.and_self, if_true, vkCreate,
      if_pos hreport]
    rfl
  · refine ⟨none, { next := 1 }, ?_, ⟨rfl, rfl⟩, .inl rfl, by simp [hset]⟩
    unfold setupDebugCallback
    split
    case isTrue hcall =>
      obtain ⟨hdebug, hfunction⟩ := Bool.and_eq_true_iff.mp hcall
      have hreport : a.createDebugReport ≠ .success :=
        fun hreport => hset ⟨hdebug, hfunction, hreport⟩
      simp only [vkCreate, if_neg hreport]
      rfl
    case isFalse => rfl

theorem createSurface_missing (hfunction : a.createSurfaceFunction = false) :
    createSurface a r = (false, r) := by
  rw [createSurface, all, hfunction]
  rfl

theorem createSurface_failed (ho : o.Untouched) (hfunction : a.createSurfaceFunction = true)
    (hcreate : a.createSurface ≠ .success) :
    createSurface a (early i report none o) = (false, early i report none (o.destroy i)) := by
  have huse : o.use i = o := ho.use_eq
  simp only [createSurface, all, andThen, result, hfunction, onFailure, vkCreate, if_neg hcreate]
  simp only [early, use, huse, vkDestroyInstance]

theorem createSurface_early (ho : o.Untouched) (hcreate : SurfaceCreated a) :
    ∃ surface u, createSurface a (early i report none o) =
      (true, early i report (some surface) u) ∧ u.Untouched := by
  have huse : o.use i = o := ho.use_eq
  refine ⟨(o.create i).1, (o.create i).2, ?_, ho⟩
  simp only [createSurface, all, andThen, result, hcreate.1, onFailure, vkCreate,
    if_pos hcreate.2]
  simp only [early, use, huse, newObject]

theorem getPhysicalDevice_early (ho : o.Untouched) (hfound : DeviceFound a) :
    getPhysicalDevice a (early i report (some h) o) = (true, early i report (some h) o) := by
  have huse : o.use i = o := ho.use_eq
  simp [getPhysicalDevice, all, andThen, act, result, check, onFailure, hfound.count,
    hfound.devices, hfound.formats, early, use, huse]

theorem getPhysicalDevice_failed (ho : o.Untouched) (hfound : ¬DeviceFound a) :
    getPhysicalDevice a (early i report (some h) o) =
      (false, early i report (some h) (o.destroy i)) := by
  have huse : o.use i = o := ho.use_eq
  by_cases hcount : a.enumerateCount = .success ∧ a.deviceCount ≠ 0
  · have hfirst : (decide (a.enumerateCount = .success) && decide (a.deviceCount ≠ 0)) = true := by
      simpa using hcount
    by_cases hdevices : a.enumerateDevices = .success ∧ a.devicesWritten ≠ 0
    · have hformats : a.deviceFormats = 0 := by
        by_contra hformats
        exact hfound ⟨hcount, hdevices, hformats⟩
      simp [getPhysicalDevice, all, andThen, act, result, check, onFailure, hcount, hdevices,
        hformats, early, use, huse, vkDestroyInstance]
    · have hresult : (decide (a.enumerateDevices = .success) && decide (a.devicesWritten ≠ 0)) =
          false := by simpa using hdevices
      simp only [getPhysicalDevice, all, andThen, act, result, onFailure, hfirst, hresult]
      simp only [early, use, huse, vkDestroyInstance]
  · have hresult : (decide (a.enumerateCount = .success) && decide (a.deviceCount ≠ 0)) =
        false := by simpa using hcount
    simp only [getPhysicalDevice, all, andThen, act, result, onFailure, hresult]
    simp only [early, use, huse, vkDestroyInstance]

theorem getQueueFamilies_of_none (hfamily : ¬HasQueueFamily a) :
    getQueueFamilies a r = (false, r) := by
  have hany : (a.queueFamilies.any fun family =>
      family.queueCount ≠ 0 && family.graphicsAndCompute) = false := by
    simpa [HasQueueFamily] using hfamily
  rw [getQueueFamilies, hany, result]

theorem getQueueFamilies_of_some (hfamily : HasQueueFamily a) :
    getQueueFamilies a r = (true, r) := by
  have hany : (a.queueFamilies.any fun family =>
      family.queueCount ≠ 0 && family.graphicsAndCompute) = true := by
    simpa [HasQueueFamily] using hfamily
  rw [getQueueFamilies, hany, result]

theorem createLogicalDevice_failed (ho : o.Untouched) (hcreate : a.createDevice ≠ .success) :
    createLogicalDevice a (early i report surface o) = (false, early i report surface o) := by
  have huse : o.use i = o := ho.use_eq
  simp only [createLogicalDevice, all, andThen, vkCreate, if_neg hcreate, early, use, huse]

theorem getDeviceQueue_keeps {found : Bool}
    {store : Option Handle → VulkanRenderer → VulkanRenderer}
    (hstore : ∀ h r, Keeps r (store h r)) : Keeps r (getDeviceQueue found store r) := by
  have huse : Keeps r (r.use r.device) := rebuilds_use.1
  unfold getDeviceQueue
  dsimp only
  split
  · exact trans_of Keeps huse (trans_of Keeps rebuilds_newObject.1 (hstore _ _))
  · exact trans_of Keeps huse (hstore _ _)

theorem getQueues_keeps : Respects Keeps (getQueues a) := by
  refine respects_cons (fun r => getDeviceQueue_keeps fun _ r => refl_of Keeps r) ?_
  refine respects_cons (fun r => getDeviceQueue_keeps fun _ r => refl_of Keeps r) ?_
  refine respects_cons respects_check ?_
  exact respects_nil

/-- A device stays behind `create_logical_device` even when one of its queues is missing. -/
theorem createLogicalDevice_device (hi : r.vkInstance = some h)
    (hcreate : a.createDevice = .success) : ∃ d,
      (createLogicalDevice a r).2.device = some d ∧ h.id ∈ d.lineage ∧
        (createLogicalDevice a r).2.vkInstance = some h := by
  let created := (r.use r.vkInstance).newObject r.vkInstance
  have hdevice : vkCreate a.createDevice (·.vkInstance) (fun h r => { r with device := some h }) r =
      (true, { created.2 with device := some created.1 }) := by
    simp only [vkCreate, if_pos hcreate]
    rfl
  have hqueues : Respects Keeps (Attempt.all [getQueues a]) :=
    respects_cons getQueues_keeps respects_nil
  have howner : h.id ∈ Handle.ownersBelow r.vkInstance := by
    rw [hi]
    exact Handle.id_mem_lineage
  have hkeep := hqueues { created.2 with device := some created.1 }
  rw [createLogicalDevice, all, andThen_of_true hdevice]
  exact ⟨created.1, hkeep.2.2.1, List.mem_cons_of_mem _ howner, hkeep.2.1.trans hi⟩

/-! ### `create` and the destructor -/

theorem create_from_surface (hasset : a.isAssetDir = true) (hcreate : a.createInstance = .success) :
    ∃ report o, create p a {} = Attempt.all ((createSteps p a).drop 2)
        (early (some firstInstance) report none o) ∧ o.Untouched ∧
      (report = none ∨ report = some firstReport) ∧
      (report.isSome = true ↔ p.debug = true ∧ a.createDebugReportFunction = true ∧
        a.createDebugReport = .success) := by
  obtain ⟨report, o, hinstance, ho, hreport, hstored⟩ := createInstance_early (p := p) hcreate
  have hfirst : Attempt.result a.isAssetDir ({} : VulkanRenderer) = (true, {}) := by
    rw [result, hasset]
  have hdrop : create p a {} = Attempt.all ((createSteps p a).drop 2)
      (early (some firstInstance) report none o) :=
    (andThen_of_true hfirst).trans (andThen_of_true hinstance)
  exact ⟨report, o, hdrop, ho, hreport, hstored⟩

theorem create_from_queues (hasset : a.isAssetDir = true) (hcreate : a.createInstance = .success)
    (hsurface : SurfaceCreated a) (hfound : DeviceFound a) :
    ∃ report surface o, create p a {} = Attempt.all ((createSteps p a).drop 4)
      (early (some firstInstance) report (some surface) o) ∧ o.Untouched := by
  obtain ⟨report, o, hdrop, ho, -⟩ := create_from_surface (p := p) hasset hcreate
  obtain ⟨surface, u, hcreated, hu⟩ := createSurface_early (i := some firstInstance) ho hsurface
  have hphysical : getPhysicalDevice a (early (some firstInstance) report (some surface) u) =
      (true, early (some firstInstance) report (some surface) u) :=
    getPhysicalDevice_early hu hfound
  refine ⟨report, surface, u, ?_, hu⟩
  exact hdrop.trans ((andThen_of_true hcreated).trans (andThen_of_true hphysical))

theorem safe_of_no_assets (hasset : a.isAssetDir = false) : TeardownSafe p a := by
  have hfirst : Attempt.result a.isAssetDir ({} : VulkanRenderer) = (false, {}) := by
    rw [result, hasset]
  have hcreate : create p a {} = (false, early none none none {}) := andThen_of_false hfirst
  rw [TeardownSafe, createAndDelete, hcreate]
  exact faults_delete_early_none

theorem safe_of_no_instance (hasset : a.isAssetDir = true) (hcreate : a.createInstance ≠ .success) :
    TeardownSafe p a := by
  have hfirst : Attempt.result a.isAssetDir ({} : VulkanRenderer) = (true, {}) := by
    rw [result, hasset]
  have hinstance : createInstance p a {} = (false, early none none none {}) := by
    simp only [createInstance, all, andThen, vkCreate, if_neg hcreate]
    rfl
  have hfailed : create p a {} = (false, early none none none {}) :=
    (andThen_of_true hfirst).trans (andThen_of_false hinstance)
  rw [TeardownSafe, createAndDelete, hfailed]
  exact faults_delete_early_none

theorem safe_iff_of_no_function (hasset : a.isAssetDir = true)
    (hcreate : a.createInstance = .success) (hfunction : a.createSurfaceFunction = false) :
    TeardownSafe p a ↔ DebugReportStored p a := by
  obtain ⟨report, o, hdrop, ho, hreport, hstored⟩ := create_from_surface (p := p) hasset hcreate
  have hfailed : create p a {} = (false, early (some firstInstance) report none o) :=
    hdrop.trans (andThen_of_false (createSurface_missing hfunction))
  rw [TeardownSafe, createAndDelete, hfailed, faults_delete_early_iff ho hreport, hstored]
  constructor
  · intro h hdebug hdestroy
    exact (h hdebug hdestroy).2
  · intro h hdebug hdestroy
    exact ⟨hdebug, h hdebug hdestroy⟩

theorem faults_delete_early_destroyed : (delete p
    (early (some h) report surface (o.destroy (some h)))).objects.faults ≠ [] :=
  faults_delete_of_instance rfl (Handles.dead_destroy Handle.id_mem_lineage)

/-- `create_surface` leaves the handle of the instance that it has destroyed. -/
theorem not_safe_of_surface (hasset : a.isAssetDir = true) (hcreate : a.createInstance = .success)
    (hfunction : a.createSurfaceFunction = true) (hsurface : a.createSurface ≠ .success) :
    ¬TeardownSafe p a := by
  obtain ⟨report, o, hdrop, ho, -⟩ := create_from_surface (p := p) hasset hcreate
  have hfailed := hdrop.trans (andThen_of_false (createSurface_failed ho hfunction hsurface))
  rw [TeardownSafe, createAndDelete, hfailed]
  exact faults_delete_early_destroyed

/-- So does `get_physical_device`. -/
theorem not_safe_of_physical_device (hasset : a.isAssetDir = true)
    (hcreate : a.createInstance = .success) (hsurface : SurfaceCreated a)
    (hfound : ¬DeviceFound a) : ¬TeardownSafe p a := by
  obtain ⟨report, o, hdrop, ho, -⟩ := create_from_surface (p := p) hasset hcreate
  obtain ⟨surface, u, hcreated, hu⟩ := createSurface_early (i := some firstInstance) ho hsurface
  have hfailed := hdrop.trans ((andThen_of_true hcreated).trans
    (andThen_of_false (getPhysicalDevice_failed hu hfound)))
  rw [TeardownSafe, createAndDelete, hfailed]
  exact faults_delete_early_destroyed

/-- Without the device, the instance is destroyed once and its handle is dropped. -/
theorem safe_of_no_device (hasset : a.isAssetDir = true) (hcreate : a.createInstance = .success)
    (hsurface : SurfaceCreated a) (hfound : DeviceFound a)
    (hdevice : ¬HasQueueFamily a ∨ a.createDevice ≠ .success) : TeardownSafe p a := by
  obtain ⟨report, surface, o, hdrop, ho⟩ :=
    create_from_queues (p := p) hasset hcreate hsurface hfound
  have hdestroyed : create p a {} =
      (false, early none report (some surface) (o.destroy (some firstInstance))) := by
    by_cases hfamily : HasQueueFamily a
    · have hqueues : (getQueueFamilies a).onFailure destroyInstance
          (early (some firstInstance) report (some surface) o) =
          (true, early (some firstInstance) report (some surface) o) := by
        rw [onFailure, getQueueFamilies_of_some hfamily]
      have hfailed : (createLogicalDevice a).onFailure destroyInstance
          (early (some firstInstance) report (some surface) o) =
          (false, early none report (some surface) (o.destroy (some firstInstance))) := by
        rw [onFailure, createLogicalDevice_failed ho (hdevice.resolve_left (not_not_intro hfamily))]
        rfl
      exact hdrop.trans ((andThen_of_true hqueues).trans (andThen_of_false hfailed))
    · have hfailed : (getQueueFamilies a).onFailure destroyInstance
          (early (some firstInstance) report (some surface) o) =
          (false, early none report (some surface) (o.destroy (some firstInstance))) := by
        rw [onFailure, getQueueFamilies_of_none hfamily]
        rfl
      exact hdrop.trans (andThen_of_false hfailed)
  rw [TeardownSafe, createAndDelete, hdestroyed, faults_delete_early_none,
    Handles.faults_destroy_of_not_dead ho.not_dead, ho.2]

/-- A device without its queues outlives its instance; with them the allocator comes next. -/
theorem not_safe_of_device (hasset : a.isAssetDir = true) (hcreate : a.createInstance = .success)
    (hsurface : SurfaceCreated a) (hfound : DeviceFound a) (hfamily : HasQueueFamily a)
    (hdevice : a.createDevice = .success) : ¬TeardownSafe p a := by
  obtain ⟨report, surface, o, hdrop, ho⟩ :=
    create_from_queues (p := p) hasset hcreate hsurface hfound
  have hqueues : (getQueueFamilies a).onFailure destroyInstance
      (early (some firstInstance) report (some surface) o) =
      (true, early (some firstInstance) report (some surface) o) := by
    rw [onFailure, getQueueFamilies_of_some hfamily]
  obtain ⟨d, hd, howner, hinstance⟩ := createLogicalDevice_device (a := a)
    (r := early (some firstInstance) report (some surface) o) rfl hdevice
  have hrest := hdrop.trans (andThen_of_true hqueues)
  cases hcreated : createLogicalDevice a (early (some firstInstance) report (some surface) o) with
  | mk created s =>
    cases created with
    | true =>
      rw [hcreated] at hd
      have hlast : (createLogicalDevice a).onFailure destroyInstance
          (early (some firstInstance) report (some surface) o) = (true, s) := by
        rw [onFailure, hcreated]
      rw [TeardownSafe, createAndDelete, hrest.trans (andThen_of_true hlast)]
      exact faults_of_device hd
    | false =>
      rw [hcreated] at hd hinstance
      have hlast : (createLogicalDevice a).onFailure destroyInstance
          (early (some firstInstance) report (some surface) o) = (false, destroyInstance s) := by
        rw [onFailure, hcreated]
      have hdead : (destroyInstance s).objects.Dead d := by
        have hdestroyed : (destroyInstance s).objects = s.objects.destroy (some firstInstance) := by
          rw [← hinstance]
          rfl
        rw [hdestroyed]
        exact Handles.dead_destroy howner
      rw [TeardownSafe, createAndDelete, hrest.trans (andThen_of_false hlast)]
      exact faults_delete_of_device hd hdead

/-- The destructor is safe exactly behind the failures in front of the device that leave no handle
of a destroyed instance. -/
theorem teardownSafe_iff (p : Platform) (a : DriverAnswers) :
    TeardownSafe p a ↔ SafeFailure p a := by
  unfold SafeFailure
  cases hasset : a.isAssetDir with
  | false => simp [safe_of_no_assets hasset]
  | true =>
    by_cases hcreate : a.createInstance = .success
    · cases hfunction : a.createSurfaceFunction with
      | false =>
        have hsurface : ¬SurfaceCreated a := by simp [SurfaceCreated, hfunction]
        simp [safe_iff_of_no_function hasset hcreate hfunction, hcreate, hsurface]
      | true =>
        by_cases hsurface : a.createSurface = .success
        · have hcreated : SurfaceCreated a := ⟨hfunction, hsurface⟩
          by_cases hfound : DeviceFound a
          · by_cases hdevice : ¬HasQueueFamily a ∨ a.createDevice ≠ .success
            · simp [safe_of_no_device hasset hcreate hcreated hfound hdevice, hcreated, hfound,
                hdevice]
            · have hboth : HasQueueFamily a ∧ a.createDevice = .success := by
                simpa only [not_or, not_not] using hdevice
              have hfault := not_safe_of_device (p := p) hasset hcreate hcreated hfound hboth.1
                hboth.2
              simp [hfault, hcreate, hboth]
          · simp [not_safe_of_physical_device hasset hcreate hcreated hfound, hcreate, hfound]
        · have hcreated : ¬SurfaceCreated a := fun h => hsurface h.2
          simp [not_safe_of_surface hasset hcreate hfunction hsurface, hcreate, hcreated]
    · simp [safe_of_no_instance hasset hcreate, hcreate]

def singleCommandOfSuccess : SingleCommand := ⟨.success, .success, .success, .success⟩

/-- Every call succeeds, and the swapchain has this number of images. -/
def answersOfSuccess (imageCount : ℕ) : DriverAnswers where
  isAssetDir := true
  createInstance := .success
  createDebugReportFunction := true
  createDebugReport := .success
  createSurfaceFunction := true
  createSurface := .success
  enumerateCount := .success
  deviceCount := 1
  enumerateDevices := .success
  devicesWritten := 1
  deviceFormats := 1
  queueFamilies := [{ queueCount := 1, graphicsAndCompute := true }]
  createDevice := .success
  graphicsQueue := true
  presentQueue := true
  initAllocator := .success
  surfaceCapabilities := .success
  surfaceFormats := 1
  matchingFormat := true
  createSwapchain := .success
  imageCount := imageCount
  sampledImages := true
  depthFormat := true
  createDepthImage := .success
  createDepthView := .success
  createRenderPass := .success
  getSwapchainImages := .success
  createView _ := .success
  createFramebuffer _ := .success
  createCommandPool := .success
  allocateCommandBuffer _ := .success
  createFence _ := .success
  createFrameAvailable _ := .success
  createRenderComplete _ := .success
  createSampler := .success
  createSetLayout := .success
  createDescriptorPool := .success
  allocateDescriptorSet := .success
  createTextureImage := .success
  createTextureView := .success
  createStagingVertexBuffer := .success
  createVertexBuffer := .success
  vertexCopy := singleCommandOfSuccess
  vertexShader := ⟨true, .success⟩
  fragmentShader := ⟨true, .success⟩
  createPipelineLayout := .success
  createPipeline := .success
  beginRecording _ := .success

/-- Not even the destructor behind a successful `create` is safe: the allocator goes last. -/
theorem successful_create_not_safe : ¬TeardownSafe ⟨false, false⟩ (answersOfSuccess 3) := by
  have hfamily : HasQueueFamily (answersOfSuccess 3) := ⟨_, List.mem_cons_self, by decide⟩
  have hfound : DeviceFound (answersOfSuccess 3) := ⟨by decide, by decide, by decide⟩
  exact not_safe_of_device rfl rfl ⟨rfl, rfl⟩ hfound hfamily rfl

end ARArch.VulkanRenderer

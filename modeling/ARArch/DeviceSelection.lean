import ARArch.PriorityQueue
import ARArch.VulkanTools
import Mathlib.Data.Nat.Basic
import Mathlib.Tactic.Common

/-!
# The selection of a physical device

`VulkanRenderer::select_device` gives each device that can present to the surface a priority, where
a smaller number is better, and takes the top of a priority queue. The comparison of the queue is
`left.first < right.first`, with which the greatest number is at the top. Besides, each turn of its
loop asks for the properties of the member `physical_device`, which `get_physical_device` assigns
only when the selection has returned.
-/

namespace ARArch

inductive PhysicalDeviceType
  | other
  | integratedGpu
  | discreteGpu
  | virtualGpu
  | cpu
  deriving DecidableEq

/-- What the system answers for a queue family of a device. -/
structure QueueFamily where
  surfaceSupport : VkResult
  vok : Bool
  surfaceCapabilities : VkResult

/-- What the system answers for its devices; the two functions for surfaces may be missing. -/
structure DeviceAnswers (Device : Type) where
  hasSurfaceSupport : Bool
  hasSurfaceCapabilities : Bool
  deviceType : Device → PhysicalDeviceType
  queueFamilies : Device → List QueueFamily

variable {Device : Type} {sys : DeviceAnswers Device} {preferred : PhysicalDeviceType}
  {devices : List Device} {d r device : Device}

namespace DeviceAnswers

def isSurfaceOk (sys : DeviceAnswers Device) (d : Device) : Bool :=
  (sys.queueFamilies d).any fun family =>
    sys.hasSurfaceSupport && sys.hasSurfaceCapabilities &&
      decide (family.surfaceSupport = .success) && family.vok &&
      decide (family.surfaceCapabilities = .success)

/-- Discrete before integrated before all others. -/
def typeRank : PhysicalDeviceType → ℕ
  | .discreteGpu => 1
  | .integratedGpu => 2
  | _ => 3

def priority (sys : DeviceAnswers Device) (preferred : PhysicalDeviceType) (d : Device) : ℕ :=
  if sys.deviceType d = preferred then 0 else typeRank (sys.deviceType d)

abbrev SelectedDevices (Device : Type) := PriorityQueue (Prod.fst : ℕ × Device → ℕ)

/-- One turn of the loop of `VulkanRenderer::select_device`. `vkGetPhysicalDeviceProperties` does
not return when the member is `VK_NULL_HANDLE`. -/
def consider (sys : DeviceAnswers Device) (physicalDevice : Option Device)
    (preferred : PhysicalDeviceType) (selected : SelectedDevices Device) (d : Device) :
    Option (SelectedDevices Device) := do
  let _ ← physicalDevice
  if (sys.queueFamilies d).isEmpty then pure selected
  else if sys.isSurfaceOk d then pure (selected.push (sys.priority preferred d, d))
  else pure selected

def selectedDevices (sys : DeviceAnswers Device) (physicalDevice : Option Device)
    (preferred : PhysicalDeviceType) (devices : List Device) : Option (SelectedDevices Device) :=
  devices.foldlM (sys.consider physicalDevice preferred) PriorityQueue.empty

/-- `VulkanRenderer::select_device`, with what the member `physical_device` contains; `none`: it
does not return. -/
def selectDevice (sys : DeviceAnswers Device) (physicalDevice : Option Device)
    (preferred : PhysicalDeviceType) (devices : List Device) : Option Device := do
  let selected ← sys.selectedDevices physicalDevice preferred devices
  match selected.top with
  | none => devices.head?
  | some top => some top.2

/-- The choice of `VulkanRenderer::get_physical_device`. -/
def getPhysicalDevice (sys : DeviceAnswers Device) (physicalDevice : Option Device)
    (preferred : PhysicalDeviceType) : List Device → Option Device
  | [] => none
  | [d] => some d
  | d :: e :: devices => sys.selectDevice physicalDevice preferred (d :: e :: devices)

/-- The devices that can present to the surface. -/
def candidates (sys : DeviceAnswers Device) (devices : List Device) : List Device :=
  devices.filter sys.isSurfaceOk

/-- `r` is the best of the devices: a preferred one that supports the surface, or else one of the
best type among those that support it, or else the first. -/
structure Best (sys : DeviceAnswers Device) (preferred : PhysicalDeviceType)
    (devices : List Device) (r : Device) : Prop where
  preferred_of_any : (∃ d ∈ sys.candidates devices, sys.deviceType d = preferred) →
    r ∈ sys.candidates devices ∧ sys.deviceType r = preferred
  rank_le : (∀ d ∈ sys.candidates devices, sys.deviceType d ≠ preferred) →
    sys.candidates devices ≠ [] → r ∈ sys.candidates devices ∧
      ∀ d ∈ sys.candidates devices, typeRank (sys.deviceType r) ≤ typeRank (sys.deviceType d)
  first : sys.candidates devices = [] → devices.head? = some r

theorem isSurfaceOk_nil (h : sys.queueFamilies d = []) : sys.isSurfaceOk d = false := by
  rw [isSurfaceOk, h, List.any_nil]

/-- A turn that returns. -/
def considered (sys : DeviceAnswers Device) (preferred : PhysicalDeviceType)
    (selected : SelectedDevices Device) (d : Device) : SelectedDevices Device :=
  if sys.isSurfaceOk d then selected.push (sys.priority preferred d, d) else selected

theorem consider_of_device {selected : SelectedDevices Device} :
    sys.consider (some device) preferred selected d =
      some (sys.considered preferred selected d) := by
  change (if _ then _ else _) = _
  rw [considered]
  split
  · rename_i h
    rw [isSurfaceOk_nil (List.isEmpty_iff.mp h)]
    rfl
  · split <;> rfl

theorem selectedDevices_of_device :
    sys.selectedDevices (some device) preferred devices =
      some (devices.foldl (sys.considered preferred) PriorityQueue.empty) := by
  have hpure : sys.consider (some device) preferred =
      fun selected d => pure (sys.considered preferred selected d) := by
    funext selected d
    exact consider_of_device
  rw [selectedDevices, hpure, List.foldlM_pure]
  rfl

/-- With a null handle in the member the first turn does not return. -/
theorem selectDevice_of_null (first : Device) (rest : List Device) :
    sys.selectDevice none preferred (first :: rest) = none := rfl

/-- On a new renderer, whose member is null, a device is chosen only if it is the only one. -/
theorem getPhysicalDevice_of_null :
    sys.getPhysicalDevice none preferred devices = some d ↔ devices = [d] := by
  match devices with
  | [] => simp [getPhysicalDevice]
  | [e] => simp [getPhysicalDevice]
  | e :: f :: rest => simp [getPhysicalDevice, selectDevice_of_null]

theorem mem_foldl_admit {selected : SelectedDevices Device} {e : ℕ × Device} :
    e ∈ (devices.foldl (sys.considered preferred) selected).elements ↔
      e ∈ selected.elements ∨ ∃ d ∈ sys.candidates devices, e = (sys.priority preferred d, d) := by
  induction devices generalizing selected with
  | nil => simp [candidates]
  | cons d devices ih =>
    rw [List.foldl_cons, ih, considered]
    by_cases hd : sys.isSurfaceOk d = true
    · simp only [hd, if_true, PriorityQueue.mem_push, candidates, List.filter_cons_of_pos hd,
        List.mem_cons, exists_eq_or_imp]
      rw [or_assoc, or_left_comm]
    · rw [if_neg hd, candidates, candidates, List.filter_cons_of_neg hd]

/-- The queue holds the candidates with their priorities. -/
theorem mem_admitted {e : ℕ × Device} :
    e ∈ (devices.foldl (sys.considered preferred) PriorityQueue.empty).elements ↔
      ∃ d ∈ sys.candidates devices, e = (sys.priority preferred d, d) :=
  mem_foldl_admit.trans (or_iff_right List.not_mem_nil)

theorem selectDevice_of_none (h : sys.candidates devices = []) :
    sys.selectDevice (some device) preferred devices = devices.head? := by
  have htop : (devices.foldl (sys.considered preferred) PriorityQueue.empty).top = none := by
    rw [PriorityQueue.top_eq_none, List.eq_nil_iff_forall_not_mem]
    intro e he
    obtain ⟨d, hd, _⟩ := mem_admitted.mp he
    rw [h] at hd
    cases hd
  rw [selectDevice, selectedDevices_of_device]
  change (match (devices.foldl (sys.considered preferred) PriorityQueue.empty).top with
    | none => devices.head?
    | some top => some top.2) = devices.head?
  rw [htop]

/-- The queue gives the candidate with the greatest number. -/
theorem selectDevice_of_candidates (h : sys.candidates devices ≠ []) :
    ∃ r ∈ sys.candidates devices, sys.selectDevice (some device) preferred devices = some r ∧
      ∀ d ∈ sys.candidates devices, sys.priority preferred d ≤ sys.priority preferred r := by
  cases htop : (devices.foldl (sys.considered preferred) PriorityQueue.empty).top with
  | none =>
    rw [PriorityQueue.top_eq_none] at htop
    obtain ⟨d, hd⟩ := List.exists_mem_of_ne_nil _ h
    have hmem : (sys.priority preferred d, d) ∈
        (devices.foldl (sys.considered preferred) PriorityQueue.empty).elements :=
      mem_admitted.mpr ⟨d, hd, rfl⟩
    rw [htop] at hmem
    cases hmem
  | some top =>
    obtain ⟨r, hr, rfl⟩ := mem_admitted.mp (PriorityQueue.top_mem htop)
    refine ⟨r, hr, ?_, ?_⟩
    · rw [selectDevice, selectedDevices_of_device]
      change (match (devices.foldl (sys.considered preferred) PriorityQueue.empty).top with
        | none => devices.head?
        | some top => some top.2) = some r
      rw [htop]
    · intro d hd
      have hmem : (sys.priority preferred d, d) ∈
          (devices.foldl (sys.considered preferred) PriorityQueue.empty).elements :=
        mem_admitted.mpr ⟨d, hd, rfl⟩
      have hle := PriorityQueue.key_le_top htop hmem
      exact hle

theorem typeRank_pos {t : PhysicalDeviceType} : 0 < typeRank t := by
  cases t <;> decide

theorem priority_eq_zero_iff : sys.priority preferred d = 0 ↔ sys.deviceType d = preferred := by
  unfold priority
  split
  · exact iff_of_true rfl ‹_›
  · exact iff_of_false (Nat.ne_of_gt typeRank_pos) ‹_›

/-- The best device is one whose number is least. -/
theorem best_iff (h : sys.candidates devices ≠ []) :
    sys.Best preferred devices r ↔ r ∈ sys.candidates devices ∧
      ∀ d ∈ sys.candidates devices, sys.priority preferred r ≤ sys.priority preferred d := by
  constructor
  · intro hbest
    by_cases hany : ∃ d ∈ sys.candidates devices, sys.deviceType d = preferred
    · obtain ⟨hmem, htype⟩ := hbest.preferred_of_any hany
      refine ⟨hmem, fun d _ => ?_⟩
      rw [priority_eq_zero_iff.mpr htype]
      exact Nat.zero_le _
    · have hnone : ∀ d ∈ sys.candidates devices, sys.deviceType d ≠ preferred :=
        fun d hd htype => hany ⟨d, hd, htype⟩
      obtain ⟨hmem, hle⟩ := hbest.rank_le hnone h
      refine ⟨hmem, fun d hd => ?_⟩
      rw [priority, priority, if_neg (hnone r hmem), if_neg (hnone d hd)]
      exact hle d hd
  · rintro ⟨hmem, hle⟩
    refine ⟨?_, ?_, fun hnil => absurd hnil h⟩
    · rintro ⟨d, hd, htype⟩
      have hzero := hle d hd
      rw [priority_eq_zero_iff.mpr htype, Nat.le_zero, priority_eq_zero_iff] at hzero
      exact ⟨hmem, hzero⟩
    · intro hnone _
      refine ⟨hmem, fun d hd => ?_⟩
      have hd' := hle d hd
      rwa [priority, priority, if_neg (hnone r hmem), if_neg (hnone d hd)] at hd'

theorem best_of_none (h : sys.candidates devices = []) :
    sys.Best preferred devices r ↔ devices.head? = some r := by
  constructor
  · intro hbest
    exact hbest.first h
  · intro hhead
    refine ⟨?_, fun _ hne => absurd h hne, fun _ => hhead⟩
    rintro ⟨d, hd, _⟩
    rw [h] at hd
    cases hd

/-- All devices that can present to the surface have the same priority. -/
def SamePriority (sys : DeviceAnswers Device) (preferred : PhysicalDeviceType)
    (devices : List Device) : Prop :=
  ∀ d ∈ sys.candidates devices, ∀ e ∈ sys.candidates devices,
    sys.priority preferred d = sys.priority preferred e

/-- The best device is selected if and only if the member is not null, as it is when a new renderer
selects, and no device that can present to the surface is better than another. -/
theorem selectDevice_best_iff (sys : DeviceAnswers Device) (physicalDevice : Option Device)
    (preferred : PhysicalDeviceType) (first : Device) (rest : List Device) :
    (∃ r, sys.selectDevice physicalDevice preferred (first :: rest) = some r ∧
      sys.Best preferred (first :: rest) r) ↔
        physicalDevice ≠ none ∧ sys.SamePriority preferred (first :: rest) := by
  cases physicalDevice with
  | none =>
    refine iff_of_false ?_ (fun h => h.1 rfl)
    rintro ⟨r, hr, _⟩
    rw [selectDevice_of_null] at hr
    cases hr
  | some device =>
    rw [and_iff_right (Option.some_ne_none device)]
    by_cases h : sys.candidates (first :: rest) = []
    · refine iff_of_true ⟨first, selectDevice_of_none h, (best_of_none h).mpr rfl⟩ ?_
      intro d hd
      rw [h] at hd
      cases hd
    · obtain ⟨r, hr, hsel, hge⟩ := selectDevice_of_candidates h
      constructor
      · rintro ⟨s, hs, hbest⟩ d hd e he
        obtain rfl : r = s := Option.some.inj (hsel.symm.trans hs)
        obtain ⟨_, hle⟩ := (best_iff h).mp hbest
        have hd' := hge d hd
        have he' := hge e he
        have hd'' := hle d hd
        have he'' := hle e he
        omega
      · intro hsame
        exact ⟨r, hsel, (best_iff h).mpr ⟨hr, fun d hd => Nat.le_of_eq (hsame r hr d hd)⟩⟩

/-- A discrete and an integrated device, both of which can present to the surface. -/
def twoDevices : DeviceAnswers (Fin 2) where
  hasSurfaceSupport := true
  hasSurfaceCapabilities := true
  deviceType d := if d = 0 then .discreteGpu else .integratedGpu
  queueFamilies _ :=
    [{ surfaceSupport := .success, vok := true, surfaceCapabilities := .success }]

/-- On a new renderer the call does not return, and on one with a device the integrated one is
selected. -/
theorem integrated_before_discrete :
    (¬∃ r, twoDevices.selectDevice none .discreteGpu [0, 1] = some r ∧
      twoDevices.Best .discreteGpu [0, 1] r) ∧
    ¬∃ r, twoDevices.selectDevice (some 0) .discreteGpu [0, 1] = some r ∧
      twoDevices.Best .discreteGpu [0, 1] r := by
  constructor
  · rintro ⟨r, hsel, _⟩
    cases hsel
  · rintro ⟨r, hsel, hbest⟩
    have hone : twoDevices.selectDevice (some 0) .discreteGpu [0, 1] = some 1 := by decide
    obtain rfl : 1 = r := Option.some.inj (hone.symm.trans hsel)
    obtain ⟨_, htype⟩ := hbest.preferred_of_any ⟨0, by decide, rfl⟩
    exact absurd htype (by decide)

end DeviceAnswers

end ARArch

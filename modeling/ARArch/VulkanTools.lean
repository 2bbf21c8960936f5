import ARArch.ErasingLoop
import Mathlib.Tactic.Common

/-!
# Results and names of Vulkan

`VulkanTools::check_extensions` and `VulkanRenderer::debug_layers` erase the names that are not
supported from a list, both by a loop that leaves out the name behind an erased one.
-/

namespace ARArch

inductive VkResult
  | success
  | suboptimal
  | outOfDate
  | error
  deriving DecidableEq

variable {supported names missing : List String} {name ss : String}

def appendMissing (ss name : String) : String :=
  if ss = "" then ss ++ name else ss ++ ", " ++ name

structure CheckedExtensions where
  instanceExtensions : List String
  missingExts : String
  result : Bool

/-- `VulkanTools::check_extensions`, or `none` when the iterator moves past the end. -/
def checkExtensions (supported instanceExtensions : List String) : Option CheckedExtensions :=
  (erasingLoop supported.contains instanceExtensions).map fun r =>
    let missing := r.2.foldl appendMissing ""
    { instanceExtensions := r.1, missingExts := missing, result := missing = "" }

def debugLayerNames : List String :=
  ["VK_LAYER_GOOGLE_threading", "VK_LAYER_LUNARG_parameter_validation",
    "VK_LAYER_LUNARG_object_tracker", "VK_LAYER_LUNARG_core_validation",
    "VK_LAYER_GOOGLE_unique_objects"]

/-- `VulkanRenderer::debug_layers` with the layers that the enumeration gives, if it does. -/
def debugLayers : Option (List String) → Option (List String)
  | none => some []
  | some [] => some []
  | some (layer :: layers) =>
    (erasingLoop (layer :: layers).contains debugLayerNames).map Prod.fst

/-- All unsupported names are erased and reported. -/
def filteredExtensions (supported names : List String) : CheckedExtensions where
  instanceExtensions := names.filter supported.contains
  missingExts := ", ".intercalate (names.filter fun name => !supported.contains name)
  result := (names.filter fun name => !supported.contains name).isEmpty

/-- `check_extensions` filters out all that is not supported. -/
def ExtensionsFiltered (supported names : List String) : Prop :=
  checkExtensions supported names = some (filteredExtensions supported names)

/-- `debug_layers` filters out all that is not supported. -/
def LayersFiltered (layers : Option (List String)) : Prop :=
  debugLayers layers = some (debugLayerNames.filter (layers.getD []).contains)

theorem foldl_appendMissing (h : ss ≠ "") :
    missing.foldl appendMissing ss = ", ".intercalate (ss :: missing) := by
  induction missing generalizing ss with
  | nil => rw [List.foldl_nil, String.intercalate_singleton]
  | cons name missing ih =>
    have hne : ss ++ ", " ++ name ≠ "" := by simp [h]
    rw [List.foldl_cons, appendMissing, if_neg h, ih hne]
    rw [String.intercalate_cons_cons, String.intercalate_cons_append]

theorem appendMissing_empty : appendMissing "" name = name := by
  rw [appendMissing, if_pos rfl, String.empty_append]

/-- The text joins the names, unless it is still empty behind the first. -/
theorem foldl_appendMissing_empty (h : ∀ name ∈ missing.head?, name ≠ "") :
    missing.foldl appendMissing "" = ", ".intercalate missing := by
  cases missing with
  | nil => rfl
  | cons name missing =>
    rw [List.foldl_cons, appendMissing_empty]
    exact foldl_appendMissing (h name rfl)

theorem length_foldl_appendMissing :
    (missing.foldl appendMissing "").length ≤ (", ".intercalate missing).length := by
  induction missing with
  | nil => exact Nat.le_refl _
  | cons name missing ih =>
    by_cases hname : name = ""
    · subst name
      rw [List.foldl_cons, appendMissing_empty]
      cases missing with
      | nil => exact ih
      | cons next missing =>
        rw [String.intercalate_cons_cons, String.length_append]
        omega
    · have htext : (name :: missing).foldl appendMissing "" =
          ", ".intercalate (name :: missing) := by
        rw [List.foldl_cons, appendMissing_empty, foldl_appendMissing hname]
      exact Nat.le_of_eq (congrArg String.length htext)

theorem head_ne_empty
    (htext : missing.foldl appendMissing "" = ", ".intercalate missing)
    (hresult : missing.foldl appendMissing "" = "" ↔ missing = []) :
    ∀ name ∈ missing.head?, name ≠ "" := by
  intro name hname hempty
  subst name
  cases missing with
  | nil => cases hname
  | cons first missing =>
    obtain rfl : first = "" := Option.some.inj hname
    rw [List.foldl_cons, appendMissing_empty] at htext hresult
    cases missing with
    | nil => exact List.cons_ne_nil _ _ (hresult.mp rfl)
    | cons next missing =>
      have hle : ((next :: missing).foldl appendMissing "").length ≤
          (", ".intercalate (next :: missing)).length := length_foldl_appendMissing
      rw [htext, String.intercalate_cons_cons, String.length_append, String.length_append] at hle
      have hsep : ", ".length = 2 := rfl
      omega

theorem foldl_appendMissing_eq_empty (h : ∀ name ∈ missing.head?, name ≠ "") :
    missing.foldl appendMissing "" = "" ↔ missing = [] := by
  rw [foldl_appendMissing_empty h]
  cases missing with
  | nil => exact iff_of_true rfl rfl
  | cons name missing =>
    have hname : name ≠ "" := h name rfl
    refine iff_of_false ?_ (List.cons_ne_nil _ _)
    intro hempty
    cases missing with
    | nil => exact hname (String.intercalate_singleton.symm.trans hempty)
    | cons next missing =>
      rw [String.intercalate_cons_cons, String.append_eq_empty_iff, String.append_eq_empty_iff]
        at hempty
      exact hname hempty.1.1

/-- The first name that is not supported, if there is one, is not empty. -/
def FirstMissingNamed (supported names : List String) : Prop :=
  ∀ name ∈ (names.filter fun name => !supported.contains name).head?, name ≠ ""

theorem extensionsFiltered_iff :
    ExtensionsFiltered supported names ↔
      Followed supported.contains names ∧ FirstMissingNamed supported names := by
  constructor
  · intro h
    obtain ⟨r, hloop, hr⟩ := Option.map_eq_some_iff.mp h
    have hfollowed : Followed supported.contains names :=
      Followed.of_erasingLoop hloop (congrArg CheckedExtensions.instanceExtensions hr)
    rw [erasingLoop_of_followed hfollowed] at hloop
    obtain rfl := Option.some.inj hloop
    refine ⟨hfollowed, head_ne_empty (congrArg CheckedExtensions.missingExts hr) ?_⟩
    have hresult := congrArg CheckedExtensions.result hr
    rw [Bool.eq_iff_iff] at hresult
    exact decide_eq_true_iff.symm.trans (hresult.trans List.isEmpty_iff)
  · rintro ⟨hfollowed, hnamed⟩
    have htext := foldl_appendMissing_empty hnamed
    have hresult : decide ((names.filter fun name => !supported.contains name).foldl
        appendMissing "" = "") = (names.filter fun name => !supported.contains name).isEmpty := by
      rw [Bool.eq_iff_iff, decide_eq_true_iff, List.isEmpty_iff]
      exact foldl_appendMissing_eq_empty hnamed
    refine Option.map_eq_some_iff.mpr ⟨_, erasingLoop_of_followed hfollowed, ?_⟩
    exact congrArg₂ (CheckedExtensions.mk _) htext hresult

theorem layersFiltered_iff {layers : Option (List String)} :
    LayersFiltered layers ↔
      layers.getD [] = [] ∨ Followed (layers.getD []).contains debugLayerNames := by
  cases layers with
  | none => exact iff_of_true rfl (.inl rfl)
  | some layers =>
    cases layers with
    | nil => exact iff_of_true rfl (.inl rfl)
    | cons layer layers =>
      refine Iff.trans ?_ (or_iff_right (List.cons_ne_nil layer layers)).symm
      constructor
      · intro h
        obtain ⟨r, hloop, hr⟩ := Option.map_eq_some_iff.mp h
        exact Followed.of_erasingLoop hloop hr
      · intro h
        exact Option.map_eq_some_iff.mpr ⟨_, erasingLoop_of_followed h, rfl⟩

theorem unsupported_filtered_iff (supported names : List String) (layers : Option (List String)) :
    (ExtensionsFiltered supported names ↔
      Followed supported.contains names ∧ FirstMissingNamed supported names) ∧
    (LayersFiltered layers ↔
      layers.getD [] = [] ∨ Followed (layers.getD []).contains debugLayerNames) :=
  ⟨extensionsFiltered_iff, layersFiltered_iff⟩

/-- The last of the names is not supported, and the iterator moves past the end. -/
theorem debug_report_past_the_end :
    ¬∀ (supported names : List String) (layers : Option (List String)),
      ExtensionsFiltered supported names ∧ LayersFiltered layers := by
  intro h
  have hfiltered := (h ["VK_KHR_surface", "VK_KHR_android_surface"]
    ["VK_KHR_surface", "VK_KHR_android_surface", "VK_EXT_debug_report"] none).1
  have hloop : checkExtensions ["VK_KHR_surface", "VK_KHR_android_surface"]
      ["VK_KHR_surface", "VK_KHR_android_surface", "VK_EXT_debug_report"] = none := by decide
  rw [ExtensionsFiltered, hloop] at hfiltered
  cases hfiltered

end ARArch

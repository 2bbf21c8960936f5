import ARArch.StartedCameras

/-!
# The start button

What a run of the main activity starts `ARActivity` with, in terms of what was selected last.
-/

namespace ARArch

open Numeral

namespace MainActivity

/-- The camera that was selected last for a stream. -/
def chosenCamera (stream : CameraSlot) : ActivityHistory → Option CameraId
  | [] => none
  | ⟨.selectCamera i item, _⟩ :: done => if i = stream then item else chosenCamera stream done
  | ⟨.selectSize _ _, _⟩ :: done | ⟨.deselectSize _, _⟩ :: done | ⟨.click _ _, _⟩ :: done
  | ⟨.preview _, _⟩ :: done => chosenCamera stream done

/-- The item for a size that was selected last for a stream. -/
def chosenSize (stream : CameraSlot) : ActivityHistory → Option (List Char)
  | [] => none
  | ⟨.selectSize i item, _⟩ :: done => if i = stream then item else chosenSize stream done
  | ⟨.deselectSize i, _⟩ :: done => if i = stream then none else chosenSize stream done
  | ⟨.selectCamera _ _, _⟩ :: done | ⟨.click _ _, _⟩ :: done | ⟨.preview _, _⟩ :: done =>
    chosenSize stream done

/-- The size was selected after the camera. -/
def sizeIsNewer (stream : CameraSlot) : ActivityHistory → Bool
  | [] => false
  | ⟨.selectCamera i _, _⟩ :: done => if i = stream then false else sizeIsNewer stream done
  | ⟨.selectSize i _, _⟩ :: done => if i = stream then true else sizeIsNewer stream done
  | ⟨.deselectSize _, _⟩ :: done | ⟨.click _ _, _⟩ :: done | ⟨.preview _, _⟩ :: done =>
    sizeIsNewer stream done

/-- What `ARActivity` was started with, the latest first. -/
def starts : ActivityHistory → List (List (CameraId × IntSize))
  | [] => []
  | ⟨.click _ _, .started activeCameras⟩ :: done => activeCameras :: starts done
  | ⟨.click _ _, .returned⟩ :: done | ⟨.click _ _, .message _⟩ :: done
  | ⟨.click _ _, .stopped _⟩ :: done | ⟨.selectCamera _ _, _⟩ :: done
  | ⟨.selectSize _ _, _⟩ :: done | ⟨.deselectSize _, _⟩ :: done | ⟨.preview _, _⟩ :: done =>
    starts done

/-- What `ARActivity` is started with: the cameras selected last, as far as they could be
initialized, and for each of them the size selected last for its stream. It is a size of the camera
if it was selected after the camera. -/
structure Chosen (offers : CameraId → Size → Prop) (done : ActivityHistory)
    (round : CameraId → MAR.Round) (activeCameras : List (CameraId × IntSize)) : Prop where
  ne_nil : activeCameras ≠ []
  nodup : (activeCameras.map Prod.fst).Nodup
  mem_iff : ∀ camera, camera ∈ activeCameras.map Prod.fst ↔
    (∃ stream, chosenCamera stream done = some camera) ∧ (round camera).succeeds = true
  size : ∀ p ∈ activeCameras, ∃ stream s, chosenCamera stream done = some p.1 ∧
    chosenSize stream done = some (sizeText s) ∧ p.2 = s.toInts ∧
    (sizeIsNewer stream done = true → offers p.1 s)

/-- The answers to clicks that start `ARActivity`. -/
def StartsChosen (offers : CameraId → Size → Prop) (done : ActivityHistory) :
    (q : ActivityRequest) → q.Ans → Prop
  | .click _ round, .started activeCameras =>
    starts done = [] ∧ Chosen offers done round activeCameras
  | .click _ _, .returned | .click _ _, .message _ | .click _ _, .stopped _
  | .selectCamera _ _, _ | .selectSize _ _, _ | .deselectSize _, _ | .preview _, _ => True

variable {a a' : MainActivity} {done : ActivityHistory} {offers : CameraId → Size → Prop}
  {results : Table (Option CameraId) Bool} {mar : MAR} {camera : CameraId}
  {stream : CameraSlot} {list : List (CameraId × IntSize)} {p : CameraId × IntSize}

/-! ### The results -/

/-- The camera of a stream that is kept for `ARActivity`. -/
def kept (results : Table (Option CameraId) Bool) (stream : CameraStream) :
    Option (CameraId × IntSize) := do
  let camera ← stream.selectedCamera
  let size ← stream.selectedSize
  if results (some camera) = some true then some (camera, size) else none

def putKept (list : List (CameraId × IntSize)) : Option (CameraId × IntSize) →
    List (CameraId × IntSize)
  | none => list
  | some p => put list p.1 p.2

theorem mem_putKept {o : Option (CameraId × IntSize)} (h : p ∈ putKept list o) :
    p ∈ list ∨ o = some p := by
  cases o with
  | none => exact Or.inl h
  | some q =>
      obtain hold | hnew := List.mem_append.mp h
      · exact Or.inl (List.mem_filter.mp hold).1
      · rw [List.mem_singleton] at hnew
        exact Or.inr (by rw [hnew])

theorem mem_keys_putKept {o : Option (CameraId × IntSize)} :
    camera ∈ (putKept list o).map Prod.fst ↔
      camera ∈ list.map Prod.fst ∨ ∃ p ∈ o, p.1 = camera := by
  cases o with
  | none => simp [putKept]
  | some q =>
      simp only [putKept, put, List.map_append, List.mem_append, List.mem_map, List.mem_filter,
        decide_eq_true_eq, List.map_cons, List.map_nil, List.mem_singleton, Option.mem_some_iff,
        exists_eq_left']
      constructor
      · rintro (⟨p, ⟨hmem, _⟩, rfl⟩ | rfl)
        · exact Or.inl ⟨p, hmem, rfl⟩
        · exact Or.inr rfl
      · rintro (⟨p, hmem, rfl⟩ | rfl)
        · rcases eq_or_ne p.1 q.1 with heq | hne
          · exact Or.inr heq
          · exact Or.inl ⟨p, ⟨hmem, hne⟩, rfl⟩
        · exact Or.inr rfl

theorem nodup_putKept {o : Option (CameraId × IntSize)} (h : (list.map Prod.fst).Nodup) :
    ((putKept list o).map Prod.fst).Nodup := by
  cases o with
  | none => exact h
  | some q =>
      unfold putKept put
      rw [List.map_append, List.nodup_append]
      refine ⟨?_, by simp, ?_⟩
      · exact h.sublist (List.filter_sublist.map Prod.fst)
      · intro camera hmem other hother
        rw [List.map_cons, List.map_nil, List.mem_singleton] at hother
        obtain ⟨p, hp, rfl⟩ := List.mem_map.mp hmem
        rw [hother]
        simpa using (List.mem_filter.mp hp).2

/-- There is a result for the camera, and it is kept where `checkResults` returns it. -/
theorem checkResults_eq {stream : CameraStream} {o : Option CameraId}
    {list' : List (CameraId × IntSize)} (h : checkResults results stream list = some (o, list')) :
    (∀ camera ∈ stream.selectedCamera, (results (some camera)).isSome = true) ∧
      o = (kept results stream).map Prod.fst ∧ list' = putKept list (kept results stream) := by
  unfold checkResults at h
  unfold kept
  cases hcamera : stream.selectedCamera with
  | none =>
      rw [hcamera] at h
      cases h
      simp [putKept]
  | some cid =>
      rw [hcamera] at h
      cases hresult : results (some cid) with
      | none => simp [hresult] at h
      | some b =>
          cases hsize : stream.selectedSize with
          | none =>
              cases b <;>
              · simp only [hresult, hsize] at h
                cases h
                simp [hresult, putKept]
          | some size =>
              cases b <;>
              · simp only [hresult, hsize] at h
                cases h
                simp [hresult, putKept]

/-- What the streams keep, in the order in which they are put into the map. -/
def allKept (results : Table (Option CameraId) Bool) (a : MainActivity) :
    List (CameraId × IntSize) :=
  putKept (putKept (putKept a.activeCameras (kept results (a.streams .camera0)))
    (kept results (a.streams .camera1))) (kept results (a.streams .camera2))

theorem forall_stream {P : CameraSlot → Prop} :
    (∀ stream, P stream) ↔ P .camera0 ∧ P .camera1 ∧ P .camera2 := by
  constructor
  · intro h
    exact ⟨h .camera0, h .camera1, h .camera2⟩
  · rintro ⟨h0, h1, h2⟩ stream
    cases stream with
    | camera0 => exact h0
    | camera1 => exact h1
    | camera2 => exact h2

theorem startCameras_eq {event : ClickEvent} (h : a.startCameras results mar = some (event, a')) :
    (∀ stream, ∀ camera ∈ (a.streams stream).selectedCamera,
      (results (some camera)).isSome = true) ∧
    ((∀ stream, kept results (a.streams stream) = none) ∧ event = .returned ∧
        a' = { a with activeCameras := a.allKept results, mar := mar } ∨
      (∃ stream, (kept results (a.streams stream)).isSome = true) ∧
        event = .started (a.allKept results) ∧
        a' = { a with activeCameras := a.allKept results, mar := mar, startButton := .stop }) := by
  unfold startCameras at h
  obtain ⟨⟨cid0, active0⟩, h0, h⟩ := Option.bind_eq_some_iff.mp h
  obtain ⟨⟨cid1, active1⟩, h1, h⟩ := Option.bind_eq_some_iff.mp h
  obtain ⟨⟨cid2, active2⟩, h2, h⟩ := Option.bind_eq_some_iff.mp h
  obtain ⟨hresult0, hcid0, rfl⟩ := checkResults_eq h0
  obtain ⟨hresult1, hcid1, rfl⟩ := checkResults_eq h1
  obtain ⟨hresult2, hcid2, rfl⟩ := checkResults_eq h2
  refine ⟨forall_stream.mpr ⟨hresult0, hresult1, hresult2⟩, ?_⟩
  dsimp only at h
  rw [hcid0, hcid1, hcid2] at h
  simp only [Option.map_eq_none_iff] at h
  split_ifs at h with hnone
  · cases h
    exact Or.inl ⟨forall_stream.mpr hnone, rfl, rfl⟩
  · cases h
    refine Or.inr ⟨?_, rfl, rfl⟩
    by_contra hno
    push Not at hno
    have hall : ∀ stream, kept results (a.streams stream) = none := by
      intro stream
      simpa using hno stream
    exact hnone (forall_stream.mp hall)

theorem kept_eq_some {stream : CameraStream} : kept results stream = some p ↔
    stream.selectedCamera = some p.1 ∧ stream.selectedSize = some p.2 ∧
      results (some p.1) = some true := by
  obtain ⟨camera, size⟩ := p
  unfold kept
  cases hcamera : stream.selectedCamera with
  | none => simp
  | some cid =>
      cases hsize : stream.selectedSize with
      | none => simp
      | some size =>
          simp only [Option.bind_eq_bind, Option.bind_some, Option.ite_none_right_eq_some,
            Option.some.injEq, Prod.mk.injEq]
          constructor
          · rintro ⟨hresult, rfl, rfl⟩
            exact ⟨rfl, rfl, hresult⟩
          · rintro ⟨rfl, rfl, hresult⟩
            exact ⟨hresult, rfl, rfl⟩

theorem mem_allKept (hnil : a.activeCameras = []) (h : p ∈ a.allKept results) :
    ∃ stream, kept results (a.streams stream) = some p := by
  unfold allKept at h
  obtain h | h2 := mem_putKept h
  · obtain h | h1 := mem_putKept h
    · obtain h | h0 := mem_putKept h
      · rw [hnil] at h
        cases h
      · exact ⟨.camera0, h0⟩
    · exact ⟨.camera1, h1⟩
  · exact ⟨.camera2, h2⟩

theorem mem_keys_allKept (hnil : a.activeCameras = []) :
    camera ∈ (a.allKept results).map Prod.fst ↔
      ∃ stream, ∃ p ∈ kept results (a.streams stream), p.1 = camera := by
  unfold allKept
  rw [mem_keys_putKept, mem_keys_putKept, mem_keys_putKept, hnil]
  constructor
  · rintro (((hmem | h0) | h1) | h2)
    · cases hmem
    · exact ⟨.camera0, h0⟩
    · exact ⟨.camera1, h1⟩
    · exact ⟨.camera2, h2⟩
  · rintro ⟨stream, hstream⟩
    cases stream with
    | camera0 => exact Or.inl (Or.inl (Or.inr hstream))
    | camera1 => exact Or.inl (Or.inr hstream)
    | camera2 => exact Or.inr hstream

theorem allKept_eq_nil (hnil : a.activeCameras = [])
    (h : ∀ stream, kept results (a.streams stream) = none) : a.allKept results = [] := by
  unfold allKept
  rw [h .camera0, h .camera1, h .camera2]
  exact hnil

theorem nodup_allKept (hnil : a.activeCameras = []) :
    ((a.allKept results).map Prod.fst).Nodup := by
  apply nodup_putKept
  apply nodup_putKept
  apply nodup_putKept
  rw [hnil]
  exact List.nodup_nil

/-! ### The selections -/

/-- What a stream holds is what was selected last. -/
structure StreamMeets (offers : CameraId → Size → Prop) (done : ActivityHistory) (i : CameraSlot)
    (stream : CameraStream) : Prop where
  camera : stream.selectedCamera = chosenCamera i done
  size : ∀ size ∈ stream.selectedSize, ∃ s, chosenSize i done = some (sizeText s) ∧
    size = s.toInts ∧
    (sizeIsNewer i done = true → ∀ camera ∈ stream.selectedCamera, offers camera s)
  shown : ∀ t ∈ stream.sizeList, t = noneText ∨
    ∃ s, t = sizeText s ∧ s.IsInt ∧ ∀ camera ∈ stream.selectedCamera, offers camera s

variable {d : Done ActivityRequest ActivityRequest.Ans} {i j : CameraSlot} {stream' : CameraStream}
  {item : Option CameraId} {size : Option IntSize}

theorem StreamMeets.congr {done' : ActivityHistory} (h : StreamMeets offers done i stream')
    (hcamera : chosenCamera i done' = chosenCamera i done)
    (hsize : chosenSize i done' = chosenSize i done)
    (hnewer : sizeIsNewer i done' = sizeIsNewer i done) : StreamMeets offers done' i stream' where
  camera := by rw [hcamera, h.camera]
  size := by rw [hsize, hnewer]; exact h.size
  shown := h.shown

/-- Where the back cameras are, and the sizes that are shown. -/
structure Lists (offers : CameraId → Size → Prop) (isBack : CameraId → Prop) (a : MainActivity) :
    Prop where
  table : ∀ camera, ∀ s ∈ (a.cameraSizes camera).getD [], offers camera s
  listed : ∀ i, ∀ camera ∈ (a.streams i).cameras, isBack camera ↔ i ≠ .camera2
  selected : ∀ i, ∀ camera ∈ (a.streams i).selectedCamera, isBack camera ↔ i ≠ .camera2

variable {isBack : CameraId → Prop}

theorem selectCamera_self : (a.selectCamera i item).streams i =
    { a.streams i with selectedCamera := item, sizeList := a.sizeList item } :=
  Function.update_self ..

theorem selectCamera_of_ne (h : i ≠ j) : (a.selectCamera j item).streams i = a.streams i :=
  Function.update_of_ne h ..

theorem setSize_self : (a.setSize i size).streams i = { a.streams i with selectedSize := size } :=
  Function.update_self ..

theorem setSize_of_ne (h : i ≠ j) : (a.setSize j size).streams i = a.streams i :=
  Function.update_of_ne h ..

theorem mem_sizeList {t : List Char} (hint : ∀ camera s, offers camera s → s.IsInt)
    (hlists : Lists offers isBack a) (h : t ∈ a.sizeList item) : t = noneText ∨
      ∃ s, t = sizeText s ∧ s.IsInt ∧ ∀ camera ∈ item, offers camera s := by
  unfold sizeList at h
  dsimp only at h
  split_ifs at h with hnil
  · exact Or.inl (List.mem_singleton.mp h)
  · obtain ⟨s, hs, rfl⟩ := List.mem_map.mp h
    cases item with
    | none => cases hs
    | some camera =>
        have hoffers := hlists.table camera s hs
        refine Or.inr ⟨s, rfl, hint camera s hoffers, ?_⟩
        intro other hother
        cases hother
        exact hoffers

/-- What a selection in the list of one stream says of the others is what was said before. -/
theorem streamMeets_at {done' : ActivityHistory}
    (h : ∀ i, StreamMeets offers done i (a.streams i))
    (hself : StreamMeets offers done' j (a'.streams j))
    (hother : ∀ i ≠ j, a'.streams i = a.streams i ∧ chosenCamera i done' = chosenCamera i done ∧
      chosenSize i done' = chosenSize i done ∧ sizeIsNewer i done' = sizeIsNewer i done) :
    ∀ i, StreamMeets offers done' i (a'.streams i) := by
  intro i
  rcases eq_or_ne i j with rfl | hne
  · exact hself
  · obtain ⟨hstream, hcamera, hsize, hnewer⟩ := hother i hne
    rw [hstream]
    exact (h i).congr hcamera hsize hnewer

theorem streamMeets_selectCamera (hint : ∀ camera s, offers camera s → s.IsInt)
    (hlists : Lists offers isBack a) (h : ∀ i, StreamMeets offers done i (a.streams i)) :
    ∀ i, StreamMeets offers (⟨.selectCamera j item, ()⟩ :: done) i
      ((a.selectCamera j item).streams i) := by
  apply streamMeets_at h
  · rw [selectCamera_self]
    constructor
    · simp [chosenCamera]
    · intro size hsize
      obtain ⟨s, htext, hints, _⟩ := (h j).size size hsize
      exact ⟨s, htext, hints, by simp [sizeIsNewer]⟩
    · exact fun t ht => mem_sizeList hint hlists ht
  · intro i hne
    exact ⟨selectCamera_of_ne hne, by simp [chosenCamera, hne.symm], rfl,
      by simp [sizeIsNewer, hne.symm]⟩

theorem streamMeets_setSize {item : Option (List Char)}
    (h : ∀ i, StreamMeets offers done i (a.streams i))
    (hitem : ∀ sz ∈ size, ∃ s, item = some (sizeText s) ∧ sz = s.toInts ∧
      ∀ camera ∈ (a.streams j).selectedCamera, offers camera s) :
    ∀ i, StreamMeets offers (⟨.selectSize j item, ()⟩ :: done) i
      ((a.setSize j size).streams i) := by
  apply streamMeets_at h
  · rw [setSize_self]
    constructor
    · exact (h j).camera
    · intro sz hsz
      obtain ⟨s, htext, hints, hoffers⟩ := hitem sz hsz
      exact ⟨s, by simpa [chosenSize] using htext, hints, fun _ => hoffers⟩
    · exact (h j).shown
  · intro i hne
    exact ⟨setSize_of_ne hne, rfl, by simp [chosenSize, hne.symm], by simp [sizeIsNewer, hne.symm]⟩

theorem streamMeets_deselectSize (h : ∀ i, StreamMeets offers done i (a.streams i)) :
    ∀ i, StreamMeets offers (⟨.deselectSize j, ()⟩ :: done) i ((a.setSize j none).streams i) := by
  apply streamMeets_at h
  · rw [setSize_self]
    constructor
    · exact (h j).camera
    · intro sz hsz
      cases hsz
    · exact (h j).shown
  · intro i hne
    exact ⟨setSize_of_ne hne, rfl, by simp [chosenSize, hne.symm], rfl⟩

/-- The size read from an item of the list is the one that the item was written for. -/
theorem streamMeets_selectSize {item : Option (List Char)}
    (h : ∀ i, StreamMeets offers done i (a.streams i))
    (hitem : ∀ sze ∈ item, sze ∈ (a.streams j).sizeList) (hselect : a.selectSize j item = some a') :
    ∃ size, a' = a.setSize j size ∧ ∀ i, StreamMeets offers (⟨.selectSize j item, ()⟩ :: done) i
      ((a.setSize j size).streams i) := by
  cases item with
  | none =>
      cases hselect
      refine ⟨none, rfl, streamMeets_setSize h ?_⟩
      intro sz hsz
      cases hsz
  | some sze =>
      obtain ⟨size, hparse, rfl⟩ := Option.map_eq_some_iff.mp hselect
      refine ⟨size, rfl, streamMeets_setSize h ?_⟩
      intro sz hsz
      obtain rfl | ⟨s, rfl, hint, hoffers⟩ := (h j).shown sze (hitem sze rfl)
      · rw [parseSize, if_pos rfl] at hparse
        cases hparse
        cases hsz
      · rw [parseSize_sizeText hint] at hparse
        cases hparse
        cases hsz
        exact ⟨s, rfl, rfl, hoffers⟩

/-! ### The button -/

theorem complaint_eq_none (h : a.complaint = none) :
    (∀ i, ∀ camera ∈ (a.streams i).selectedCamera, (a.streams i).selectedSize ≠ none) ∧
      ((a.streams .camera0).selectedCamera = (a.streams .camera1).selectedCamera →
        (a.streams .camera0).selectedCamera = none) := by
  unfold complaint at h
  dsimp only at h
  split_ifs at h with _ hsame h0 h1 h2
  constructor
  · refine forall_stream.mpr ⟨?_, ?_, ?_⟩
    · intro camera hcamera hnone
      exact h0 ⟨by simp [Option.mem_def.mp hcamera], hnone⟩
    · intro camera hcamera hnone
      exact h1 ⟨by simp [Option.mem_def.mp hcamera], hnone⟩
    · intro camera hcamera hnone
      exact h2 ⟨by simp [Option.mem_def.mp hcamera], hnone⟩
  · intro heq
    by_contra hne
    exact hsame ⟨heq, hne⟩

theorem nodup_three {x y z : Option CameraId} (hxy : ∀ camera ∈ x, camera ∉ y)
    (hxz : ∀ camera ∈ x, camera ∉ z) (hyz : ∀ camera ∈ y, camera ∉ z) :
    ([x, y, z].filterMap id).Nodup := by
  cases x <;> cases y <;> cases z <;> simp_all [eq_comm]

/-- The cameras to be initialized are different, as the third stream lists other cameras. -/
theorem nodup_order {order : List (Option CameraId)} (hlists : Lists offers isBack a)
    (hnone : a.complaint = none) (hperm : order.Perm a.cameraList) :
    (order.filterMap id).Nodup := by
  rw [(hperm.filterMap id).nodup_iff]
  have hfront : ∀ i ≠ .camera2, ∀ camera ∈ (a.streams i).selectedCamera,
      camera ∉ (a.streams .camera2).selectedCamera := by
    intro i hi camera hcamera hcamera2
    have hback := (hlists.selected i camera hcamera).mpr hi
    exact (hlists.selected .camera2 camera hcamera2).mp hback rfl
  refine nodup_three ?_ (hfront .camera0 (by decide)) (hfront .camera1 (by decide))
  intro camera hcamera0 hcamera1
  have hsame := (complaint_eq_none hnone).2 (hcamera0.trans hcamera1.symm)
  rw [Option.mem_def, hsame] at hcamera0
  cases hcamera0

/-- The button shows whether `ARActivity` was started, and the cameras it was started with have
objects. -/
inductive ButtonMeets (done : ActivityHistory) (a : MainActivity) : Prop
  | fresh (hbutton : a.startButton = .start) (hactive : a.activeCameras = [])
      (hstarts : starts done = [])
  | started (hbutton : a.startButton = .stop) (hstarts : starts done = [a.activeCameras])
      (hobjects : ∀ camera ∈ a.activeCameras.map Prod.fst, (a.mar.cameras camera).isSome = true)

theorem kept_of_chosen {s : MainActivity} (hnone : s.complaint = none)
    (hchosen : (s.streams i).selectedCamera = some camera)
    (hresult : results (some camera) = some true) :
    ∃ p ∈ kept results (s.streams i), p.1 = camera := by
  have hsize := (complaint_eq_none hnone).1 i camera hchosen
  obtain ⟨size, hsome⟩ := Option.ne_none_iff_exists'.mp hsize
  exact ⟨(camera, size), kept_eq_some.mpr ⟨hchosen, hsome, hresult⟩, rfl⟩

/-- A click that starts `ARActivity`, in terms of the selections. -/
theorem chosen_of_started {round : CameraId → MAR.Round}
    (hstreams : ∀ i, StreamMeets offers done i (a.streams i)) (hactive : a.activeCameras = [])
    (hnone : a.complaint = none)
    (hresults : ∀ i, ∀ camera ∈ (a.streams i).selectedCamera, ∃ b, results (some camera) = some b ∧
      (round camera).succeeds = b)
    (hkept : ∃ i, (kept results (a.streams i)).isSome = true) :
    Chosen offers done round (a.allKept results) where
  ne_nil := by
    obtain ⟨i, hi⟩ := hkept
    obtain ⟨p, hp⟩ := Option.isSome_iff_exists.mp hi
    have hmem : p.1 ∈ (a.allKept results).map Prod.fst :=
      (mem_keys_allKept hactive).mpr ⟨i, p, hp, rfl⟩
    intro hnil
    rw [hnil] at hmem
    cases hmem
  nodup := nodup_allKept hactive
  mem_iff := by
    intro camera
    rw [mem_keys_allKept hactive]
    constructor
    · rintro ⟨i, p, hp, rfl⟩
      obtain ⟨hchosen, _, htrue⟩ := kept_eq_some.mp hp
      obtain ⟨b, hb, hsucceeds⟩ := hresults i p.1 hchosen
      rw [htrue] at hb
      cases hb
      rw [(hstreams i).camera] at hchosen
      exact ⟨⟨i, hchosen⟩, hsucceeds⟩
    · rintro ⟨⟨i, hchosen⟩, hsucceeds⟩
      rw [← (hstreams i).camera] at hchosen
      obtain ⟨b, hb, hround⟩ := hresults i camera hchosen
      rw [hsucceeds] at hround
      rw [← hround] at hb
      exact ⟨i, kept_of_chosen hnone hchosen hb⟩
  size := by
    intro p hp
    obtain ⟨i, hi⟩ := mem_allKept hactive hp
    obtain ⟨hchosen, hsize, _⟩ := kept_eq_some.mp hi
    obtain ⟨s, htext, hints, hoffers⟩ := (hstreams i).size p.2 hsize
    refine ⟨i, s, ?_, htext, hints, fun hnewer => hoffers hnewer p.1 hchosen⟩
    rw [← (hstreams i).camera]
    exact hchosen

theorem cameras_stopPreviews {cameraIds : List CameraId} :
    (mar.stopPreviews cameraIds).cameras = mar.cameras := by
  induction cameraIds generalizing mar with
  | nil => rfl
  | cons camera cameraIds ih =>
      have hstop : (mar.stopPreview camera).cameras = mar.cameras := (MAR.stopPreview_other ..).1
      unfold MAR.stopPreviews at ih ⊢
      rw [List.foldl_cons, ih, hstop]

/-- Only `initialize` changes which cameras have objects. -/
theorem cameras_of_respond {q : MARRequest} {e : PreviewEvent} {mar' : MAR}
    (hinit : q.initializes = false) (hq : MAR.respond q mar = some (e, mar')) :
    mar'.cameras = mar.cameras := by
  cases q with
  | initializeCamera => cases hinit
  | startPreview cameraSizes =>
      have hresult : mar' = (mar.startPreview cameraSizes).2 :=
        congrArg Prod.snd (Option.some.inj hq).symm
      rw [hresult]
      unfold MAR.startPreview
      split_ifs <;> rfl
  | step late =>
      have hresult : mar' = (mar.step late).2 := congrArg Prod.snd (Option.some.inj hq).symm
      rw [hresult]
      exact (MAR.callStep mar late).1
  | stopPreview camera =>
      cases hq
      exact (MAR.stopPreview_other mar camera).1
  | onPreviewResult camera object isOK =>
      cases hq
      cases isOK with
      | true => rfl
      | false => exact (MAR.stopPreview_other ..).1

variable {order : List (Option CameraId)} {round : CameraId → MAR.Round} {event : ClickEvent}

/-- A click leaves the selections as they are. -/
theorem click_frame (h : a.click order round = some (event, a')) :
    a'.streams = a.streams ∧ a'.cameraSizes = a.cameraSizes := by
  unfold click at h
  cases hbutton : a.startButton with
  | busy | stop =>
      rw [hbutton] at h
      cases h
      exact ⟨rfl, rfl⟩
  | start =>
      rw [hbutton] at h
      cases hcomplaint : a.complaint with
      | some text =>
          simp only [hcomplaint] at h
          cases h
          exact ⟨rfl, rfl⟩
      | none =>
          simp only [hcomplaint] at h
          obtain ⟨_, ⟨_, _, rfl⟩ | ⟨_, _, rfl⟩⟩ := startCameras_eq h
          · exact ⟨rfl, rfl⟩
          · exact ⟨rfl, rfl⟩

/-- The first click after which `ARActivity` is started. -/
theorem click_fresh (hstreams : ∀ i, StreamMeets offers done i (a.streams i))
    (hlists : Lists offers isBack a) (hbutton : a.startButton = .start)
    (hactive : a.activeCameras = []) (hstarts : starts done = [])
    (hperm : order.Perm a.cameraList)
    (h : a.click order round = some (event, a')) :
    StartsChosen offers done (.click order round) event ∧
      ButtonMeets (⟨.click order round, event⟩ :: done) a' := by
  unfold click at h
  rw [hbutton] at h
  cases hcomplaint : a.complaint with
  | some text =>
      simp only [hcomplaint] at h
      cases h
      exact ⟨trivial, .fresh hbutton hactive hstarts⟩
  | none =>
      simp only [hcomplaint] at h
      have hnodup := nodup_order hlists hcomplaint hperm
      have hround : ∀ camera b,
          (MAR.initializeCameras round order Table.empty a.mar).1 (some camera) = some b →
          _ := fun camera b => MAR.result_of_initializeCameras hnodup (Table.empty_apply _)
      obtain ⟨hresults, hevent⟩ := startCameras_eq h
      obtain ⟨hnone, rfl, rfl⟩ | ⟨hkept, rfl, rfl⟩ := hevent
      · exact ⟨trivial, .fresh hbutton (allKept_eq_nil hactive hnone) hstarts⟩
      · have hchosen := chosen_of_started hstreams hactive hcomplaint
          (fun i camera hcamera => by
            obtain ⟨b, hb⟩ := Option.isSome_iff_exists.mp (hresults i camera hcamera)
            exact ⟨b, hb, (hround camera b hb).1⟩) hkept
        refine ⟨⟨hstarts, hchosen⟩, .started rfl ?_ ?_⟩
        · rw [starts, hstarts]
        · intro camera hcamera
          obtain ⟨i, p, hp, rfl⟩ := (mem_keys_allKept hactive).mp hcamera
          exact (hround p.1 true (kept_eq_some.mp hp).2.2).2 rfl

/-- From then on a click only stops the cameras. -/
theorem click_started (hbutton : a.startButton = .stop) (hstarts : starts done = [a.activeCameras])
    (hobjects : ∀ camera ∈ a.activeCameras.map Prod.fst, (a.mar.cameras camera).isSome = true)
    (h : a.click order round = some (event, a')) :
    StartsChosen offers done (.click order round) event ∧
      ButtonMeets (⟨.click order round, event⟩ :: done) a' := by
  unfold click at h
  rw [hbutton] at h
  cases h
  refine ⟨trivial, .started rfl hstarts ?_⟩
  intro camera hcamera
  rw [cameras_stopPreviews]
  exact hobjects camera hcamera

theorem click_step (hstreams : ∀ i, StreamMeets offers done i (a.streams i))
    (hlists : Lists offers isBack a) (hbutton : ButtonMeets done a)
    (hperm : order.Perm a.cameraList)
    (h : a.click order round = some (event, a')) :
    StartsChosen offers done (.click order round) event ∧
      ButtonMeets (⟨.click order round, event⟩ :: done) a' := by
  cases hbutton with
  | fresh hbutton hactive hstarts =>
      exact click_fresh hstreams hlists hbutton hactive hstarts hperm h
  | started hbutton hstarts hobjects => exact click_started hbutton hstarts hobjects h

/-! ### Runs -/

/-- What holds all along a run. -/
structure Meets (offers : CameraId → Size → Prop) (isBack : CameraId → Prop)
    (done : ActivityHistory) (a : MainActivity) : Prop where
  streams : ∀ i, StreamMeets offers done i (a.streams i)
  lists : Lists offers isBack a
  button : ButtonMeets done a

theorem ButtonMeets.congr {done' : ActivityHistory} (h : ButtonMeets done a)
    (hbutton : a'.startButton = a.startButton) (hactive : a'.activeCameras = a.activeCameras)
    (hcameras : a'.mar.cameras = a.mar.cameras) (hstarts : starts done' = starts done) :
    ButtonMeets done' a' := by
  cases h with
  | fresh hfresh hnil hno =>
      exact .fresh (hbutton.trans hfresh) (hactive.trans hnil) (hstarts.trans hno)
  | started hstop hone hobjects =>
      refine .started (hbutton.trans hstop) ?_ ?_
      · rw [hstarts, hone, hactive]
      · rw [hactive, hcameras]
        exact hobjects

theorem Lists.congr (h : Lists offers isBack a) (htable : a'.cameraSizes = a.cameraSizes)
    (hcameras : ∀ i, (a'.streams i).cameras = (a.streams i).cameras)
    (hselected : ∀ i, (a'.streams i).selectedCamera = (a.streams i).selectedCamera) :
    Lists offers isBack a' where
  table := by rw [htable]; exact h.table
  listed := by
    intro i
    rw [hcameras]
    exact h.listed i
  selected := by
    intro i
    rw [hselected]
    exact h.selected i

theorem lists_selectCamera (h : Lists offers isBack a)
    (hitem : ∀ camera ∈ item, camera ∈ (a.streams j).cameras) :
    Lists offers isBack (a.selectCamera j item) where
  table := h.table
  listed := by
    intro i
    rcases eq_or_ne i j with rfl | hne
    · rw [selectCamera_self]
      exact h.listed i
    · rw [selectCamera_of_ne hne]
      exact h.listed i
  selected := by
    intro i
    rcases eq_or_ne i j with rfl | hne
    · rw [selectCamera_self]
      exact fun camera hcamera => h.listed i camera (hitem camera hcamera)
    · rw [selectCamera_of_ne hne]
      exact h.selected i

theorem lists_setSize (h : Lists offers isBack a) : Lists offers isBack (a.setSize j size) := by
  have hstream : ∀ i, ((a.setSize j size).streams i).cameras = (a.streams i).cameras ∧
      ((a.setSize j size).streams i).selectedCamera = (a.streams i).selectedCamera := by
    intro i
    rcases eq_or_ne i j with rfl | hne
    · rw [setSize_self]
      exact ⟨rfl, rfl⟩
    · rw [setSize_of_ne hne]
      exact ⟨rfl, rfl⟩
  exact h.congr rfl (fun i => (hstream i).1) (fun i => (hstream i).2)

theorem Meets.step {q : ActivityRequest} {answer : q.Ans} (h : Meets offers isBack done a)
    (hint : ∀ camera s, offers camera s → s.IsInt) (hok : a.Delivers q)
    (hq : respond q a = some (answer, a')) :
    StartsChosen offers done q answer ∧ Meets offers isBack (⟨q, answer⟩ :: done) a' := by
  cases q with
  | selectCamera j item =>
      cases hq
      refine ⟨trivial, ?_, lists_selectCamera h.lists hok, ?_⟩
      · exact streamMeets_selectCamera hint h.lists h.streams
      · exact h.button.congr rfl rfl rfl rfl
  | selectSize j item =>
      obtain ⟨b, hb, heq⟩ := Option.map_eq_some_iff.mp hq
      cases heq
      obtain ⟨size, rfl, hstreams⟩ := streamMeets_selectSize h.streams hok hb
      exact ⟨trivial, hstreams, lists_setSize h.lists, h.button.congr rfl rfl rfl rfl⟩
  | deselectSize j =>
      cases hq
      refine ⟨trivial, ?_, lists_setSize h.lists, h.button.congr rfl rfl rfl rfl⟩
      exact streamMeets_deselectSize h.streams
  | click order round =>
      obtain ⟨hchosen, hbutton⟩ := click_step h.streams h.lists h.button hok hq
      obtain ⟨hsame, htable⟩ := click_frame hq
      refine ⟨hchosen, ?_, ?_, hbutton⟩
      · intro i
        rw [hsame]
        exact (h.streams i).congr rfl rfl rfl
      · apply h.lists.congr htable
        · intro i
          rw [hsame]
        · intro i
          rw [hsame]
  | preview q =>
      obtain ⟨⟨e, mar'⟩, hmar, heq⟩ := Option.map_eq_some_iff.mp hq
      cases heq
      refine ⟨trivial, ?_, h.lists.congr rfl (fun _ => rfl) (fun _ => rfl), ?_⟩
      · intro i
        exact (h.streams i).congr rfl rfl rfl
      · exact h.button.congr rfl rfl (cameras_of_respond hok hmar) rfl

/-- The activity after `init`, on a device with these cameras. -/
def onDevice (characteristics : CameraId → Option CameraCharacteristics) (screenSize : Size)
    (cameraIdList : List CameraId) (mar : MAR) : MainActivity :=
  create mar screenSize (MAR.listCameras characteristics true false cameraIdList)
    (MAR.listCameras characteristics false true cameraIdList)

theorem meets_onDevice (characteristics : CameraId → Option CameraCharacteristics)
    (screenSize : Size) (cameraIdList : List CameraId) (mar : MAR) :
    Meets (OffersSize characteristics screenSize)
      (fun camera => ∃ c, characteristics camera = some c ∧ c.facing = some .back) []
      (onDevice characteristics screenSize cameraIdList mar) where
  streams := by
    intro i
    constructor
    · rfl
    · intro size hsize
      cases hsize
    · intro t ht
      cases ht
  lists := by
    constructor
    · intro camera s hs
      obtain hs | ⟨p, hp, rfl, hvalid⟩ := mem_addSizes hs
      · obtain hs | ⟨p, hp, rfl, hvalid⟩ := mem_addSizes hs
        · cases hs
        · obtain ⟨c, hc, hsizes, _⟩ := MAR.mem_listCameras hp
          exact ⟨c, p.2, hc, hsizes, hvalid⟩
      · obtain ⟨c, hc, hsizes, _⟩ := MAR.mem_listCameras hp
        exact ⟨c, p.2, hc, hsizes, hvalid⟩
    · intro i camera hcamera
      unfold onDevice create at hcamera
      dsimp only at hcamera
      split_ifs at hcamera with hi
      · obtain ⟨p, hp, rfl⟩ := List.mem_map.mp hcamera
        obtain ⟨c, hc, _, ⟨_, hfalse⟩ | ⟨hfront, _⟩⟩ := MAR.mem_listCameras hp
        · cases hfalse
        · apply iff_of_false _ (not_not.mpr hi)
          rintro ⟨c', hc', hback⟩
          rw [hc] at hc'
          cases hc'
          rw [hfront] at hback
          cases hback
      · obtain ⟨p, hp, rfl⟩ := List.mem_map.mp hcamera
        obtain ⟨c, hc, _, ⟨hback, _⟩ | ⟨_, hfalse⟩⟩ := MAR.mem_listCameras hp
        · exact iff_of_true ⟨c, hc, hback⟩ hi
        · cases hfalse
    · intro i camera hcamera
      cases hcamera
  button := .fresh rfl rfl rfl

/-- In every run `ARActivity` is started once at most, with the cameras selected last that could be
initialized and their sizes selected last; and however it goes on, `startPreview` finds an object
for each of the cameras that it was started with. -/
theorem started_once (characteristics : CameraId → Option CameraCharacteristics)
    (screenSize : Size) (cameraIdList : List CameraId) (mar : MAR) (done : ActivityHistory)
    (a : MainActivity) (h : Session respond (fun _ a q => a.Delivers q)
      (onDevice characteristics screenSize cameraIdList mar) done a) :
    (starts done).length ≤ 1 ∧
      Answered (StartsChosen (OffersSize characteristics screenSize)) done ∧
      ∀ activeCameras ∈ starts done, a.activeCameras = activeCameras ∧
        (a.mar.startPreview (activeCameras.map Prod.fst)).1 = .quiet := by
  have hint : ∀ camera s, OffersSize characteristics screenSize camera s → s.IsInt :=
    fun camera s hs => hs.isInt
  have hmeets : ∀ done a, Session respond (fun _ a q => a.Delivers q)
      (onDevice characteristics screenSize cameraIdList mar) done a →
      Meets (OffersSize characteristics screenSize)
        (fun camera => ∃ c, characteristics camera = some c ∧ c.facing = some .back) done a := by
    intro done a hs
    apply hs.invariant (meets_onDevice characteristics screenSize cameraIdList mar)
    intro done a q answer a' hmeets hok hq
    exact (hmeets.step hint hok hq).2
  refine ⟨?_, ?_, ?_⟩
  · cases (hmeets done a h).button with
    | fresh _ _ hstarts => simp [hstarts]
    | started _ hstarts _ => simp [hstarts]
  · apply Session.answered hmeets _ h
    intro done a q answer a' hm hok hq
    exact (hm.step hint hok hq).1
  · intro activeCameras hstarted
    cases (hmeets done a h).button with
    | fresh _ _ hstarts =>
        rw [hstarts] at hstarted
        cases hstarted
    | started _ hstarts hobjects =>
        rw [hstarts, List.mem_singleton] at hstarted
        subst hstarted
        refine ⟨rfl, ?_⟩
        unfold MAR.startPreview
        rw [if_pos hobjects]

/-- A device with one camera, at the back. -/
def oneCamera (_ : CameraId) : Option CameraCharacteristics :=
  some ⟨some .back, some [⟨64, 48⟩], by
    intro l hl s hs
    cases hl
    rw [List.mem_singleton] at hs
    rw [hs]
    exact ⟨by decide, by decide⟩⟩

/-- The camera is started, and then the button is clicked again. -/
theorem started_once_two_clicks : ∃ (done : ActivityHistory) (a : MainActivity),
    starts done = [[(0, (64, 48))]] ∧ a.startButton = .stop ∧
      ∀ activeCameras ∈ starts done, a.activeCameras = activeCameras ∧
        (a.mar.startPreview (activeCameras.map Prod.fst)).1 = .quiet := by
  have hrun : (Session.replay respond (fun _ a q => a.Delivers q)
      [.selectCamera .camera0 (some 0), .selectSize .camera0 (some (sizeText ⟨64, 48⟩)),
        .click [none, some 0, none] (fun _ => .returns true true true),
        .click [none, some 0, none] (fun _ => .throws true true)] []
      (onDevice oneCamera ⟨1920, 1080⟩ [0] {})).any
      (fun r => starts r.1 = [[(0, (64, 48))]] ∧ r.2.startButton = .stop) = true := by decide
  obtain ⟨⟨done, a⟩, hs, hres⟩ := (Option.any_eq_true _ _).mp hrun
  obtain ⟨hstarts, hbutton⟩ := of_decide_eq_true hres
  have hsession := Session.of_replay _ .start hs
  exact ⟨done, a, hstarts, hbutton,
    (started_once oneCamera ⟨1920, 1080⟩ [0] {} done a hsession).2.2⟩

end MainActivity

end ARArch

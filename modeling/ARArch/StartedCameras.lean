import ARArch.MainActivity
import ARArch.PreviewReal

/-!
# The cameras that are started

Between the lists and `ARActivity` a size is a text, which the listener reads again. The texts of
sizes are read as they were written, and so a run of the main activity determines the cameras that
`ARActivity` is started with. It is started once at most, since the button stays at `Stop`.
-/

namespace ARArch

open Numeral

variable {s : Size} {n : ℕ} {t : List Char}

theorem not_isWhitespace_of_isDigit {c : Char} (h : c.isDigit = true) : isWhitespace c = false := by
  obtain ⟨hlow, hhigh⟩ := isDigit_iff.mp h
  have hlow' : 48 ≤ c.toNat := hlow
  have hhigh' : c.toNat ≤ 57 := hhigh
  simp only [isWhitespace, List.mem_cons, List.not_mem_nil, or_false, decide_eq_false_iff_not]
  omega

theorem trim_of_plain (h : Plain t) : trim t = t := by
  have hdrop : ∀ u : List Char, (∀ c ∈ u, c.isDigit = true) → u.dropWhile isWhitespace = u := by
    intro u hu
    cases u with
    | nil => rfl
    | cons c u =>
        have hwhite := not_isWhitespace_of_isDigit (hu c List.mem_cons_self)
        exact List.dropWhile_cons_of_neg (by rw [hwhite]; decide)
  unfold trim
  rw [hdrop t h.digits, hdrop t.reverse (fun c hc => h.digits c (List.mem_reverse.mp hc)),
    List.reverse_reverse]

theorem x_not_mem_text : 'x' ∉ text n := by
  intro h
  have hdigit := plain_text.digits 'x' h
  simp at hdigit

theorem splitOn_sizeText : (sizeText s).splitOn 'x' = [text s.width, text s.height] := by
  unfold sizeText
  rw [List.splitOn_append_cons_self_of_not_mem x_not_mem_text,
    List.splitOn_eq_singleton x_not_mem_text]

theorem sizeText_ne_noneText : sizeText s ≠ noneText := by
  intro h
  have hmem : 'x' ∈ sizeText s := by simp [sizeText]
  rw [h] at hmem
  simp [noneText] at hmem

/-- A size is read from its text as it was. -/
theorem parseSize_sizeText (h : s.IsInt) : parseSize (sizeText s) = some (some s.toInts) := by
  unfold parseSize
  rw [if_neg sizeText_ne_noneText, splitOn_sizeText]
  simp only [trim_of_plain plain_text, parseInt_text h.width, parseInt_text h.height]
  rfl

/-- A camera that `MAR.cameras` lists has these sizes and looks in a direction asked for. -/
theorem MAR.mem_listCameras {characteristics : CameraId → Option CameraCharacteristics}
    {isFacingBack isFacingFront : Bool} {ids : List CameraId} {p : CameraId × List Size}
    (h : p ∈ listCameras characteristics isFacingBack isFacingFront ids) :
    ∃ c, characteristics p.1 = some c ∧ c.sizes = some p.2 ∧
      (c.facing = some .back ∧ isFacingBack = true ∨
        c.facing = some .front ∧ isFacingFront = true) := by
  induction ids with
  | nil => cases h
  | cons id ids ih =>
      unfold listCameras at h
      cases hc : characteristics id with
      | none =>
          rw [hc] at h
          cases h
      | some c =>
          rw [hc] at h
          cases hsizes : c.sizes with
          | none =>
              simp only [hsizes] at h
              exact ih h
          | some sizes =>
              simp only [hsizes] at h
              split_ifs at h with hback hfront
              · obtain rfl | hlater := List.mem_cons.mp h
                · exact ⟨c, hc, hsizes, Or.inl hback⟩
                · exact ih hlater
              · obtain rfl | hlater := List.mem_cons.mp h
                · exact ⟨c, hc, hsizes, Or.inr hfront⟩
                · exact ih hlater
              · exact ih h

theorem mem_addSize {sizes : List Size} {r : Size} (h : r ∈ addSize sizes s) :
    r ∈ sizes ∨ r = s := by
  unfold addSize at h
  split_ifs at h
  · exact Or.inl h
  · simpa using h

/-- The sizes in the table are those of the cameras that pass for the screen. -/
theorem mem_addSizes {screenSize : Size} {cameras : List (CameraId × List Size)}
    {T : Table CameraId (List Size)} {camera : CameraId}
    (h : s ∈ (addSizes screenSize cameras T camera).getD []) :
    s ∈ (T camera).getD [] ∨
      ∃ p ∈ cameras, p.1 = camera ∧ s ∈ getPreviewValidSizes screenSize none p.2 := by
  have hone : ∀ (id : CameraId) (valid : List Size) (T : Table CameraId (List Size)),
      s ∈ ((valid.foldl (fun T s => T.assign id (addSize ((T id).getD []) s)) T) camera).getD [] →
      s ∈ (T camera).getD [] ∨ id = camera ∧ s ∈ valid := by
    intro id valid
    induction valid with
    | nil => exact fun T hT => Or.inl hT
    | cons r valid ih =>
        intro T hT
        rw [List.foldl_cons] at hT
        obtain hmem | ⟨hid, hmem⟩ := ih _ hT
        · rcases eq_or_ne camera id with rfl | hne
          · rw [Table.assign_self, Option.getD_some] at hmem
            obtain hold | rfl := mem_addSize hmem
            · exact Or.inl hold
            · exact Or.inr ⟨rfl, List.mem_cons_self⟩
          · rw [Table.assign_of_ne _ _ hne] at hmem
            exact Or.inl hmem
        · exact Or.inr ⟨hid, List.mem_cons_of_mem r hmem⟩
  induction cameras generalizing T with
  | nil => exact Or.inl h
  | cons p cameras ih =>
      unfold addSizes at ih h
      rw [List.foldl_cons] at h
      obtain hmem | ⟨q, hq, hid, hmem⟩ := ih h
      · obtain hold | ⟨hid, hvalid⟩ := hone p.1 _ T hmem
        · exact Or.inl hold
        · exact Or.inr ⟨p, List.mem_cons_self, hid, hvalid⟩
      · exact Or.inr ⟨q, List.mem_cons_of_mem p hq, hid, hmem⟩

/-- A size of the camera that passes for the screen. -/
def OffersSize (characteristics : CameraId → Option CameraCharacteristics) (screenSize : Size)
    (camera : CameraId) (s : Size) : Prop :=
  ∃ c sizes, characteristics camera = some c ∧ c.sizes = some sizes ∧
    s ∈ getPreviewValidSizes screenSize none sizes

theorem OffersSize.isInt {characteristics : CameraId → Option CameraCharacteristics}
    {screenSize : Size} {camera : CameraId} (h : OffersSize characteristics screenSize camera s) :
    s.IsInt := by
  obtain ⟨c, sizes, _, hsizes, hvalid⟩ := h
  have hmem : s ∈ sizes := (mem_validSizes.mp hvalid).1
  exact c.isInt sizes hsizes s hmem

namespace MAR

variable {round : CameraId → Round} {ids order : List (Option CameraId)}
  {results : Table (Option CameraId) Bool} {mar : MAR} {camera : CameraId} {b : Bool}

/-- The camera is opened and added. -/
def Round.succeeds : Round → Bool
  | .returns opens _ added => opens && added
  | .throws _ _ => false

theorem initializeCamera_opens {opens isRearFacing : Bool} (h : opens = true) :
    ((mar.initializeCamera camera opens isRearFacing).cameras camera).isSome = true := by
  unfold initializeCamera
  rw [if_pos h]
  simp

/-- A camera that is not in the list is left as it is. -/
theorem initializeCameras_other (h : some camera ∉ ids) :
    (initializeCameras round ids results mar).1 (some camera) = results (some camera) ∧
      (initializeCameras round ids results mar).2.cameras camera = mar.cameras camera := by
  induction ids generalizing results mar with
  | nil => exact ⟨rfl, rfl⟩
  | cons item ids ih =>
      have hids : some camera ∉ ids := fun hmem => h (List.mem_cons_of_mem item hmem)
      cases item with
      | none =>
          unfold initializeCameras
          obtain ⟨hresult, hcameras⟩ := @ih (results.assign none false) mar hids
          rw [hresult, hcameras, Table.assign_of_ne _ _ (Option.some_ne_none camera)]
          exact ⟨rfl, rfl⟩
      | some id =>
          have hne : camera ≠ id := by
            rintro rfl
            exact h List.mem_cons_self
          have hother : ∀ opens isRearFacing,
              (mar.initializeCamera id opens isRearFacing).cameras camera = mar.cameras camera := by
            intro opens isRearFacing
            exact (initializeCamera_other mar id opens isRearFacing).1 camera hne
          unfold initializeCameras
          cases hround : round id with
          | throws opens isRearFacing => exact ⟨rfl, hother opens isRearFacing⟩
          | returns opens isRearFacing added =>
              obtain ⟨hresult, hcameras⟩ := @ih (results.assign (some id) (opens && added))
                (mar.initializeCamera id opens isRearFacing) hids
              have hne' : some camera ≠ some id := fun heq => hne (Option.some.inj heq)
              rw [Table.assign_of_ne _ _ hne'] at hresult
              exact ⟨hresult, hcameras.trans (hother opens isRearFacing)⟩

/-- The result of a camera is that of its own round, and a camera that was opened has an object. -/
theorem result_of_initializeCameras (hnodup : (ids.filterMap id).Nodup)
    (hnone : results (some camera) = none)
    (h : (initializeCameras round ids results mar).1 (some camera) = some b) :
    (round camera).succeeds = b ∧
      (b = true →
        ((initializeCameras round ids results mar).2.cameras camera).isSome = true) := by
  induction ids generalizing results mar with
  | nil =>
      have hresult : results (some camera) = some b := h
      rw [hnone] at hresult
      cases hresult
  | cons item ids ih =>
      cases item with
      | none =>
          unfold initializeCameras at h ⊢
          apply ih hnodup _ h
          rw [Table.assign_of_ne _ _ (Option.some_ne_none camera), hnone]
      | some id =>
          obtain ⟨hid, hids⟩ := List.nodup_cons.mp hnodup
          unfold initializeCameras at h ⊢
          cases hround : round id with
          | throws opens isRearFacing =>
              rw [hround] at h
              simp only [hnone] at h
              cases h
          | returns opens isRearFacing added =>
              rw [hround] at h
              rcases eq_or_ne camera id with rfl | hne
              · have hother : some camera ∉ ids := by
                  intro hmem
                  exact hid (List.mem_filterMap.mpr ⟨some camera, hmem, rfl⟩)
                obtain ⟨hresult, hcameras⟩ := @initializeCameras_other round ids
                  (results.assign (some camera) (opens && added))
                  (mar.initializeCamera camera opens isRearFacing) camera hother
                rw [hresult, Table.assign_self] at h
                cases h
                rw [hround]
                refine ⟨rfl, fun hb => ?_⟩
                simp only [hcameras]
                exact initializeCamera_opens (Bool.and_eq_true_iff.mp hb).1
              · apply ih hids _ h
                have hne' : some camera ≠ some id := fun heq => hne (Option.some.inj heq)
                rw [Table.assign_of_ne _ _ hne', hnone]

end MAR

end ARArch

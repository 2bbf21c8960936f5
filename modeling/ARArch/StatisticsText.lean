import ARArch.JsonGrammar
import ARArch.RunningStatistics

/-!
# The text of the statistics

`MAR.getStats` writes the statistics of all cameras piece by piece. The arithmetic of `long double`
and the text printed for a value are parameters.
-/

namespace ARArch

open Json

structure LongDouble (R : Type) where
  ofInt : ℤ → R
  sub : R → R → R
  div : R → R → R
  sqrt : R → R
  /-- The text with `std::fixed` and `std::setprecision(8)`. -/
  fixed : R → String

namespace RunningStatistics

variable {R : Type} (s : RunningStatistics R) (ld : LongDouble R)

def size : ℤ := s.n

def mean : R := s.M1

def variance : R := ld.div s.M2 (ld.sub (ld.ofInt s.n) (ld.ofInt 1))

def deviation : R := ld.sqrt (s.variance ld)

def time : ℤ := s.endTime - s.startTime

end RunningStatistics

variable {R : Type}

def LongDouble.nano2s (ld : LongDouble R) : R := ld.ofInt 1000000000

/-- What is written for the statistics of a detector or a renderer, if there are any. -/
def statsText (ld : LongDouble R) (key : String) : Option (RunningStatistics R) → String
  | none => ""
  | some stats =>
    "\"" ++ key ++ "\": \x7b \"mean\":" ++ ld.fixed (ld.div stats.mean ld.nano2s) ++
      ",\"deviation\":" ++ ld.fixed (ld.div (stats.deviation ld) ld.nano2s) ++
      ",\"count\":" ++ toString stats.size ++ "\x7d" ++
      ",\"time\":" ++ ld.fixed (ld.div (ld.ofInt stats.time) ld.nano2s) ++ "\x7d" ++
      ",\"meanframes\":" ++ ld.fixed (ld.div (ld.ofInt stats.size)
        (ld.div (ld.ofInt stats.time) ld.nano2s)) ++ "\x7d\n"

/-- What the repository has for its cameras. -/
structure CameraStatistics (R : Type) where
  cameras : List ℕ
  detectionStats : ℕ → Option (RunningStatistics R)
  rendererStats : ℕ → Option (RunningStatistics R)

def cameraText (ld : LongDouble R) (stats : CameraStatistics R) (id : ℕ) : String :=
  "\"Camera\": \x7b \"id:\" " ++ (toString id ++ "\n" ++
    statsText ld "detector" (stats.detectionStats id) ++
    statsText ld "renderer" (stats.rendererStats id) ++ "\x7d\n")

/-- The text that `MAR.getStats` returns. -/
def getStats (ld : LongDouble R) (stats : CameraStatistics R) : String :=
  "[\n" ++ (String.join (stats.cameras.map (cameraText ld stats)) ++ "]\n")

theorem getStats_of_no_cameras (ld : LongDouble R) (stats : CameraStatistics R)
    (h : stats.cameras = []) : getStats ld stats = "[\n]\n" := by
  rw [getStats, h]
  rfl

theorem wellFormed_empty_array : WellFormed "[\n]\n".toList :=
  ⟨_, _, .none, .emptyArray (.more (by decide) .none), .more (by decide) .none⟩

/-- With a camera the text starts with an array of a key and a colon. -/
theorem getStats_of_camera (ld : LongDouble R) (stats : CameraStatistics R) (id : ℕ) (ids : List ℕ)
    (h : stats.cameras = id :: ids) : ∃ rest, (getStats ld stats).toList =
      '[' :: (['\n'] ++ quote :: (['C', 'a', 'm', 'e', 'r', 'a'] ++ quote :: ':' :: rest)) := by
  have hopen : "[\n".toList = ['[', '\n'] := rfl
  have hkey : "\"Camera\": \x7b \"id:\" ".toList =
      quote :: (['C', 'a', 'm', 'e', 'r', 'a'] ++ quote :: ':' :: " \x7b \"id:\" ".toList) := by
    decide
  rw [getStats, h, List.map_cons, String.join_cons]
  unfold cameraText
  simp only [String.toList_append, hopen, hkey, List.cons_append, List.nil_append]
  exact ⟨_, rfl⟩

theorem not_wellFormed_camera (rest : List Char) : ¬WellFormed
    ('[' :: (['\n'] ++ quote :: (['C', 'a', 'm', 'e', 'r', 'a'] ++ quote :: ':' :: rest))) := by
  have hspace : ∀ c ∈ ['\n'], IsSpace c := by
    intro c hc
    obtain rfl := List.mem_singleton.mp hc
    decide
  have hplain : ∀ c ∈ ['C', 'a', 'm', 'e', 'r', 'a'], IsPlain c := by
    intro c hc
    have hall : (['C', 'a', 'm', 'e', 'r', 'a'].all fun c => decide (IsPlain c)) = true := by decide
    exact of_decide_eq_true (List.all_eq_true.mp hall c hc)
  exact not_wellFormed hspace hplain (by decide) (by decide) (by decide)

theorem getStats_wellFormed_iff (ld : LongDouble R) (stats : CameraStatistics R) :
    WellFormed (getStats ld stats).toList ↔ stats.cameras = [] := by
  constructor
  · intro h
    cases hcameras : stats.cameras with
    | nil => rfl
    | cons id ids =>
      obtain ⟨rest, htext⟩ := getStats_of_camera ld stats id ids hcameras
      rw [htext] at h
      exact absurd h (not_wellFormed_camera rest)
  · intro h
    rw [getStats_of_no_cameras ld stats h]
    exact wellFormed_empty_array

/-- One camera without statistics is enough. -/
theorem one_camera_ill_formed : ¬∀ (ld : LongDouble ℤ) (stats : CameraStatistics ℤ),
    WellFormed (getStats ld stats).toList := by
  intro h
  let ld : LongDouble ℤ := ⟨id, (· - ·), (· / ·), id, toString⟩
  let stats : CameraStatistics ℤ := ⟨[0], fun _ => none, fun _ => none⟩
  obtain ⟨rest, htext⟩ := getStats_of_camera ld stats 0 [] rfl
  have hwell := h ld stats
  rw [htext] at hwell
  exact not_wellFormed_camera rest hwell

end ARArch

import Mathlib.Algebra.Order.Field.Rat
import Mathlib.Tactic.FieldSimp
import Mathlib.Tactic.LinearCombination
import Mathlib.Tactic.Linarith
import Mathlib.Tactic.Positivity
import Mathlib.Tactic.Ring

/-!
# Rasterization of triangles

Triangles in the plane of a framebuffer, whose y axis points down. Which sample points a triangle
covers is fixed for those inside and outside; of two triangles on either side of a common edge one
covers a point of the edge, but which one is left open.
-/

namespace Rasterization

structure Point where
  x : ℚ
  y : ℚ
  deriving DecidableEq

/-- Twice the area of the triangle `a b p`, with a sign that tells on which side of the line `a b`
the point is. -/
def side (a b p : Point) : ℚ := (b.x - a.x) * (p.y - a.y) - (b.y - a.y) * (p.x - a.x)

variable {a b c d p : Point} {s t : ℚ}

theorem side_rotate : side b c a = side a b c := by
  simp only [side]
  ring

theorem side_swap : side b a p = -side a b p := by
  simp only [side]
  ring

/-- `p` is on the side of the line `a b` on which `c` is, if positive. -/
def sameSide (a b c p : Point) : ℚ := side a b c * side a b p

theorem sameSide_swap : sameSide b a c p = sameSide a b c p := by
  simp only [sameSide, side]
  ring

structure Triangle where
  a : Point
  b : Point
  c : Point

namespace Triangle

/-- The signed area, which is positive for vertices that go counter-clockwise on the screen. -/
def area (t : Triangle) : ℚ :=
  -((t.a.x * t.b.y - t.b.x * t.a.y) + (t.b.x * t.c.y - t.c.x * t.b.y) +
    (t.c.x * t.a.y - t.a.x * t.c.y)) / 2

theorem area_eq (t : Triangle) : t.area = -side t.a t.b t.c / 2 := by
  simp only [area, side]
  ring

/-- Each edge with the vertex that is not on it. -/
def edges (t : Triangle) : List (Point × Point × Point) :=
  [(t.a, t.b, t.c), (t.b, t.c, t.a), (t.c, t.a, t.b)]

def Inside (t : Triangle) (p : Point) : Prop := ∀ e ∈ t.edges, 0 < sameSide e.1 e.2.1 e.2.2 p

def Outside (t : Triangle) (p : Point) : Prop := ∃ e ∈ t.edges, sameSide e.1 e.2.1 e.2.2 p < 0

/-- The triangle `a b c`, its vertices in any order. -/
inductive HasVertices (a b c : Point) : Triangle → Prop
  | abc : HasVertices a b c ⟨a, b, c⟩
  | bca : HasVertices a b c ⟨b, c, a⟩
  | cab : HasVertices a b c ⟨c, a, b⟩
  | acb : HasVertices a b c ⟨a, c, b⟩
  | bac : HasVertices a b c ⟨b, a, c⟩
  | cba : HasVertices a b c ⟨c, b, a⟩

/-- A condition on the edges that does not depend on their direction does not depend on the order of
the vertices. -/
theorem HasVertices.forall_edges {t : Triangle} (h : HasVertices a b c t)
    {P : Point → Point → Point → Prop} (hswap : ∀ a b c, P a b c ↔ P b a c) :
    (∀ e ∈ t.edges, P e.1 e.2.1 e.2.2) ↔ P a b c ∧ P b c a ∧ P c a b := by
  have hall (t : Triangle) :
      (∀ e ∈ t.edges, P e.1 e.2.1 e.2.2) ↔ P t.a t.b t.c ∧ P t.b t.c t.a ∧ P t.c t.a t.b := by
    simp [edges]
  rw [hall]
  cases h with
  | abc => exact Iff.rfl
  | bca => exact ⟨fun ⟨h₁, h₂, h₃⟩ => ⟨h₃, h₁, h₂⟩, fun ⟨h₁, h₂, h₃⟩ => ⟨h₂, h₃, h₁⟩⟩
  | cab => exact ⟨fun ⟨h₁, h₂, h₃⟩ => ⟨h₂, h₃, h₁⟩, fun ⟨h₁, h₂, h₃⟩ => ⟨h₃, h₁, h₂⟩⟩
  | acb =>
      rw [hswap a c b, hswap c b a, hswap b a c]
      exact ⟨fun ⟨h₁, h₂, h₃⟩ => ⟨h₃, h₂, h₁⟩, fun ⟨h₁, h₂, h₃⟩ => ⟨h₃, h₂, h₁⟩⟩
  | bac =>
      rw [hswap b a c, hswap a c b, hswap c b a]
      exact ⟨fun ⟨h₁, h₂, h₃⟩ => ⟨h₁, h₃, h₂⟩, fun ⟨h₁, h₂, h₃⟩ => ⟨h₁, h₃, h₂⟩⟩
  | cba =>
      rw [hswap c b a, hswap b a c, hswap a c b]
      exact ⟨fun ⟨h₁, h₂, h₃⟩ => ⟨h₂, h₁, h₃⟩, fun ⟨h₁, h₂, h₃⟩ => ⟨h₂, h₁, h₃⟩⟩

theorem HasVertices.inside_iff {t : Triangle} (h : HasVertices a b c t) :
    t.Inside p ↔ 0 < sameSide a b c p ∧ 0 < sameSide b c a p ∧ 0 < sameSide c a b p :=
  h.forall_edges (P := fun a b c => 0 < sameSide a b c p) fun a b c => by rw [sameSide_swap]

theorem HasVertices.outside_iff {t : Triangle} (h : HasVertices a b c t) :
    t.Outside p ↔ sameSide a b c p < 0 ∨ sameSide b c a p < 0 ∨ sameSide c a b p < 0 := by
  have hnot := h.forall_edges (P := fun a b c => ¬ sameSide a b c p < 0)
    fun a b c => by rw [sameSide_swap]
  rw [← not_iff_not]
  simp only [Outside, not_exists, not_and, not_or]
  simpa using hnot

end Triangle

/-! ### The sample points -/

/-- `p` is on the edge between `a` and `b`, but is none of them. -/
def Between (a b p : Point) : Prop :=
  ∃ s : ℚ, 0 < s ∧ s < 1 ∧ p = ⟨a.x + s * (b.x - a.x), a.y + s * (b.y - a.y)⟩

/-- How a device chooses the sample points that a triangle covers. -/
structure PointSampling where
  covers : Triangle → Point → Bool
  inside : ∀ t p, t.Inside p → covers t p = true
  outside : ∀ t p, t.Outside p → covers t p = false
  /-- Exactly one of two triangles on either side of a common edge covers a point of it. -/
  common_edge : ∀ a b c d t t' p, Triangle.HasVertices a b c t → Triangle.HasVertices a b d t' →
    sameSide a b c d < 0 → Between a b p → covers t p = !covers t' p

/-- The point `c + s (a - c) + t (b - c)`. -/
def corner (c a b : Point) (s t : ℚ) : Point :=
  ⟨c.x + s * (a.x - c.x) + t * (b.x - c.x), c.y + s * (a.y - c.y) + t * (b.y - c.y)⟩

/-- What the edges of `a b c` say about a point of its plane. -/
theorem sameSide_corner :
    sameSide a b c (corner c a b s t) = (1 - s - t) * side a b c ^ 2 ∧
      sameSide b c a (corner c a b s t) = s * side a b c ^ 2 ∧
      sameSide c a b (corner c a b s t) = t * side a b c ^ 2 := by
  simp only [sameSide, side, corner]
  refine ⟨?_, ?_, ?_⟩ <;> ring

/-- The same point seen from the opposite corner of the parallelogram. -/
theorem corner_opposite :
    corner c a b s t = corner (corner c a b 1 1) a b (1 - t) (1 - s) := by
  simp only [corner, Point.mk.injEq]
  constructor <;> ring

theorem side_opposite : side a b (corner c a b 1 1) = -side a b c := by
  simp only [side, corner]
  ring

/-- Two triangles that make up a parallelogram cover each point in it exactly once. -/
theorem PointSampling.covers_once (sampling : PointSampling) {t₁ t₂ : Triangle}
    (harea : side a b c ≠ 0) (h₁ : Triangle.HasVertices a b c t₁)
    (h₂ : Triangle.HasVertices a b (corner c a b 1 1) t₂) (hs : 0 < s ∧ s < 1)
    (ht : 0 < t ∧ t < 1) :
    sampling.covers t₁ (corner c a b s t) = !sampling.covers t₂ (corner c a b s t) := by
  have hsquare : 0 < side a b c ^ 2 := by positivity
  obtain ⟨hab, hbc, hca⟩ := sameSide_corner (a := a) (b := b) (c := c) (s := s) (t := t)
  obtain ⟨hab', hbd, hda⟩ :=
    sameSide_corner (a := a) (b := b) (c := corner c a b 1 1) (s := 1 - t) (t := 1 - s)
  rw [← corner_opposite, side_opposite, neg_sq] at hab' hbd hda
  obtain hlt | heq | hgt := lt_trichotomy (s + t) 1
  · have hin : t₁.Inside (corner c a b s t) := by
      rw [h₁.inside_iff, hab, hbc, hca]
      exact ⟨mul_pos (by linarith) hsquare, mul_pos hs.1 hsquare, mul_pos ht.1 hsquare⟩
    have hout : t₂.Outside (corner c a b s t) := by
      rw [h₂.outside_iff, hab']
      exact Or.inl (mul_neg_of_neg_of_pos (by linarith) hsquare)
    rw [sampling.inside _ _ hin, sampling.outside _ _ hout]
    rfl
  · have hopposite : sameSide a b c (corner c a b 1 1) < 0 := by
      rw [sameSide, side_opposite]
      linarith
    have hbetween : Between a b (corner c a b s t) := by
      refine ⟨t, ht.1, ht.2, ?_⟩
      obtain rfl : s = 1 - t := by linarith
      simp only [corner, Point.mk.injEq]
      constructor <;> ring
    exact sampling.common_edge _ _ _ _ _ _ _ h₁ h₂ hopposite hbetween
  · have hout : t₁.Outside (corner c a b s t) := by
      rw [h₁.outside_iff, hab]
      exact Or.inl (mul_neg_of_neg_of_pos (by linarith) hsquare)
    have hin : t₂.Inside (corner c a b s t) := by
      rw [h₂.inside_iff, hab', hbd, hda]
      exact ⟨mul_pos (by linarith) hsquare, mul_pos (by linarith) hsquare,
        mul_pos (by linarith) hsquare⟩
    rw [sampling.outside _ _ hout, sampling.inside _ _ hin]
    rfl

/-! ### A rule for the edges -/

/-- The side of `a b` on which `c` is has a point of the edge that is moved a little to the right,
or downwards if the edge is horizontal. -/
def TakesEdge (a b c : Point) : Prop :=
  0 < (a.y - b.y) * side a b c ∨ a.y = b.y ∧ 0 < (b.x - a.x) * side a b c

theorem takesEdge_swap : TakesEdge b a c ↔ TakesEdge a b c := by
  have hy : (b.y - a.y) * side b a c = (a.y - b.y) * side a b c := by
    rw [side_swap]
    ring
  have hx : (a.x - b.x) * side b a c = (b.x - a.x) * side a b c := by
    rw [side_swap]
    ring
  rw [TakesEdge, TakesEdge, hx, hy, eq_comm]

/-- Of two triangles on either side of an edge one takes it. -/
theorem takesEdge_opposite (h : sameSide a b c d < 0) : TakesEdge a b d ↔ ¬TakesEdge a b c := by
  have hflip (k : ℚ) (hk : k ≠ 0) : 0 < k * side a b d ↔ ¬0 < k * side a b c := by
    have hprod : k * side a b c * (k * side a b d) < 0 := by
      have hsquare : 0 < k ^ 2 := by positivity
      rw [show k * side a b c * (k * side a b d) = k ^ 2 * sameSide a b c d by
        rw [sameSide]; ring]
      exact mul_neg_of_pos_of_neg hsquare h
    rw [not_lt]
    constructor
    · intro hpos
      exact (neg_of_mul_neg_left hprod hpos.le).le
    · intro hle
      exact pos_of_mul_neg_right hprod hle
  by_cases hy : a.y = b.y
  · have hx : b.x - a.x ≠ 0 := by
      intro hx
      apply h.ne
      rw [sameSide, side, hx, hy]
      ring
    simp only [TakesEdge, hy, sub_self, zero_mul, lt_self_iff_false, false_or, true_and]
    exact hflip _ hx
  · simp only [TakesEdge, hy, false_and, or_false]
    exact hflip _ (sub_ne_zero.mpr hy)

instance : Decidable (TakesEdge a b c) := inferInstanceAs (Decidable (_ ∨ _))

/-- Whether a point is on the side of the edge, or on it and the edge is taken. -/
def InsideEdge (p a b c : Point) : Prop :=
  0 < sameSide a b c p ∨ sameSide a b c p = 0 ∧ TakesEdge a b c

instance : Decidable (InsideEdge p a b c) := inferInstanceAs (Decidable (_ ∨ _))

theorem insideEdge_swap : InsideEdge p a b c ↔ InsideEdge p b a c := by
  rw [InsideEdge, InsideEdge, sameSide_swap, takesEdge_swap]

/-- On an edge a triangle covers what the edge says. -/
theorem insideEdges_of_between (harea : side a b c ≠ 0) (h : Between a b p) :
    InsideEdge p a b c ∧ InsideEdge p b c a ∧ InsideEdge p c a b ↔ TakesEdge a b c := by
  obtain ⟨s, hpos, hlt, hp⟩ := h
  have hcorner : p = corner c a b (1 - s) s := by
    rw [hp, corner, Point.mk.injEq]
    constructor <;> ring
  obtain ⟨hab, hbc, hca⟩ := sameSide_corner (a := a) (b := b) (c := c) (s := 1 - s) (t := s)
  rw [← hcorner] at hab hbc hca
  have hsquare : 0 < side a b c ^ 2 := by positivity
  have hzero : sameSide a b c p = 0 := by
    rw [hab]
    ring
  have hsides : InsideEdge p b c a ∧ InsideEdge p c a b := by
    refine ⟨Or.inl ?_, Or.inl ?_⟩
    · rw [hbc]
      exact mul_pos (sub_pos.mpr hlt) hsquare
    · rw [hca]
      exact mul_pos hpos hsquare
  rw [and_iff_left hsides, InsideEdge, hzero]
  simp only [lt_self_iff_false, true_and, false_or]

/-- The points on an edge go to the triangle to the right of it. -/
def PointSampling.nudged : PointSampling where
  covers t p := decide (∀ e ∈ t.edges, InsideEdge p e.1 e.2.1 e.2.2)
  inside t p h := decide_eq_true fun e he => Or.inl (h e he)
  outside t p h := by
    obtain ⟨e, he, hneg⟩ := h
    apply decide_eq_false
    intro hall
    obtain hpos | ⟨hzero, -⟩ := hall e he
    · exact lt_asymm hneg hpos
    · exact hneg.ne hzero
  common_edge a b c d t t' p ht ht' h hbetween := by
    have hc : side a b c ≠ 0 := by
      intro hzero
      rw [sameSide, hzero, zero_mul] at h
      exact lt_irrefl 0 h
    have hd : side a b d ≠ 0 := by
      intro hzero
      rw [sameSide, hzero, mul_zero] at h
      exact lt_irrefl 0 h
    rw [← decide_not, decide_eq_decide,
      ht.forall_edges (P := InsideEdge p) fun _ _ _ => insideEdge_swap,
      ht'.forall_edges (P := InsideEdge p) fun _ _ _ => insideEdge_swap,
      insideEdges_of_between hc hbetween, insideEdges_of_between hd hbetween,
      takesEdge_opposite h, not_not]

/-! ### Interpolation -/

/-- The barycentric coordinates of a point of the plane of a triangle. -/
def Triangle.coordinates (t : Triangle) (p : Point) : ℚ × ℚ × ℚ :=
  (side t.b t.c p / side t.b t.c t.a, side t.c t.a p / side t.c t.a t.b,
    side t.a t.b p / side t.a t.b t.c)

/-- The value at a point by those at the vertices, as the depth is interpolated. -/
def Triangle.linear (t : Triangle) (f : ℚ × ℚ × ℚ) (p : Point) : ℚ :=
  let (a, b, c) := t.coordinates p
  a * f.1 + b * f.2.1 + c * f.2.2

/-- With respect to perspective: `w` holds the fourth coordinates of the vertices. -/
def Triangle.perspective (t : Triangle) (w f : ℚ × ℚ × ℚ) (p : Point) : ℚ :=
  let (a, b, c) := t.coordinates p
  (a * f.1 / w.1 + b * f.2.1 / w.2.1 + c * f.2.2 / w.2.2) / (a / w.1 + b / w.2.1 + c / w.2.2)

namespace Triangle

variable {t : Triangle} {f : ℚ × ℚ × ℚ}

/-- The values at the vertices are those of an affine function `k x + l y + m`. -/
structure IsAffine (t : Triangle) (f : ℚ × ℚ × ℚ) (k l m : ℚ) : Prop where
  a : f.1 = k * t.a.x + l * t.a.y + m
  b : f.2.1 = k * t.b.x + l * t.b.y + m
  c : f.2.2 = k * t.c.x + l * t.c.y + m

theorem linear_eq (harea : t.area ≠ 0) {k l m : ℚ} (hf : t.IsAffine f k l m) :
    t.linear f p = k * p.x + l * p.y + m := by
  have hside : side t.a t.b t.c ≠ 0 := by
    intro hzero
    apply harea
    rw [area_eq, hzero]
    ring
  have hbc : side t.b t.c t.a = side t.a t.b t.c := side_rotate
  have hca : side t.c t.a t.b = side t.a t.b t.c := side_rotate.trans side_rotate
  simp only [linear, coordinates]
  rw [hbc, hca, hf.a, hf.b, hf.c]
  field_simp
  simp only [side]
  ring

theorem sum_coordinates (harea : t.area ≠ 0) :
    (t.coordinates p).1 + (t.coordinates p).2.1 + (t.coordinates p).2.2 = 1 := by
  have hone : t.IsAffine (1, 1, 1) 0 0 1 := ⟨by ring, by ring, by ring⟩
  have hlinear := linear_eq (p := p) harea hone
  simp only [linear] at hlinear
  linarith

/-- Without perspective. -/
theorem perspective_one (harea : t.area ≠ 0) : t.perspective (1, 1, 1) f p = t.linear f p := by
  have hsum := sum_coordinates (p := p) harea
  simp only [perspective, linear, div_one]
  rw [hsum, div_one]

end Triangle

end Rasterization

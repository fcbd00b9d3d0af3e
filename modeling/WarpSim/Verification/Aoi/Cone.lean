import WarpSim.Model.AoiLp

/-! # The cone test

The cone test of the area-of-interest LP compares squares instead of taking roots. It is compared here with the
test of a cone by its half-angle, over the real numbers. -/

namespace WarpSim

namespace AoiLP

variable {origin direction pos : Vec3 ℝ} {range cosHalfAngle : ℝ}

/-- The length of a vector. -/
noncomputable def length (v : Vec3 ℝ) : ℝ := √(norm2 v)

/-- The entity is in range, and the angle between its offset and the direction is at most the half-angle. -/
structure InGeometricCone (origin direction : Vec3 ℝ) (range cosHalfAngle : ℝ) (pos : Vec3 ℝ) : Prop where
  near : length (sub pos origin) ≤ range
  angle : cosHalfAngle * length (sub pos origin) * length direction ≤ dot (sub pos origin) direction

/-- The entity is out of range; or it is not at the origin, and the half-angle is below a right angle, or the
entity is out of the cone by its angle, or it is in front and within the supplementary angle. -/
def ConeTestable (origin direction : Vec3 ℝ) (range cosHalfAngle : ℝ) (pos : Vec3 ℝ) : Prop :=
  range < length (sub pos origin) ∨
    (pos ≠ origin ∧
      (0 < cosHalfAngle ∨
        dot (sub pos origin) direction < cosHalfAngle * length (sub pos origin) * length direction ∨
        (0 < dot (sub pos origin) direction ∧
          -cosHalfAngle * length (sub pos origin) * length direction ≤ dot (sub pos origin) direction)))

/-! ## Lengths -/

theorem norm2_nonneg (v : Vec3 ℝ) : 0 ≤ norm2 v := by
  unfold norm2 dot
  nlinarith [mul_self_nonneg v.x, mul_self_nonneg v.y, mul_self_nonneg v.z]

theorem norm2_eq_zero_iff {v : Vec3 ℝ} : norm2 v = 0 ↔ v = ⟨0, 0, 0⟩ := by
  constructor
  · intro h
    unfold norm2 dot at h
    have hx := mul_self_nonneg v.x
    have hy := mul_self_nonneg v.y
    have hz := mul_self_nonneg v.z
    have hx0 : v.x = 0 := mul_self_eq_zero.mp (by linarith)
    have hy0 : v.y = 0 := mul_self_eq_zero.mp (by linarith)
    have hz0 : v.z = 0 := mul_self_eq_zero.mp (by linarith)
    cases v
    simp_all
  · rintro rfl
    simp [norm2, dot]

theorem length_nonneg (v : Vec3 ℝ) : 0 ≤ length v := Real.sqrt_nonneg _

theorem length_mul_self (v : Vec3 ℝ) : length v * length v = norm2 v := Real.mul_self_sqrt (norm2_nonneg v)

theorem length_pos_iff {v : Vec3 ℝ} : 0 < length v ↔ v ≠ ⟨0, 0, 0⟩ := by
  unfold length
  rw [Real.sqrt_pos, lt_iff_le_and_ne, ne_comm, ne_eq, norm2_eq_zero_iff]
  exact and_iff_right (norm2_nonneg v)

theorem sub_eq_zero_iff : sub pos origin = ⟨0, 0, 0⟩ ↔ pos = origin := by
  cases pos
  cases origin
  simp [sub, sub_eq_zero]

/-- Without roots: the entity is in range. -/
theorem norm2_le_iff (hrange : 0 ≤ range) (v : Vec3 ℝ) : norm2 v ≤ range * range ↔ length v ≤ range := by
  rw [← length_mul_self]
  exact mul_self_le_mul_self_iff (length_nonneg v) hrange |>.symm

/-- Without roots: the offset is within the half-angle of the direction or of the opposite one. -/
theorem squares_le_iff {x : ℝ} (hx : 0 < x) (c : ℝ) (v w : Vec3 ℝ) :
    c * c * norm2 v * norm2 w ≤ x * x ↔ |c| * length v * length w ≤ x := by
  have hsquare : c * c * norm2 v * norm2 w = (|c| * length v * length w) * (|c| * length v * length w) := by
    rw [← length_mul_self v, ← length_mul_self w, ← abs_mul_abs_self c]
    ring
  have hnonneg : 0 ≤ |c| * length v * length w :=
    mul_nonneg (mul_nonneg (abs_nonneg c) (length_nonneg v)) (length_nonneg w)
  rw [hsquare]
  exact (mul_self_le_mul_self_iff hnonneg hx.le).symm

/-! ## The test -/

/-- What the test accepts: entities in range and in front, within the angle. -/
theorem inCone_iff (hdir : direction ≠ ⟨0, 0, 0⟩) (hrange : 0 ≤ range) :
    inCone origin direction range cosHalfAngle pos = true ↔ length (sub pos origin) ≤ range ∧
      0 < dot (sub pos origin) direction ∧
      |cosHalfAngle| * length (sub pos origin) * length direction ≤ dot (sub pos origin) direction := by
  have hdir2 : norm2 direction ≠ 0 := fun h => hdir (norm2_eq_zero_iff.mp h)
  unfold inCone
  dsimp only
  split
  · next hfar =>
    have hout : ¬ length (sub pos origin) ≤ range := fun h =>
      absurd ((norm2_le_iff hrange _).mpr h) (not_le.mpr hfar)
    simp [hout]
  · next hnear =>
    have hin := (norm2_le_iff hrange _).mp (not_lt.mp hnear)
    split
    · next hbehind => simp [not_lt.mpr hbehind]
    · next hfront =>
      have hpos := not_le.mp hfront
      rw [if_neg (by simpa using hdir2), decide_eq_true_eq, squares_le_iff hpos]
      simp [hin, hpos]

/-- For an offset of positive length the comparisons differ only behind the origin and in the opposite cone. -/
theorem comparisons_agree_iff {m : ℝ} (hm : 0 < m) (c x : ℝ) :
    (0 < x ∧ |c| * m ≤ x ↔ c * m ≤ x) ↔ 0 < c ∨ x < c * m ∨ (0 < x ∧ -c * m ≤ x) := by
  rcases lt_or_ge 0 c with hc | hc
  · have hpos : 0 < c * m := mul_pos hc hm
    rw [abs_of_pos hc]
    exact iff_of_true ⟨And.right, fun h => ⟨hpos.trans_le h, h⟩⟩ (Or.inl hc)
  · have hneg : c * m ≤ 0 := mul_nonpos_of_nonpos_of_nonneg hc hm.le
    rw [abs_of_nonpos hc]
    by_cases hx : c * m ≤ x
    · simp [hx, not_lt.mpr hc, not_lt.mpr hx]
    · have hout : ¬ 0 < x := fun hpos => hx (hneg.trans hpos.le)
      simp [hx, hout, not_le.mp hx]

/-- The test agrees with the geometric one exactly on the testable entities. -/
theorem inCone_geometric_iff (hdir : direction ≠ ⟨0, 0, 0⟩) (hrange : 0 ≤ range) :
    (inCone origin direction range cosHalfAngle pos = true ↔
      InGeometricCone origin direction range cosHalfAngle pos) ↔
    ConeTestable origin direction range cosHalfAngle pos := by
  have hgeom : InGeometricCone origin direction range cosHalfAngle pos ↔ length (sub pos origin) ≤ range ∧
      cosHalfAngle * length (sub pos origin) * length direction ≤ dot (sub pos origin) direction :=
    ⟨fun h => ⟨h.near, h.angle⟩, fun h => ⟨h.1, h.2⟩⟩
  rw [inCone_iff hdir hrange, hgeom]
  unfold ConeTestable
  simp only [mul_assoc]
  by_cases hnear : length (sub pos origin) ≤ range
  · rw [and_iff_right hnear, and_iff_right hnear, or_iff_right (not_lt.mpr hnear)]
    by_cases hpos : pos = origin
    · have hzero : sub pos origin = ⟨0, 0, 0⟩ := sub_eq_zero_iff.mpr hpos
      rw [hzero]
      simp [hpos, dot, length, norm2]
    · have hm : 0 < length (sub pos origin) * length direction :=
        mul_pos (length_pos_iff.mpr fun h => hpos (sub_eq_zero_iff.mp h)) (length_pos_iff.mpr hdir)
      rw [comparisons_agree_iff hm, and_iff_right hpos]
  · simp [hnear, not_le.mp hnear]

/-- An entity straight ahead, in a cone of 60 degrees to each side. -/
theorem inCone_geometric_ahead :
    inCone ⟨0, 0, 0⟩ ⟨1, 0, 0⟩ (2 : ℝ) (1 / 2) ⟨1, 0, 0⟩ = true ↔
      InGeometricCone ⟨0, 0, 0⟩ ⟨1, 0, 0⟩ 2 (1 / 2) ⟨1, 0, 0⟩ := by
  refine (inCone_geometric_iff (by simp) (by norm_num)).mpr (Or.inr ⟨by simp, Or.inl (by norm_num)⟩)

/-- An entity behind the origin is refused by a cone that goes all the way round. -/
theorem behind_refused :
    inCone ⟨0, 0, 0⟩ ⟨1, 0, 0⟩ (2 : ℝ) (-1) ⟨-1, 0, 0⟩ = false ∧
      InGeometricCone ⟨0, 0, 0⟩ ⟨1, 0, 0⟩ 2 (-1) ⟨-1, 0, 0⟩ := by
  refine ⟨?_, ?_, ?_⟩
  · norm_num [inCone, sub, norm2, dot]
  · norm_num [length, sub, norm2, dot]
  · norm_num [length, sub, norm2, dot]

end AoiLP

end WarpSim

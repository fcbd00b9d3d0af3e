import WarpSim.Library.Mixing
import WarpSim.Model.Random

/-! # Random numbers

Draws that differ in one key differ, and a draw from a range is in the range unless the range is all of the
64-bit words. -/

namespace WarpSim

/-! ## No collisions -/

theorem splitmix64_injective : Function.Injective splitmix64 := by
  have hadd : Function.Injective fun x : UInt64 => x + 0x9e3779b97f4a7c15 :=
    fun x y h => (UInt64.add_left_inj _).mp h
  have hfirst : Function.Injective fun x : UInt64 => (x ^^^ (x >>> 30)) * 0xbf58476d1ce4e5b9 :=
    (mul_unit_injective (b := 0x96de1b173f119089) (by decide)).comp (xorShift_injective_word (by decide))
  have hsecond : Function.Injective fun x : UInt64 => (x ^^^ (x >>> 27)) * 0x94d049bb133111eb :=
    (mul_unit_injective (b := 0x319642b2d24d8ec3) (by decide)).comp (xorShift_injective_word (by decide))
  have hlast : Function.Injective fun x : UInt64 => x ^^^ (x >>> 31) := xorShift_injective_word (by decide)
  exact hlast.comp (hsecond.comp (hfirst.comp hadd))

theorem mixU64_injective_left (b : UInt64) : Function.Injective fun a => mixU64 a b :=
  splitmix64_injective.comp (xor_left_injective (splitmix64 b))

theorem mixU64_injective_right (a : UInt64) : Function.Injective fun b => mixU64 a b :=
  splitmix64_injective.comp ((xor_right_injective a).comp splitmix64_injective)

/-- What is drawn with these keys. -/
def drawn (seed : UInt64) (keys : List UInt64) : UInt64 := splitmix64 (keys.foldl mixU64 seed)

theorem drawn_injective (keys : List UInt64) : Function.Injective fun seed => drawn seed keys :=
  splitmix64_injective.comp (foldl_mix_injective mixU64_injective_left keys)

theorem drawn_injective_key (seed : UInt64) (before after : List UInt64) :
    Function.Injective fun key => drawn seed (before ++ key :: after) :=
  splitmix64_injective.comp
    (foldl_mix_injective_key mixU64_injective_left mixU64_injective_right seed before after)

theorem rngU64_eq (seed : UInt64) (lp : LPId) (stream : UInt32) (eventUid : EventUid) (draw : UInt32) :
    rngU64 seed lp stream eventUid draw =
      drawn seed [lp.toUInt64, stream.toUInt64, eventUid, draw.toUInt64] := rfl

theorem rngU64From_eq (seed : UInt64) (lp : LPId) (stream : UInt32) (eventSrc : LPId) (eventUid : EventUid)
    (draw : UInt32) : rngU64From seed lp stream eventSrc eventUid draw =
      drawn seed [lp.toUInt64, stream.toUInt64, eventSrc.toUInt64, eventUid, draw.toUInt64] := rfl

theorem toUInt64_injective : Function.Injective UInt32.toUInt64 := by
  intro x y h
  have hnat := congrArg UInt64.toNat h
  simpa [UInt32.toNat_inj] using hnat

/-- `splitmix64` is a bijection, mixing is one in both arguments, and all draws are injective in each of their
arguments. -/
theorem draws_injective :
    Function.Bijective splitmix64 ∧
    (∀ b, Function.Bijective fun a => mixU64 a b) ∧ (∀ a, Function.Bijective fun b => mixU64 a b) ∧
    (∀ lp stream uid draw, Function.Injective fun seed => rngU64 seed lp stream uid draw) ∧
    (∀ seed stream uid draw, Function.Injective fun lp => rngU64 seed lp stream uid draw) ∧
    (∀ seed lp uid draw, Function.Injective fun stream => rngU64 seed lp stream uid draw) ∧
    (∀ seed lp stream draw, Function.Injective fun uid => rngU64 seed lp stream uid draw) ∧
    (∀ seed lp stream uid, Function.Injective fun draw => rngU64 seed lp stream uid draw) ∧
    (∀ lp stream src uid draw, Function.Injective fun seed => rngU64From seed lp stream src uid draw) ∧
    (∀ seed stream src uid draw, Function.Injective fun lp => rngU64From seed lp stream src uid draw) ∧
    (∀ seed lp src uid draw, Function.Injective fun stream => rngU64From seed lp stream src uid draw) ∧
    (∀ seed lp stream uid draw, Function.Injective fun src => rngU64From seed lp stream src uid draw) ∧
    (∀ seed lp stream src draw, Function.Injective fun uid => rngU64From seed lp stream src uid draw) ∧
    ∀ seed lp stream src uid, Function.Injective fun draw => rngU64From seed lp stream src uid draw := by
  refine ⟨Finite.injective_iff_bijective.mp splitmix64_injective,
    fun b => Finite.injective_iff_bijective.mp (mixU64_injective_left b),
    fun a => Finite.injective_iff_bijective.mp (mixU64_injective_right a),
    ?_, ?_, ?_, ?_, ?_, ?_, ?_, ?_, ?_, ?_, ?_⟩
  all_goals simp only [rngU64_eq, rngU64From_eq]
  · intro lp stream uid draw
    exact drawn_injective _
  · intro seed stream uid draw
    exact (drawn_injective_key seed [] _).comp toUInt64_injective
  · intro seed lp uid draw
    exact (drawn_injective_key seed [lp.toUInt64] _).comp toUInt64_injective
  · intro seed lp stream draw
    exact drawn_injective_key seed [lp.toUInt64, stream.toUInt64] _
  · intro seed lp stream uid
    exact (drawn_injective_key seed [lp.toUInt64, stream.toUInt64, uid] _).comp toUInt64_injective
  · intro lp stream src uid draw
    exact drawn_injective _
  · intro seed stream src uid draw
    exact (drawn_injective_key seed [] _).comp toUInt64_injective
  · intro seed lp src uid draw
    exact (drawn_injective_key seed [lp.toUInt64] _).comp toUInt64_injective
  · intro seed lp stream uid draw
    exact (drawn_injective_key seed [lp.toUInt64, stream.toUInt64] _).comp toUInt64_injective
  · intro seed lp stream src draw
    exact drawn_injective_key seed [lp.toUInt64, stream.toUInt64, src.toUInt64] _
  · intro seed lp stream src uid
    exact (drawn_injective_key seed [lp.toUInt64, stream.toUInt64, src.toUInt64, uid] _).comp
      toUInt64_injective

/-! ## Ranges -/

/-- The draw returns, and what it returns is in the range. -/
def DrawsWithin (lo hi : UInt64) (drawn : Option UInt64) : Prop := ∃ v, drawn = some v ∧ lo ≤ v ∧ v ≤ hi

theorem span_eq_zero_iff {lo hi : UInt64} (h : lo ≤ hi) :
    (hi - lo) + 1 = 0 ↔ lo = 0 ∧ hi = 0xffffffffffffffff := by
  have hlo := lo.toNat_lt
  have hhi := hi.toNat_lt
  have hle := UInt64.le_iff_toNat_le.mp h
  have hsub := UInt64.toNat_sub_of_le hi lo h
  rw [← UInt64.toNat_inj, ← UInt64.toNat_inj, ← UInt64.toNat_inj, UInt64.toNat_add, hsub]
  simp only [UInt64.reduceToNat]
  omega

/-- A draw from a range fails exactly where the range is all of the words. -/
theorem inRange_within_iff {lo hi : UInt64} (h : lo ≤ hi) (r : UInt64) :
    DrawsWithin lo hi (inRange lo hi r) ↔ ¬ (lo = 0 ∧ hi = 0xffffffffffffffff) := by
  rw [← span_eq_zero_iff h]
  unfold inRange checkedMod
  by_cases hspan : (hi - lo) + 1 = 0
  · simp [DrawsWithin, hspan]
  · simp only [hspan, if_false, Option.map_some, not_false_eq_true, iff_true]
    refine ⟨_, rfl, ?_⟩
    have hhi := hi.toNat_lt
    have hle := UInt64.le_iff_toNat_le.mp h
    have hsub := UInt64.toNat_sub_of_le hi lo h
    have hpos : 0 < ((hi - lo) + 1).toNat := by
      rw [Nat.pos_iff_ne_zero]
      exact fun hzero => hspan (UInt64.toNat_inj.mp hzero)
    have hlt : (r % ((hi - lo) + 1)).toNat < ((hi - lo) + 1).toNat := by
      rw [UInt64.toNat_mod]
      exact Nat.mod_lt _ hpos
    have hadd := UInt64.toNat_add (hi - lo) 1
    have hsum := UInt64.toNat_add lo (r % ((hi - lo) + 1))
    rw [hsub] at hadd
    simp only [UInt64.reduceToNat] at hadd
    rw [UInt64.le_iff_toNat_le, UInt64.le_iff_toNat_le, hsum]
    omega

/-- All three functions draw a number from the range if and only if the range is not that of all words. -/
theorem rngU64Range_within_iff (seed : UInt64) (lp : LPId) (stream : UInt32) (ev : Event) {lo hi : UInt64}
    (h : lo ≤ hi) (draw : UInt32) :
    (DrawsWithin lo hi (rngU64Range seed lp stream ev.uid lo hi draw) ↔
      ¬ (lo = 0 ∧ hi = 0xffffffffffffffff)) ∧
    (DrawsWithin lo hi (rngU64RangeFrom seed lp stream ev.src ev.uid lo hi draw) ↔
      ¬ (lo = 0 ∧ hi = 0xffffffffffffffff)) ∧
    (DrawsWithin lo hi (Modeling.rngU64Range seed lp ev stream lo hi draw) ↔
      ¬ (lo = 0 ∧ hi = 0xffffffffffffffff)) :=
  ⟨inRange_within_iff h _, inRange_within_iff h _, inRange_within_iff h _⟩

/-- A die. -/
theorem rngU64Range_within_die :
    DrawsWithin 1 6 (rngU64Range 42 1 0 7 1 6 0) ∧ DrawsWithin 1 6 (rngU64RangeFrom 42 1 0 2 7 1 6 0) ∧
      DrawsWithin 1 6 (Modeling.rngU64Range 42 1 { src := 2, uid := 7 } 0 1 6 0) := by
  have hrange : (1 : UInt64) ≤ 6 := by decide
  obtain ⟨hplain, hfrom, hmodel⟩ := rngU64Range_within_iff 42 1 0 { src := 2, uid := 7 } hrange 0
  exact ⟨hplain.mpr (by decide), hfrom.mpr (by decide), hmodel.mpr (by decide)⟩

/-- The full range leads to a division by zero. -/
theorem full_range_undefined :
    rngU64Range 42 1 0 7 0 0xffffffffffffffff 0 = none ∧
      rngU64RangeFrom 42 1 0 2 7 0 0xffffffffffffffff 0 = none ∧
      Modeling.rngU64Range 42 1 { src := 2, uid := 7 } 0 0 0xffffffffffffffff 0 = none := by
  decide

end WarpSim

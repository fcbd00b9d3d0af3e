import Mathlib

/-! # Mixing words

Xor with a shifted copy and multiplication by a unit are injective on words, and a value that is mixed into a
word once and for all times after that is not lost. -/

namespace WarpSim

/-! ## Single steps -/

/-- A bit of `x ^^^ (x >>> k)` and a higher bit of `x` tell the bit of `x`. -/
theorem xorShift_injective {w k : ℕ} (hk : 0 < k) :
    Function.Injective fun x : BitVec w => x ^^^ (x >>> k) := by
  intro x y h
  have hbits : ∀ n i, w ≤ i + n → x.getLsbD i = y.getLsbD i := by
    intro n
    induction n with
    | zero =>
        intro i hi
        rw [BitVec.getLsbD_of_ge x i hi, BitVec.getLsbD_of_ge y i hi]
    | succ n ih =>
        intro i hi
        have hhigh := ih (k + i) (by omega)
        have hbit := congrArg (fun z => z.getLsbD i) h
        simpa [hhigh] using hbit
  apply BitVec.eq_of_getLsbD_eq
  intro i hi
  exact hbits w i (by omega)

theorem xorShift_injective_word {k : UInt64} (hk : 0 < k.toNat % 64) :
    Function.Injective fun x : UInt64 => x ^^^ (x >>> k) := by
  intro x y h
  apply UInt64.toBitVec_inj.mp
  apply xorShift_injective hk
  have hbits := congrArg UInt64.toBitVec h
  simpa using hbits

theorem mul_unit_injective {α : Type*} [Monoid α] {a b : α} (hab : a * b = 1) :
    Function.Injective fun x : α => x * a := by
  intro x y h
  have hxy := congrArg (· * b) h
  simpa [mul_assoc, hab] using hxy

theorem xor_left_injective (b : UInt64) : Function.Injective fun a : UInt64 => a ^^^ b := by
  intro x y h
  simpa using h

theorem xor_right_injective (a : UInt64) : Function.Injective fun b : UInt64 => a ^^^ b := by
  intro x y h
  simpa using h

instance finiteUInt64 : Finite UInt64 := Finite.of_injective UInt64.toFin fun _ _ => UInt64.toFin_inj.mp

/-! ## Rounds -/

section

variable {α : Type*} {mix : α → α → α}

/-- Mixing in more values loses nothing of the word. -/
theorem foldl_mix_injective (hleft : ∀ b, Function.Injective fun a => mix a b) (keys : List α) :
    Function.Injective fun a => keys.foldl mix a := by
  induction keys with
  | nil => exact fun _ _ h => h
  | cons b keys ih => exact ih.comp (hleft b)

/-- Nor of any of the values. -/
theorem foldl_mix_injective_key (hleft : ∀ b, Function.Injective fun a => mix a b)
    (hright : ∀ a, Function.Injective fun b => mix a b) (a : α) (before after : List α) :
    Function.Injective fun b => (before ++ b :: after).foldl mix a := by
  intro x y h
  simp only [List.foldl_append, List.foldl_cons] at h
  exact hright _ (foldl_mix_injective hleft after h)

end

end WarpSim

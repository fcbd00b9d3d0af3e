import Mathlib

/-! # Virtual time stamps -/

namespace WarpSim

/-- A virtual time refined by a sequence number. -/
structure TimeStamp where
  time : UInt64 := 0
  sequence : UInt64 := 0
deriving DecidableEq

namespace TimeStamp

/-- The position of a stamp among all `2 ^ 128` stamps. -/
def key (t : TimeStamp) : ℕ := t.time.toNat * 2 ^ 64 + t.sequence.toNat

theorem key_injective : Function.Injective key := by
  intro a b h
  have ha := a.sequence.toNat_lt
  have hb := b.sequence.toNat_lt
  simp only [key] at h
  cases a
  cases b
  simp only [mk.injEq, ← UInt64.toNat_inj] at *
  omega

instance : LinearOrder TimeStamp := LinearOrder.lift' key key_injective

theorem lt_iff_key {a b : TimeStamp} : a < b ↔ a.key < b.key := Iff.rfl

theorem le_iff_key {a b : TimeStamp} : a ≤ b ↔ a.key ≤ b.key := Iff.rfl

/-- The order on stamps is the lexicographic one of `operator<`. -/
theorem lt_iff {a b : TimeStamp} :
    a < b ↔ a.time < b.time ∨ (a.time = b.time ∧ a.sequence < b.sequence) := by
  have ha := a.sequence.toNat_lt
  have hb := b.sequence.toNat_lt
  rw [lt_iff_key, UInt64.lt_iff_toNat_lt, UInt64.lt_iff_toNat_lt, ← UInt64.toNat_inj]
  simp only [key]
  omega

theorem key_lt (t : TimeStamp) : t.key < 2 ^ 128 := by
  have h₁ := t.time.toNat_lt
  have h₂ := t.sequence.toNat_lt
  simp only [key]
  omega

theorem zero_le (t : TimeStamp) : (⟨0, 0⟩ : TimeStamp) ≤ t := by
  rw [le_iff_key]
  simp [key]

theorem time_lt_or_eq {a b : TimeStamp} (h : a ≤ b) : a.time < b.time ∨ a.time = b.time := by
  rcases lt_or_eq_of_le h with hlt | heq
  · exact (lt_iff.mp hlt).imp_right And.left
  · exact Or.inr (congrArg time heq)

end TimeStamp

/-- The largest stamp with the given time. -/
def stampAtMaxSequence (time : UInt64) : TimeStamp := ⟨time, -1⟩

/-- The stamp just before `ts`; the first stamp is its own predecessor. -/
def prevStamp (ts : TimeStamp) : TimeStamp :=
  if ts.sequence > 0 then ⟨ts.time, ts.sequence - 1⟩
  else if ts.time = 0 then ⟨0, 0⟩
  else stampAtMaxSequence (ts.time - 1)

/-- The all-ones stamp. -/
def maxStamp : TimeStamp := ⟨-1, -1⟩

def minStamp (a b : TimeStamp) : TimeStamp := if b < a then b else a

theorem minStamp_eq_min (a b : TimeStamp) : minStamp a b = min a b := by
  unfold minStamp
  split
  · exact (min_eq_right (le_of_lt ‹_›)).symm
  · exact (min_eq_left (not_lt.mp ‹_›)).symm

theorem le_maxStamp (t : TimeStamp) : t ≤ maxStamp := by
  have h := t.key_lt
  rw [TimeStamp.le_iff_key]
  have hm : maxStamp.key = 2 ^ 128 - 1 := by decide
  omega

theorem key_prevStamp (ts : TimeStamp) : (prevStamp ts).key = ts.key - 1 := by
  obtain ⟨time, sequence⟩ := ts
  unfold prevStamp
  split
  · next h =>
    have hs : sequence.toNat ≠ 0 := by
      have := UInt64.lt_iff_toNat_lt.mp h
      simpa using Nat.ne_of_gt this
    have hsub : (sequence - 1).toNat = sequence.toNat - 1 := by
      rw [UInt64.toNat_sub_of_le]
      · simp
      · rw [UInt64.le_iff_toNat_le]
        simpa using Nat.one_le_iff_ne_zero.mpr hs
    simp only [TimeStamp.key, hsub]
    omega
  · next h =>
    have hs : sequence = 0 := by
      have : ¬ (0 : UInt64) < sequence := h
      rw [UInt64.lt_iff_toNat_lt] at this
      rw [← UInt64.toNat_inj]
      simpa using this
    subst hs
    split
    · next ht =>
      simp only at ht
      subst ht
      decide
    · next ht =>
      have ht' : time.toNat ≠ 0 := fun h0 => ht (UInt64.toNat_inj.mp (by simpa using h0))
      have hsub : (time - 1).toNat = time.toNat - 1 := by
        rw [UInt64.toNat_sub_of_le]
        · simp
        · rw [UInt64.le_iff_toNat_le]
          simpa using Nat.one_le_iff_ne_zero.mpr ht'
      have hmax : (-1 : UInt64).toNat = 2 ^ 64 - 1 := by decide
      simp only [TimeStamp.key, stampAtMaxSequence, hsub, hmax, UInt64.toNat_zero]
      omega

theorem prevStamp_le (ts : TimeStamp) : prevStamp ts ≤ ts := by
  rw [TimeStamp.le_iff_key, key_prevStamp]
  omega

/-- No stamp lies strictly between a stamp and its predecessor. -/
theorem le_prevStamp_of_lt {a ts : TimeStamp} (h : a < ts) : a ≤ prevStamp ts := by
  rw [TimeStamp.lt_iff_key] at h
  rw [TimeStamp.le_iff_key, key_prevStamp]
  omega

end WarpSim

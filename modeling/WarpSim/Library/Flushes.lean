import Mathlib

/-! # Output in flushes

What has been delivered by several flushes, each of them sorted, is sorted as a whole when the flushes are
separated by a bound that only rises. -/

namespace WarpSim

variable {ι τ : Type*} [LinearOrder τ]

/-- The elements have been delivered once each, in the order of their keys, and all before the bound. -/
structure Delivered (stamp : ι → τ) (key : ι → ℕ) (items : Multiset ι) (bound : τ) (out : List ι) : Prop where
  exact : (out : Multiset ι) = items
  sorted : out.Pairwise fun a b => key a ≤ key b
  below : ∀ i ∈ out, stamp i < bound

variable {stamp : ι → τ} {key : ι → ℕ} {items : Multiset ι} {bound bound' : τ} {out : List ι}

theorem Delivered.nil : Delivered stamp key 0 bound [] := ⟨rfl, .nil, by simp⟩

/-- One more flush. -/
theorem Delivered.flush (h : Delivered stamp key items bound out) (hkey : ∀ a b, stamp a < stamp b → key a ≤ key b)
    (hle : bound ≤ bound') {more : List ι} (hmore : ∀ i ∈ more, bound ≤ stamp i ∧ stamp i < bound')
    (hsorted : more.Pairwise fun a b => key a ≤ key b) :
    Delivered stamp key (items + more) bound' (out ++ more) := by
  refine ⟨?_, ?_, fun i hi => ?_⟩
  · rw [← Multiset.coe_add, h.exact]
  · rw [List.pairwise_append]
    refine ⟨h.sorted, hsorted, fun a ha b hb => hkey a b ?_⟩
    exact (h.below a ha).trans_le (hmore b hb).1
  · rcases List.mem_append.mp hi with hi | hi
    · exact (h.below i hi).trans_le hle
    · exact (hmore i hi).2

/-- Sorting by a relation that compares keys. -/
theorem pairwise_insertionSort_key {r : ι → ι → Prop} [DecidableRel r] (hr : ∀ a b, r a b ↔ key a ≤ key b)
    (l : List ι) : (l.insertionSort r).Pairwise fun a b => key a ≤ key b := by
  have : Std.Total r := ⟨fun a b => by simpa only [hr] using le_total (key a) (key b)⟩
  have : IsTrans ι r := ⟨fun a b c => by simpa only [hr] using le_trans⟩
  exact (List.pairwise_insertionSort r l).imp fun h => (hr _ _).mp h

end WarpSim

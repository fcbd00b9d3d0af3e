import Mathlib

/-! # Scans from the end of a list

A scan that stops at the first element without a property finds all elements with the property if and
only if no element without it comes after one with it. -/

namespace List

variable {α : Type*} {p : α → Bool}

theorem rtakeWhile_sublist_filter (p : α → Bool) (l : List α) : (l.rtakeWhile p).Sublist (l.filter p) := by
  have hself : (l.rtakeWhile p).filter p = l.rtakeWhile p :=
    filter_eq_self.mpr fun _ ha => mem_rtakeWhile_imp ha
  rw [← hself]
  exact (rtakeWhile_suffix p l).sublist.filter p

theorem rtakeWhile_eq_filter_iff {l : List α} :
    l.rtakeWhile p = l.filter p ↔ l.Pairwise fun a b => p a → p b := by
  induction l using reverseRecOn with
  | nil => simp
  | append_singleton l a ih =>
      rw [filter_append, pairwise_append]
      by_cases ha : p a
      · simp [ha, ih]
      · have hl : l.Pairwise (fun a b => p a → p b) ∧ (∀ b ∈ l, ¬ p b) ↔ ∀ b ∈ l, ¬ p b :=
          ⟨And.right, fun h => ⟨pairwise_of_forall_mem_list fun b hb _ _ hp => absurd hp (h b hb), h⟩⟩
        simp only [rtakeWhile_concat_neg _ _ _ ha, filter_cons_of_neg ha, filter_nil, append_nil,
          eq_comm (a := ([] : List α)), filter_eq_nil_iff]
        simpa [ha] using hl.symm

/-- The scan finds the last part of a list, all of which has the property, in a log that lacks only elements
without it. -/
theorem rtakeWhile_of_append {l l' gone log : List α} (h : l ++ l' = gone ++ log) (hgone : ∀ a ∈ gone, ¬ p a)
    (hl : ∀ a ∈ l, ¬ p a) (hl' : ∀ a ∈ l', p a) : log.rtakeWhile p = l' := by
  have hordered : (l ++ l').Pairwise fun a b => p a → p b := by
    rw [pairwise_append]
    exact ⟨pairwise_of_forall_mem_list fun a ha _ _ hp => absurd hp (hl a ha),
      pairwise_of_forall_mem_list fun _ _ b hb _ => hl' b hb, fun a ha b _ hp => absurd hp (hl a ha)⟩
  have hfilter := congrArg (filter p) h
  rw [filter_append, filter_append, filter_eq_nil_iff.mpr hl, filter_eq_nil_iff.mpr hgone,
    filter_eq_self.mpr hl', nil_append, nil_append] at hfilter
  rw [h] at hordered
  rw [rtakeWhile_eq_filter_iff.mpr (pairwise_append.mp hordered).2.1, hfilter]

/-- A log is the end of what is to be remembered of the elements of `l`. The scan of the log finds the
elements with the property if and only if all of these are in the log and the log is in order. -/
theorem rtakeWhile_perm_iff {β γ : Type*} {q : β → Bool} {f : β → α} (g : α → γ) {l : List β} {log : List α}
    (hlog : log <:+ l.map f) (hq : ∀ b, q b = p (f b)) :
    ((log.rtakeWhile p).reverse.map g).Perm ((l.filter q).map fun b => g (f b)) ↔
      (∀ b ∈ l.rdrop log.length, ¬ q b) ∧ log.Pairwise fun a b => p a → p b := by
  obtain ⟨gone, hgone⟩ := hlog
  obtain ⟨old, new, rfl, -, hnew⟩ := map_eq_append_iff.mp hgone.symm
  have hlen : log.length = new.length := by rw [← hnew, length_map]
  have hfilter : log.filter p = (new.filter q).map f := by
    rw [← hnew, filter_map]
    congr 1
    exact filter_congr fun b _ => (hq b).symm
  rw [hlen, rdrop_append_length, filter_append]
  constructor
  · intro hperm
    -- the scan finds no more than the elements of the log
    have hscan := rtakeWhile_sublist_filter p log
    have hcount := hperm.length_eq
    have hle := hscan.length_le
    rw [hfilter] at hle
    simp only [length_map, length_reverse, length_append] at hcount hle
    have hnone : old.filter q = [] := length_eq_zero_iff.mp (by omega)
    have hall : log.rtakeWhile p = log.filter p :=
      hscan.eq_of_length (by rw [hfilter, length_map]; omega)
    exact ⟨filter_eq_nil_iff.mp hnone, rtakeWhile_eq_filter_iff.mp hall⟩
  · rintro ⟨hold, hordered⟩
    rw [rtakeWhile_eq_filter_iff.mpr hordered, hfilter, filter_eq_nil_iff.mpr hold, nil_append,
      map_reverse, map_map]
    exact reverse_perm _

end List

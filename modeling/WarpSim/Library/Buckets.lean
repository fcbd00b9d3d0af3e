import Mathlib

/-! # Lists of buckets

A map from keys to lists of elements, kept as a list of entries. -/

namespace WarpSim

namespace Buckets

variable {κ β : Type} {key : β → κ} {t : List (κ × List β)}

/-- Append an element to the bucket of its key. -/
def add [DecidableEq κ] (k : κ) (b : β) (t : List (κ × List β)) : List (κ × List β) :=
  match t.lookup k with
  | none => t ++ [(k, [b])]
  | some _ => t.map fun entry => if entry.1 = k then (k, entry.2 ++ [b]) else entry

/-- Every element. -/
def elements (t : List (κ × List β)) : List β := t.flatMap Prod.snd

/-- There is one bucket for each key in use, and every element is in the bucket of its key. -/
structure Filed (key : β → κ) (t : List (κ × List β)) : Prop where
  nodup : (t.map Prod.fst).Nodup
  filed : ∀ entry ∈ t, ∀ b ∈ entry.2, key b = entry.1
  used : ∀ entry ∈ t, entry.2 ≠ []

theorem filed_nil : Filed key [] := ⟨by simp, by simp, by simp⟩

theorem Filed.tail {entry : κ × List β} (h : Filed key (entry :: t)) : Filed key t where
  nodup := (List.nodup_cons.mp h.nodup).2
  filed e he := h.filed e (List.mem_cons_of_mem _ he)
  used e he := h.used e (List.mem_cons_of_mem _ he)

/-- No element of the other buckets has the key of the first one. -/
theorem Filed.fresh {entry : κ × List β} (h : Filed key (entry :: t)) :
    ∀ b ∈ elements t, key b ≠ entry.1 := by
  intro b hb heq
  obtain ⟨e, he, hbe⟩ := List.mem_flatMap.mp hb
  have hkey : key b = e.1 := h.filed e (List.mem_cons_of_mem _ he) b hbe
  apply (List.nodup_cons.mp h.nodup).1
  exact List.mem_map.mpr ⟨e, he, hkey.symm.trans heq⟩

/-- The buckets are empty only when there are none. -/
theorem Filed.elements_eq_nil_iff (h : Filed key t) : elements t = [] ↔ t = [] := by
  refine ⟨fun hnil => ?_, fun hnil => by rw [hnil]; rfl⟩
  cases t with
  | nil => rfl
  | cons entry t =>
      have := List.flatMap_eq_nil_iff.mp hnil entry (List.mem_cons_self ..)
      exact absurd this (h.used entry (List.mem_cons_self ..))

variable [DecidableEq κ]

/-- A bucket holds the elements with its key. -/
theorem Filed.lookup (h : Filed key t) (k : κ) :
    (t.lookup k).getD [] = (elements t).filter (fun b => key b = k) := by
  induction t with
  | nil => rfl
  | cons entry t ih =>
      have hfirst : ∀ b ∈ entry.2, key b = entry.1 := h.filed entry (List.mem_cons_self ..)
      have hlookup : (entry :: t).lookup k = if k = entry.1 then some entry.2 else t.lookup k := by
        rw [List.lookup_cons]
        by_cases hk : k = entry.1
        · simp [hk]
        · simp [hk, beq_false_of_ne hk]
      rw [elements, List.flatMap_cons, List.filter_append, ← elements, ← ih h.tail, hlookup]
      by_cases hk : k = entry.1
      · have hrest : (t.lookup k).getD [] = [] := by
          rw [ih h.tail, List.filter_eq_nil_iff]
          intro b hb
          simpa [hk] using h.fresh b hb
        have hall : entry.2.filter (fun b => key b = k) = entry.2 := by
          rw [List.filter_eq_self]
          intro b hb
          simpa [hk] using hfirst b hb
        rw [hrest, hall]
        simp [hk]
      · have hnone : entry.2.filter (fun b => key b = k) = [] := by
          rw [List.filter_eq_nil_iff]
          intro b hb
          simpa [hfirst b hb] using Ne.symm hk
        rw [hnone]
        simp [hk]

/-- Without the bucket of a key, the elements with other keys are left. -/
theorem Filed.elements_erase (h : Filed key t) (k : κ) :
    elements (t.filter fun entry => entry.1 ≠ k) = (elements t).filter (fun b => key b ≠ k) := by
  induction t with
  | nil => rfl
  | cons entry t ih =>
      have hfirst : ∀ b ∈ entry.2, key b = entry.1 := h.filed entry (List.mem_cons_self ..)
      have hsplit : elements (entry :: t) = entry.2 ++ elements t := List.flatMap_cons
      rw [hsplit, List.filter_append, ← ih h.tail, List.filter_cons]
      by_cases hk : entry.1 = k
      · have hnone : entry.2.filter (fun b => key b ≠ k) = [] := by
          rw [List.filter_eq_nil_iff]
          intro b hb
          simp [hfirst b hb, hk]
        rw [hnone]
        simp [hk]
      · have hall : entry.2.filter (fun b => key b ≠ k) = entry.2 := by
          rw [List.filter_eq_self]
          intro b hb
          simpa [hfirst b hb] using hk
        rw [hall]
        simp [hk, elements]

theorem Filed.erase (h : Filed key t) (k : κ) : Filed key (t.filter fun entry => entry.1 ≠ k) where
  nodup := h.nodup.sublist (List.filter_sublist.map _)
  filed entry he := h.filed entry (List.mem_filter.mp he).1
  used entry he := h.used entry (List.mem_filter.mp he).1

theorem Filed.add (h : Filed key t) (b : β) : Filed key (add (key b) b t) := by
  unfold Buckets.add
  cases hlookup : t.lookup (key b) with
  | none =>
      have hnew : key b ∉ t.map Prod.fst := by
        intro hmem
        obtain ⟨entry, he, heq⟩ := List.mem_map.mp hmem
        have := List.lookup_eq_none_iff.mp hlookup entry he
        simp [heq] at this
      refine ⟨?_, ?_, ?_⟩
      · rw [List.map_append]
        exact List.Nodup.append h.nodup (by simp) (by simpa using hnew)
      · intro entry he c hc
        rcases List.mem_append.mp he with he | he
        · exact h.filed entry he c hc
        · simp only [List.mem_singleton] at he
          subst he
          rw [List.mem_singleton.mp hc]
      · intro entry he
        rcases List.mem_append.mp he with he | he
        · exact h.used entry he
        · simp only [List.mem_singleton] at he
          simp [he]
  | some q =>
      dsimp only
      have hkeys : (t.map fun entry => if entry.1 = key b then (key b, entry.2 ++ [b]) else entry).map
          Prod.fst = t.map Prod.fst := by
        rw [List.map_map]
        apply List.map_congr_left
        intro entry _
        by_cases hk : entry.1 = key b <;> simp [hk]
      refine ⟨by rw [hkeys]; exact h.nodup, ?_, ?_⟩
      · intro entry hentry c hc
        obtain ⟨e, he, rfl⟩ := List.mem_map.mp hentry
        by_cases hk : e.1 = key b
        · rw [if_pos hk] at hc ⊢
          rcases List.mem_append.mp hc with hc | hc
          · exact (h.filed e he c hc).trans hk
          · rw [List.mem_singleton.mp hc]
        · rw [if_neg hk] at hc ⊢
          exact h.filed e he c hc
      · intro entry hentry
        obtain ⟨e, he, rfl⟩ := List.mem_map.mp hentry
        by_cases hk : e.1 = key b
        · simp [hk]
        · rw [if_neg hk]
          exact h.used e he

theorem elements_add_perm (h : Filed key t) (b : β) :
    (elements (add (key b) b t)).Perm (b :: elements t) := by
  unfold Buckets.add
  cases hlookup : t.lookup (key b) with
  | none => simp [elements]
  | some q =>
      dsimp only
      induction t with
      | nil => simp at hlookup
      | cons entry t ih =>
          by_cases hk : entry.1 = key b
          · have hrest : t.map (fun e => if e.1 = key b then (key b, e.2 ++ [b]) else e) = t := by
              conv_rhs => rw [← List.map_id t]
              apply List.map_congr_left
              intro e he
              have hne : e.1 ≠ key b := by
                intro heq
                apply (List.nodup_cons.mp h.nodup).1
                exact List.mem_map.mpr ⟨e, he, heq.trans hk.symm⟩
              simp [hne]
            rw [List.map_cons, if_pos hk, hrest]
            simp only [elements, List.flatMap_cons, List.append_assoc]
            exact List.perm_middle
          · have hlookup' : t.lookup (key b) = some q := by
              rwa [List.lookup_cons, beq_false_of_ne (Ne.symm hk)] at hlookup
            rw [List.map_cons, if_neg hk]
            have hih := ih h.tail hlookup'
            simp only [elements, List.flatMap_cons] at hih ⊢
            exact (hih.append_left entry.2).trans List.perm_middle

end Buckets

end WarpSim

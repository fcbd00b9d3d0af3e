import Mathlib
import WarpSim.Library.UndoLog

/-! # Sequential execution

Places have states of their own and send each other events, and each event is handled at its place. In a
sequential execution the earliest event that waits is always handled next. The histories of the places can be
put together to one if every event has been handled once, and all sends are to a later time. -/

namespace WarpSim

/-! ## Elements of several places -/

section

variable {α ι : Type*} {place : α → ι} {ids : List ι} {own : ι → List α}

/-- Of all elements those of one place are its own. -/
theorem List.filter_flatMap_own [DecidableEq ι] (hids : ids.Nodup) (hplace : ∀ i, ∀ a ∈ own i, place a = i)
    (hown : ∀ i, i ∉ ids → own i = []) (i : ι) : (ids.flatMap own).filter (place · = i) = own i := by
  have hself : (own i).filter (place · = i) = own i :=
    List.filter_eq_self.mpr fun a ha => decide_eq_true (hplace i a ha)
  have hother : ∀ j, j ≠ i → (own j).filter (place · = i) = [] := by
    intro j hj
    refine List.filter_eq_nil_iff.mpr fun a ha hat => hj ?_
    exact (hplace j a ha).symm.trans (of_decide_eq_true hat)
  by_cases hi : i ∈ ids
  · obtain ⟨before, after, rfl⟩ := List.append_of_mem hi
    obtain ⟨-, hafter, hdisjoint⟩ := List.nodup_append.mp hids
    have hnone : ∀ l : List ι, i ∉ l → (l.flatMap own).filter (place · = i) = [] := by
      intro l hl
      rw [List.filter_flatMap]
      refine List.flatMap_eq_nil_iff.mpr fun j hj => hother j ?_
      rintro rfl
      exact hl hj
    rw [List.flatMap_append, List.flatMap_cons, List.filter_append, List.filter_append, hself,
      hnone before fun hmem => hdisjoint i hmem i (by simp) rfl, hnone after (List.nodup_cons.mp hafter).1]
    simp
  · rw [hown i hi, List.filter_flatMap]
    refine List.flatMap_eq_nil_iff.mpr fun j hj => hother j ?_
    rintro rfl
    exact hi hj

theorem List.count_flatMap_own [DecidableEq α] (hids : ids.Nodup) (hplace : ∀ i, ∀ a ∈ own i, place a = i)
    (hown : ∀ i, i ∉ ids → own i = []) (a : α) : (ids.flatMap own).count a = (own (place a)).count a := by
  classical
  have hfilter := List.filter_flatMap_own hids hplace hown (place a)
  rw [← hfilter, List.count_filter (by simp)]

/-- A list is made up of the elements of its places. -/
theorem List.flatMap_filter_perm [DecidableEq ι] (hids : ids.Nodup) {l : List α} (hplace : ∀ a ∈ l, place a ∈ ids) :
    (ids.flatMap fun i => l.filter (place · = i)).Perm l := by
  classical
  refine List.perm_iff_count.mpr fun a => ?_
  have hown : ∀ i, i ∉ ids → l.filter (place · = i) = [] := by
    intro i hi
    refine List.filter_eq_nil_iff.mpr fun a ha hat => hi ?_
    exact of_decide_eq_true hat ▸ hplace a ha
  have hplaced : ∀ i, ∀ b ∈ l.filter (place · = i), place b = i := fun i b hb => by
    simpa using (List.mem_filter.mp hb).2
  rw [List.count_flatMap_own hids hplaced hown a, List.count_filter (by simp)]

/-- Elements that contribute nothing can be left out. -/
theorem List.flatMap_filter_of_nil {β : Type*} {p : α → Prop} [DecidablePred p] {l : List α} {f : α → List β}
    (hnone : ∀ a ∈ l, ¬ p a → f a = []) : (l.filter (p ·)).flatMap f = l.flatMap f := by
  induction l with
  | nil => rfl
  | cons a l ih =>
      have hrest := ih fun b hb => hnone b (List.mem_cons_of_mem _ hb)
      by_cases ha : p a
      · simp [ha, hrest]
      · simp [ha, hrest, hnone a List.mem_cons_self ha]

end

/-! ## Executions -/

/-- What the turns of an execution do: each handles one event and sends others. -/
structure EventSystem (α ι ε τ σ : Type*) where
  event : α → ε
  sends : α → List ε
  place : ε → ι
  time : ε → τ
  acts : α → σ → σ → Prop

namespace EventSystem

variable {α ι ε τ σ : Type*}

variable (S : EventSystem α ι ε τ σ)

/-- The turn handles an event at the place. -/
def At (i : ι) (t : α) : Prop := S.place (S.event t) = i

instance [DecidableEq ι] (i : ι) : DecidablePred (S.At i) := fun t =>
  inferInstanceAs (Decidable (S.place (S.event t) = i))

variable {S} {ids : List ι} {own : ι → List α}

variable [LinearOrder τ]

variable (S) in
/-- The first turn handles no later event than the second. -/
def NotAfter (a b : α) : Prop := S.time (S.event a) ≤ S.time (S.event b)

variable (S) in
instance : DecidableRel S.NotAfter := fun a b =>
  inferInstanceAs (Decidable (S.time (S.event a) ≤ S.time (S.event b)))

/-- The histories of the places, put together in the order of time. -/
def merged (S : EventSystem α ι ε τ σ) (ids : List ι) (own : ι → List α) : List α :=
  (ids.flatMap own).insertionSort S.NotAfter

theorem merged_perm : (S.merged ids own).Perm (ids.flatMap own) := List.perm_insertionSort ..

theorem pairwise_merged : (S.merged ids own).Pairwise S.NotAfter := by
  have : Std.Total S.NotAfter := ⟨fun a b => le_total (S.time (S.event a)) (S.time (S.event b))⟩
  have : IsTrans α S.NotAfter := ⟨fun _ _ _ => le_trans⟩
  exact List.pairwise_insertionSort ..

variable [DecidableEq ι]

variable (S) in
/-- From the first states and the first agenda to the last ones, the earliest event that waits is always
handled next. -/
inductive Runs : (ι → σ) → Multiset ε → List α → (ι → σ) → Multiset ε → Prop where
  | nil {states agenda} : Runs states agenda [] states agenda
  | cons {states others t turns state states' agenda'} :
      (∀ e ∈ others, S.time (S.event t) ≤ S.time e) → S.acts t (states (S.place (S.event t))) state →
      Runs (Function.update states (S.place (S.event t)) state) (others + S.sends t) turns states' agenda' →
      Runs states (S.event t ::ₘ others) (t :: turns) states' agenda'

variable (S) in
/-- The turns are in the order of their events, handle what is on the agenda and what they send to later times,
and lead each place from its first state to its last one. -/
structure Complete (states : ι → σ) (agenda : Multiset ε) (turns : List α) (final : ι → σ) : Prop where
  sorted : turns.Pairwise S.NotAfter
  later : ∀ t ∈ turns, ∀ e ∈ S.sends t, S.time (S.event t) < S.time e
  balanced : (turns.map S.event : Multiset ε) = agenda + (turns.flatMap S.sends : Multiset ε)
  trail : ∀ i, Trail S.acts (states i) (turns.filter (S.At i ·)) (final i)

namespace Complete

variable {states final : ι → σ} {agenda : Multiset ε} {turns : List α}

/-- Nothing is sent to the time of the first events. -/
theorem countP_first (h : S.Complete states agenda turns final) {p : ε → Prop} [DecidablePred p]
    (hp : ∀ e, p e → ∀ t ∈ turns, S.time e ≤ S.time (S.event t)) :
    (turns.map S.event : Multiset ε).countP p = agenda.countP p := by
  have hsends : (turns.flatMap S.sends : Multiset ε).countP p = 0 := by
    refine Multiset.countP_eq_zero.mpr fun e he hpe => ?_
    obtain ⟨t, ht, he⟩ := List.mem_flatMap.mp (Multiset.mem_coe.mp he)
    exact absurd (hp e hpe t ht) (not_le.mpr (h.later t ht e he))
  rw [h.balanced, Multiset.countP_add, hsends, add_zero]

/-- What is handled before everything else is on the agenda. -/
theorem mem_agenda (h : S.Complete states agenda turns final) {t : α} (ht : t ∈ turns)
    (hfirst : ∀ u ∈ turns, S.time (S.event t) ≤ S.time (S.event u)) : S.event t ∈ agenda := by
  classical
  have hcount := h.countP_first (p := (S.event t = ·)) (by rintro _ rfl; exact hfirst)
  have hpos : 0 < (turns.map S.event : Multiset ε).countP (S.event t = ·) :=
    Multiset.countP_pos.mpr ⟨S.event t, Multiset.mem_coe.mpr (List.mem_map_of_mem ht), rfl⟩
  rw [hcount] at hpos
  obtain ⟨e, he, rfl⟩ := Multiset.countP_pos.mp hpos
  exact he

theorem mem_agenda_head {t : α} (h : S.Complete states agenda (t :: turns) final) : S.event t ∈ agenda := by
  refine h.mem_agenda List.mem_cons_self fun u hu => ?_
  rcases List.mem_cons.mp hu with rfl | hu
  · exact le_refl _
  · exact (List.pairwise_cons.mp h.sorted).1 u hu

theorem agenda_nil (h : S.Complete states agenda [] final) : agenda = 0 ∧ final = states := by
  refine ⟨?_, funext fun i => Trail.nil_iff.mp (by simpa using h.trail i)⟩
  have hbalanced := h.balanced
  rw [List.map_nil, List.flatMap_nil, Multiset.coe_nil, add_zero] at hbalanced
  exact hbalanced.symm

/-- A turn can be made first if no turn before it is at its place. -/
theorem remove {t : α} {before after : List α} {others : Multiset ε}
    (h : S.Complete states (S.event t ::ₘ others) (before ++ t :: after) final)
    (hbefore : ∀ u ∈ before, ¬ S.At (S.place (S.event t)) u) :
    ∃ state, S.acts t (states (S.place (S.event t))) state ∧ S.Complete
      (Function.update states (S.place (S.event t)) state) (others + S.sends t) (before ++ after) final := by
  have hsub : (before ++ after).Sublist (before ++ t :: after) :=
    (List.Sublist.refl before).append (List.sublist_cons_self t after)
  have hnone : before.filter (S.At (S.place (S.event t)) ·) = [] :=
    List.filter_eq_nil_iff.mpr fun u hu hat => hbefore u hu (of_decide_eq_true hat)
  have hhere := h.trail (S.place (S.event t))
  rw [List.filter_append, hnone, List.nil_append, List.filter_cons_of_pos (by simp [At])] at hhere
  obtain ⟨state, hacts, hhere⟩ := Trail.cons_iff.mp hhere
  refine ⟨state, hacts, h.sorted.sublist hsub, fun u hu => h.later u (hsub.subset hu), ?_, fun i => ?_⟩
  · have hbalanced := h.balanced
    rw [Multiset.coe_eq_coe.mpr (List.perm_middle.map S.event),
      Multiset.coe_eq_coe.mpr (List.perm_middle.flatMap_right S.sends), List.map_cons, List.flatMap_cons,
      ← Multiset.cons_coe, ← Multiset.coe_add, Multiset.cons_add] at hbalanced
    rw [add_assoc]
    exact (Multiset.cons_inj_right _).mp hbalanced
  · by_cases hi : i = S.place (S.event t)
    · rw [hi, Function.update_self, List.filter_append, hnone, List.nil_append]
      exact hhere
    · have helse := h.trail i
      have hnot : ¬ S.At i t := Ne.symm hi
      rw [List.filter_append, List.filter_cons_of_neg (by simpa using hnot), ← List.filter_append] at helse
      rwa [Function.update_of_ne hi]

/-- Such turns are a sequential execution. -/
theorem runs (h : S.Complete states agenda turns final) : S.Runs states agenda turns final 0 := by
  induction turns generalizing states agenda with
  | nil =>
      obtain ⟨rfl, rfl⟩ := h.agenda_nil
      exact .nil
  | cons t turns ih =>
      obtain ⟨others, rfl⟩ := Multiset.exists_cons_of_mem h.mem_agenda_head
      have hfirst : S.Complete states (S.event t ::ₘ others) ([] ++ t :: turns) final := h
      obtain ⟨state, hacts, hrest⟩ := hfirst.remove (by simp)
      refine .cons (fun e he => ?_) hacts (ih hrest)
      have hhandled : e ∈ (turns.map S.event : Multiset ε) := by
        rw [List.nil_append] at hrest
        rw [hrest.balanced, add_assoc]
        exact Multiset.mem_add.mpr (Or.inl he)
      obtain ⟨u, hu, rfl⟩ := List.mem_map.mp (Multiset.mem_coe.mp hhandled)
      exact (List.pairwise_cons.mp h.sorted).1 u hu

end Complete

/-- Putting the histories together keeps each of them. -/
theorem filter_merged (hids : ids.Nodup) (hplace : ∀ i, ∀ t ∈ own i, S.At i t) (hown : ∀ i, i ∉ ids → own i = [])
    (hsorted : ∀ i, (own i).Pairwise S.NotAfter) (i : ι) : (S.merged ids own).filter (S.At i ·) = own i := by
  have hfilter : (ids.flatMap own).filter (S.At i ·) = own i := List.filter_flatMap_own hids hplace hown i
  have hperm : ((S.merged ids own).filter (S.At i ·)).Perm (own i) := hfilter ▸ merged_perm.filter _
  have hsub : (own i).Sublist (S.merged ids own) :=
    List.sublist_insertionSort (hsorted i) (hfilter ▸ List.filter_sublist)
  have hself := hsub.filter (S.At i ·)
  rw [List.filter_eq_self.mpr fun t ht => decide_eq_true (hplace i t ht)] at hself
  exact (hself.eq_of_length_le hperm.length_eq.le).symm

/-- Histories in the order of time whose events have all been handled once are those of a sequential execution,
if all sends are to a later time. -/
theorem complete_merged {start final : ι → σ} {agenda : Multiset ε} (hids : ids.Nodup)
    (hplace : ∀ i, ∀ t ∈ own i, S.At i t) (hown : ∀ i, i ∉ ids → own i = [])
    (hsorted : ∀ i, (own i).Pairwise S.NotAfter) (htrail : ∀ i, Trail S.acts (start i) (own i) (final i))
    (hlater : ∀ i, ∀ t ∈ own i, ∀ e ∈ S.sends t, S.time (S.event t) < S.time e)
    (hbalance : ((ids.flatMap own).map S.event : Multiset ε) =
      agenda + ((ids.flatMap own).flatMap S.sends : Multiset ε)) :
    S.Complete start agenda (S.merged ids own) final := by
  refine ⟨pairwise_merged, fun t ht => ?_, ?_, fun i => ?_⟩
  · obtain ⟨i, -, ht⟩ := List.mem_flatMap.mp (merged_perm.subset ht)
    exact hlater i t ht
  · rw [Multiset.coe_eq_coe.mpr (merged_perm.map S.event), Multiset.coe_eq_coe.mpr (merged_perm.flatMap_right S.sends)]
    exact hbalance
  · rw [filter_merged hids hplace hown hsorted]
    exact htrail i

/-! ## Executions are determined -/

variable (S) in
/-- The event of a turn and the state in which it begins determine the turn. -/
def Deterministic : Prop :=
  ∀ ⦃t t' x y y'⦄, S.event t' = S.event t → S.acts t x y → S.acts t' x y' → t' = t ∧ y' = y

variable (S) in
/-- No place handles two events of one time. -/
def Untied (turns : List α) : Prop :=
  turns.Pairwise fun a b => S.place (S.event a) = S.place (S.event b) → S.time (S.event a) ≠ S.time (S.event b)

/-- Places can be looked at one by one. -/
theorem untied_iff {turns : List α} : S.Untied turns ↔
    ∀ i, (turns.filter (S.At i ·)).Pairwise fun a b => S.time (S.event a) ≠ S.time (S.event b) := by
  simp only [Untied, List.pairwise_filter, decide_eq_true_eq]
  constructor
  · intro h i
    exact h.imp fun hne hplace hplace' => hne (hplace.trans hplace'.symm)
  · intro h
    refine List.pairwise_iff_getElem.mpr fun m n hm hn hlt hplace => ?_
    exact List.pairwise_iff_getElem.mp (h _) m n hm hn hlt rfl hplace.symm

/-- The turns of two executions from the same states and the same agenda are the same, if no place has to choose
between two events. -/
theorem Complete.perm {states final final' : ι → σ} {agenda : Multiset ε} {turns turns' : List α}
    (hdet : S.Deterministic) (h : S.Complete states agenda turns final) (h' : S.Complete states agenda turns' final')
    (huntied : S.Untied turns) : turns'.Perm turns := by
  induction turns generalizing turns' states agenda with
  | nil =>
      obtain ⟨rfl, -⟩ := h.agenda_nil
      cases turns' with
      | nil => exact .refl _
      | cons t' turns' => exact absurd h'.mem_agenda_head (Multiset.notMem_zero _)
  | cons t turns ih =>
      obtain ⟨huntied, hrest⟩ := List.pairwise_cons.mp huntied
      have hfirst : ∀ u ∈ t :: turns, S.time (S.event t) ≤ S.time (S.event u) := fun u hu =>
        (List.mem_cons.mp hu).elim (fun heq => heq ▸ le_refl _) ((List.pairwise_cons.mp h.sorted).1 u)
      -- the other execution begins at the same time
      have hfirst' : ∀ u ∈ turns', S.time (S.event t) ≤ S.time (S.event u) := by
        cases turns' with
        | nil => simp
        | cons u turns' =>
            have hmem : S.event u ∈ ((t :: turns).map S.event : Multiset ε) := by
              rw [h.balanced]
              exact Multiset.mem_add.mpr (Or.inl h'.mem_agenda_head)
            obtain ⟨w, hw, heq⟩ := List.mem_map.mp (Multiset.mem_coe.mp hmem)
            have hle : S.time (S.event t) ≤ S.time (S.event u) := heq ▸ hfirst w hw
            intro v hv
            rcases List.mem_cons.mp hv with rfl | hv
            · exact hle
            · exact hle.trans ((List.pairwise_cons.mp h'.sorted).1 v hv)
      have hmem : S.event t ∈ (turns'.map S.event : Multiset ε) := by
        rw [h'.balanced]
        exact Multiset.mem_add.mpr (Or.inl h.mem_agenda_head)
      obtain ⟨t', ht', hevent⟩ := List.mem_map.mp (Multiset.mem_coe.mp hmem)
      obtain ⟨before, after, rfl⟩ := List.append_of_mem ht'
      -- both handle as many events of the first time at the place, and the first one handles one
      have hbefore : ∀ u ∈ before, ¬ S.At (S.place (S.event t')) u := by
        intro u hu hat
        let tied (e : ε) : Prop := S.place e = S.place (S.event t) ∧ S.time e = S.time (S.event t)
        have hcount : ((t :: turns).map S.event : Multiset ε).countP tied =
            ((before ++ t' :: after).map S.event : Multiset ε).countP tied :=
          (h.countP_first fun e (he : tied e) => he.2 ▸ hfirst).trans
            (h'.countP_first fun e (he : tied e) => he.2 ▸ hfirst').symm
        have hnone : turns.countP (fun v => tied (S.event v)) = 0 := by
          refine List.countP_eq_zero.mpr fun v hv hpv => ?_
          have htied : tied (S.event v) := of_decide_eq_true hpv
          exact huntied v hv htied.1.symm htied.2.symm
        have hself : tied (S.event t') := hevent ▸ ⟨rfl, rfl⟩
        have hle : S.time (S.event u) ≤ S.time (S.event t) :=
          hevent ▸ (List.pairwise_append.mp h'.sorted).2.2 u hu t' List.mem_cons_self
        have hu' : tied (S.event u) :=
          ⟨hat.trans (congrArg S.place hevent), le_antisymm hle (hfirst' u (List.mem_append_left _ hu))⟩
        have hpos : 0 < before.countP (fun v => tied (S.event v)) :=
          List.countP_pos_iff.mpr ⟨u, hu, decide_eq_true hu'⟩
        simp only [Multiset.coe_countP, List.countP_map, List.countP_append, List.countP_cons] at hcount
        simp only [Function.comp_def, hnone, hself, decide_true, if_true] at hcount
        split at hcount <;> omega
      obtain ⟨others, rfl⟩ := Multiset.exists_cons_of_mem h.mem_agenda_head
      have hhead : S.Complete states (S.event t ::ₘ others) ([] ++ t :: turns) final := h
      obtain ⟨state, hacts, hrun⟩ := hhead.remove (by simp)
      rw [← hevent] at h'
      obtain ⟨state', hacts', hrun'⟩ := h'.remove hbefore
      rw [hevent] at hacts' hrun'
      obtain ⟨rfl, rfl⟩ := hdet hevent hacts hacts'
      exact List.perm_middle.trans ((ih hrun hrun' hrest).cons _)

end EventSystem

end WarpSim

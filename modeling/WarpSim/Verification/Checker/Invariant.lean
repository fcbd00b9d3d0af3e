import WarpSim.Verification.Simulates

/-! # The runtime invariant checker

The checks of `validate_invariants_` follow from an invariant that every kernel function keeps,
however it exits. -/

namespace WarpSim

variable {Q : EventQueue} {σ : Type}

open Prog Simulation

/-! ## The invariant -/

/-- What holds of the bookkeeping of one LP between any two steps of the kernel. -/
structure ContextInv (c : LPContext σ) : Prop where
  sorted : c.processed.Pairwise fun a b => a.ev.ts ≤ b.ev.ts
  behind : ∀ rec ∈ c.processed, rec.ev.ts ≤ c.vt
  executing : c.inEvent = true → c.currentExecTs = c.vt

/-- No counter of the LP, nor any counter that a rollback could restore, has wrapped to 0. -/
structure CountersInv (c : LPContext σ) : Prop where
  normal : c.nextSeqNormal ≠ 0
  control : c.nextSeqControl ≠ 0
  uid : c.nextUid ≠ 0
  restored : ∀ rec ∈ c.processed, rec.preNextSeqNormal ≠ 0 ∧ rec.preNextSeqControl ≠ 0

/-- The keyed view of what is in flight and the bag of its timestamps agree. -/
structure InflightInv (s : Simulation Q σ) : Prop where
  nodup : (s.inflightByUid.map Prod.fst).Nodup
  perm : (s.inflightByUid.map Prod.snd).Perm s.inflightTs

structure KernelInv (s : Simulation Q σ) : Prop where
  context : ∀ id, ContextInv (s.ctx id)
  inflight : InflightInv s
  counters : s.hist.wrapped = false → ∀ id, CountersInv (s.ctx id)
  checked : s.hist.wrapped = false → s.checksPassed = true

/-- No LP is executing an event. -/
def Idle (s : Simulation Q σ) : Prop := ∀ id, (s.ctx id).inEvent = false

/-! ## The checks follow from the invariant -/

theorem contextHolds_of_inv {c : LPContext σ} (h : ContextInv c) (hc : CountersInv c) :
    contextHolds c = true := by
  unfold contextHolds
  simp only [Bool.and_eq_true, decide_eq_true_eq]
  refine ⟨⟨⟨⟨⟨hc.normal, hc.control⟩, hc.uid⟩, ?_⟩, ?_⟩, ?_⟩
  · exact (h.sorted.imp fun hab => not_lt.mpr hab).isChain
  · split
    · next last hl => simpa using h.behind last (List.mem_of_getLast? hl)
    · rfl
  · cases hin : c.inEvent with
    | false => rfl
    | true => simpa using h.executing hin

theorem inflightHolds_of_inv {s : Simulation Q σ} (h : InflightInv s) (cfg : SimulationConfig) :
    inflightHolds cfg s = true := by
  have hlen : s.inflightByUid.length = s.inflightTs.length := by
    simpa using h.perm.length_eq
  simp [inflightHolds, hlen, List.isPerm_iff.mpr h.perm]

theorem pendingHolds_eq_true (s : Simulation Q σ) : pendingHolds s = true := by
  have hdrain := Q.pairwise_drain (Q.size s.pending) s.pending
  have hchain := (hdrain.filter fun ev => ev.isAnti || !s.tombstoned ev).isChain
  unfold pendingHolds
  simp only [decide_eq_true_eq]
  refine hchain.imp fun {a b} hab => ?_
  have hsort : ¬ b.sortKey < a.sortKey := by
    intro hlt
    exact hab (pendingOrder_iff.mpr hlt)
  rw [Event.sortKey_lt_iff] at hsort
  intro hbad
  apply hsort
  rcases hbad with h | ⟨hts, h⟩ | ⟨hts, hsrc, h⟩
  · exact Or.inl h
  · exact Or.inr ⟨hts, Or.inl h⟩
  · exact Or.inr ⟨hts, Or.inr ⟨hsrc, h⟩⟩

theorem KernelInv.invariantsHold {s : Simulation Q σ} (h : KernelInv s)
    (hw : s.hist.wrapped = false) (cfg : SimulationConfig) : s.invariantsHold cfg = true := by
  unfold Simulation.invariantsHold
  rw [inflightHolds_of_inv h.inflight, pendingHolds_eq_true]
  simpa using fun id _ => contextHolds_of_inv (h.context id) (h.counters hw id)

theorem KernelInv.validate {s : Simulation Q σ} (h : KernelInv s) (cfg : SimulationConfig) :
    KernelInv (validateInvariants cfg s) := by
  unfold validateInvariants
  split
  · refine ⟨h.context, ⟨h.inflight.nodup, h.inflight.perm⟩, h.counters, fun hw => ?_⟩
    simp only [h.checked hw, h.invariantsHold hw, Bool.and_self]
  · exact h

/-- A step that changes one context only. -/
theorem KernelInv.modifyCtx {s : Simulation Q σ} (h : KernelInv s) {id : LPId}
    {f : LPContext σ → LPContext σ} (hf : ContextInv (s.ctx id) → ContextInv (f (s.ctx id)))
    (hc : CountersInv (s.ctx id) → CountersInv (f (s.ctx id))) :
    KernelInv (s.modifyCtx id f) := by
  refine ⟨fun i => ?_, ⟨h.inflight.nodup, h.inflight.perm⟩, fun hw i => ?_, h.checked⟩
  · by_cases hi : i = id
    · subst hi
      simpa [Simulation.modifyCtx] using hf (h.context i)
    · simpa [Simulation.modifyCtx, hi] using h.context i
  · by_cases hi : i = id
    · subst hi
      simpa [Simulation.modifyCtx] using hc (h.counters hw i)
    · simpa [Simulation.modifyCtx, hi] using h.counters hw i

/-- A step that changes neither the contexts nor what is in flight. -/
theorem KernelInv.frame {s s' : Simulation Q σ} (h : KernelInv s) (hctx : s'.ctx = s.ctx)
    (hby : s'.inflightByUid = s.inflightByUid) (hts : s'.inflightTs = s.inflightTs)
    (hw : s'.hist.wrapped = s.hist.wrapped) (hp : s'.checksPassed = s.checksPassed) :
    KernelInv s' := by
  refine ⟨?_, ⟨?_, ?_⟩, ?_, ?_⟩
  · simpa only [hctx] using h.context
  · simpa only [hby] using h.inflight.nodup
  · simpa only [hby, hts] using h.inflight.perm
  · simpa only [hctx, hw] using h.counters
  · simpa only [hw, hp] using h.checked

/-! ## `send` -/

theorem keeps_validate (cfg : SimulationConfig) :
    Keeps KernelInv (modify (validateInvariants cfg) : KernelM Q σ PUnit) :=
  keeps_modify fun _ h => h.validate cfg

theorem KernelInv.trackInflightSend {s : Simulation Q σ} (h : KernelInv s) (ev : Event) :
    KernelInv (s.trackInflightSend ev) := by
  unfold Simulation.trackInflightSend
  split
  · exact h
  · next hnone =>
    refine ⟨h.context, ⟨?_, ?_⟩, h.counters, h.checked⟩
    · have hfresh : ev.inflightKey ∉ s.inflightByUid.map Prod.fst := by
        rw [inflightTs?, List.lookup_eq_none_iff] at hnone
        intro hmem
        obtain ⟨entry, hentry, hkey⟩ := List.mem_map.mp hmem
        simpa [hkey] using hnone entry hentry
      exact List.nodup_cons.mpr ⟨hfresh, h.inflight.nodup⟩
    · simpa using h.inflight.perm

/-- Removing the entry of a key removes one occurrence of its value. -/
theorem map_snd_filter_perm {κ ν : Type*} [DecidableEq κ] [DecidableEq ν] {key : κ} {v : ν} :
    ∀ {l : List (κ × ν)}, (l.map Prod.fst).Nodup → l.lookup key = some v →
      ((l.filter fun entry => entry.1 ≠ key).map Prod.snd).Perm ((l.map Prod.snd).erase v)
  | [], _, hv => by simp at hv
  | (k, w) :: l, hnd, hv => by
    obtain ⟨hk, hnd⟩ := List.nodup_cons.mp (List.map_cons ▸ hnd)
    by_cases hkey : k = key
    · subst hkey
      obtain rfl : w = v := by simpa using hv
      have hall : (l.filter fun entry => entry.1 ≠ k) = l := by
        refine List.filter_eq_self.mpr fun entry hentry => decide_eq_true ?_
        exact fun heq => hk (List.mem_map.mpr ⟨entry, hentry, heq⟩)
      rw [List.filter_cons_of_neg (by simp), hall]
      simp
    · have hv' : l.lookup key = some v := by
        simpa [List.lookup_cons, beq_eq_false_iff_ne.mpr (Ne.symm hkey)] using hv
      have ih := map_snd_filter_perm hnd hv'
      have hmem : v ∈ l.map Prod.snd := by
        obtain ⟨l₁, l₂, rfl, -⟩ := List.lookup_eq_some_iff.mp hv'
        simp
      by_cases hw : w = v
      · subst hw
        have := (List.perm_cons_erase hmem).symm
        simpa [hkey] using (ih.cons w).trans this
      · simpa [hkey, List.erase_cons, hw] using ih.cons w

theorem KernelInv.clearInflightKey {s : Simulation Q σ} (h : KernelInv s) (key : InflightKey) :
    KernelInv (s.clearInflightKey key) := by
  unfold Simulation.clearInflightKey
  split
  · exact h
  · next ts hts =>
    refine ⟨h.context, ⟨?_, ?_⟩, h.counters, h.checked⟩
    · exact h.inflight.nodup.sublist (List.filter_sublist.map _)
    · exact (map_snd_filter_perm h.inflight.nodup hts).trans (h.inflight.perm.erase ts)

/-- A step that advances counters of one LP and notes whether one of them wrapped. -/
theorem KernelInv.advanceCounters {s : Simulation Q σ} (h : KernelInv s) {id : LPId}
    {f : LPContext σ → LPContext σ} {w : Bool}
    (hf : ContextInv (s.ctx id) → ContextInv (f (s.ctx id)))
    (hc : w = false → CountersInv (s.ctx id) → CountersInv (f (s.ctx id))) :
    KernelInv { s.modifyCtx id f with
      hist := { s.hist with wrapped := s.hist.wrapped || w } } := by
  refine ⟨fun i => ?_, ⟨h.inflight.nodup, h.inflight.perm⟩, fun hw i => ?_, fun hw => ?_⟩
  · by_cases hi : i = id
    · subst hi
      simpa [Simulation.modifyCtx] using hf (h.context i)
    · simpa [Simulation.modifyCtx, hi] using h.context i
  · have hor : s.hist.wrapped = false ∧ w = false := Bool.or_eq_false_iff.mp hw
    by_cases hi : i = id
    · subst hi
      simpa [Simulation.modifyCtx] using hc hor.2 (h.counters hor.1 i)
    · simpa [Simulation.modifyCtx, hi] using h.counters hor.1 i
  · exact h.checked (Bool.or_eq_false_iff.mp hw).1

theorem keeps_bumpUid (id : LPId) : Keeps KernelInv (modify (bumpUid id) : KernelM Q σ PUnit) :=
  keeps_modify fun _ h => h.advanceCounters
    (fun hc => ⟨hc.sorted, hc.behind, hc.executing⟩)
    (fun hw hc => ⟨hc.normal, hc.control, by simpa using hw, hc.restored⟩)

theorem keeps_bumpSeqNormal (id : LPId) :
    Keeps KernelInv (modify (bumpSeqNormal id) : KernelM Q σ PUnit) :=
  keeps_modify fun _ h => h.advanceCounters
    (fun hc => ⟨hc.sorted, hc.behind, hc.executing⟩)
    (fun hw hc => ⟨by simpa using hw, hc.control, hc.uid, hc.restored⟩)

theorem keeps_bumpSeqControl (id : LPId) :
    Keeps KernelInv (modify (bumpSeqControl id) : KernelM Q σ PUnit) :=
  keeps_modify fun _ h => h.advanceCounters
    (fun hc => ⟨hc.sorted, hc.behind, hc.executing⟩)
    (fun hw hc => ⟨hc.normal, by simpa using hw, hc.uid, hc.restored⟩)

theorem keeps_lookupCtx {I : Simulation Q σ → Prop} (id : LPId) : Keeps I (lookupCtx id) :=
  keeps_get_bind fun _ => keeps_ite (fun _ => keeps_pure _) (fun _ => keeps_throw _)

theorem keeps_assignUid (ev : Event) : Keeps KernelInv (assignUid ev : KernelM Q σ Event) := by
  unfold assignUid
  refine keeps_ite (fun _ => keeps_pure _) (fun _ => ?_)
  refine keeps_bind (keeps_lookupCtx _) fun ctx => ?_
  refine keeps_bind (keeps_bumpUid _) fun _ => ?_
  exact keeps_ite (fun _ => keeps_throw _) (fun _ => keeps_pure _)

theorem keeps_assignSequence (cfg : SimulationConfig) (ev : Event) :
    Keeps KernelInv (assignSequence cfg ev : KernelM Q σ Event) := by
  unfold assignSequence
  refine keeps_ite (fun _ => keeps_pure _) (fun _ => ?_)
  refine keeps_bind (keeps_lookupCtx _) fun ctx => ?_
  split
  · exact keeps_bind (keeps_bumpSeqNormal _) fun _ => keeps_pure _
  · refine keeps_ite (fun _ => ?_) (fun _ => ?_)
    · refine keeps_bind (keeps_bumpSeqControl _) fun _ => ?_
      exact keeps_ite (fun _ => keeps_throw _) (fun _ => keeps_pure _)
    · refine keeps_bind (keeps_bumpSeqNormal _) fun _ => ?_
      exact keeps_ite (fun _ => keeps_throw _) (fun _ => keeps_pure _)

theorem keeps_resolveTarget (cfg : SimulationConfig) (ev : Event) :
    Keeps KernelInv (resolveTarget cfg ev : KernelM Q σ Event) := by
  unfold resolveTarget
  refine keeps_get_bind fun s => ?_
  split
  · refine keeps_ite (fun _ => keeps_throw _) (fun _ => ?_)
    exact keeps_bind (keeps_modify fun _ h => h.frame rfl rfl rfl rfl rfl) fun _ => keeps_pure _
  · split <;> exact keeps_pure _

theorem keeps_routeTarget (cfg : SimulationConfig) (ev : Event) :
    Keeps KernelInv (routeTarget cfg ev : KernelM Q σ Event) := by
  unfold routeTarget
  refine keeps_ite (fun _ => keeps_pure _) (fun _ => ?_)
  refine keeps_bind (keeps_resolveTarget cfg _) fun _ => ?_
  exact keeps_ite (fun _ => keeps_throw _) (fun _ => keeps_pure _)

theorem keeps_logSend (ev : Event) : Keeps KernelInv (logSend ev : KernelM Q σ Unit) := by
  unfold logSend
  refine keeps_ite (fun _ => keeps_pure _) (fun _ => keeps_bind (keeps_lookupCtx _) fun ctx => ?_)
  exact keeps_modify fun _ h => h.modifyCtx
    (fun hc => ⟨hc.sorted, hc.behind, hc.executing⟩)
    (fun hc => ⟨hc.normal, hc.control, hc.uid, hc.restored⟩)

theorem keeps_countSend (ev : Event) :
    Keeps KernelInv (modify (countSend ev) : KernelM Q σ PUnit) :=
  keeps_modify fun _ h => h.frame rfl rfl rfl rfl rfl

theorem keeps_deliver (cause : SendCause) (cfg : SimulationConfig) (asked ev : Event) :
    Keeps KernelInv (deliver cause cfg asked ev : KernelM Q σ Event) := by
  unfold deliver
  refine keeps_get_bind fun s => keeps_ite (fun _ => ?_) (fun _ => keeps_ite (fun _ => ?_) (fun _ => ?_))
  · refine keeps_bind (keeps_countSend _) fun _ => ?_
    refine keeps_bind (keeps_modify fun _ h => h.frame rfl rfl rfl rfl rfl) fun _ => ?_
    refine keeps_bind (keeps_validate cfg) fun _ => ?_
    exact keeps_bind (keeps_logSend _) fun _ => keeps_pure _
  · refine keeps_bind (keeps_modify fun _ h => h.trackInflightSend _) fun _ => ?_
    refine keeps_bind (keeps_countSend _) fun _ => ?_
    refine keeps_bind (keeps_modify fun _ h => h.frame rfl rfl rfl rfl rfl) fun _ => ?_
    refine keeps_bind (keeps_logSend _) fun _ => ?_
    exact keeps_bind (keeps_validate cfg) fun _ => keeps_pure _
  · refine keeps_bind (keeps_modify fun _ h => h.frame rfl rfl rfl rfl rfl) fun _ => ?_
    refine keeps_bind (keeps_countSend _) fun _ => ?_
    refine keeps_bind (keeps_modify fun _ h => h.frame rfl rfl rfl rfl rfl) fun _ => ?_
    refine keeps_bind (keeps_logSend _) fun _ => ?_
    exact keeps_bind (keeps_validate cfg) fun _ => keeps_pure _

theorem keeps_stamp (cfg : SimulationConfig) (asked : Event) :
    Keeps KernelInv (stamp cfg asked : KernelM Q σ Event) := by
  unfold stamp
  refine keeps_bind (keeps_assignUid _) fun _ => ?_
  exact keeps_bind (keeps_assignSequence cfg _) fun _ => keeps_routeTarget cfg _

theorem keeps_send (cause : SendCause) (cfg : SimulationConfig) (asked : Event) :
    Keeps KernelInv (send cause cfg asked : KernelM Q σ Event) := by
  unfold send
  refine keeps_bind (keeps_validate cfg) fun _ => ?_
  exact keeps_bind (keeps_stamp cfg _) fun _ => keeps_deliver cause cfg asked _

end WarpSim

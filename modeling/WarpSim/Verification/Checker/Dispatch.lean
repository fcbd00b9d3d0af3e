import WarpSim.Verification.Checker.Invariant

/-! # The checker during a dispatch -/

namespace WarpSim

variable {Q : EventQueue} {σ : Type}

open Prog Simulation

/-! ## Rolling back -/

theorem keptRecords_append_undoneRecords (target : TimeStamp) (processed : List ProcessedRecord) :
    keptRecords target processed ++ undoneRecords target processed = processed :=
  List.rdropWhile_append_rtakeWhile

theorem undoneRecords_ge {target : TimeStamp} {processed : List ProcessedRecord} :
    ∀ rec ∈ undoneRecords target processed, target ≤ rec.ev.ts := by
  intro rec hrec
  simpa using List.mem_rtakeWhile_imp hrec

/-- In a sorted list the records left in place are those before the target. -/
theorem keptRecords_lt {target : TimeStamp} {processed : List ProcessedRecord}
    (hsorted : processed.Pairwise fun a b => a.ev.ts ≤ b.ev.ts) :
    ∀ rec ∈ keptRecords target processed, rec.ev.ts < target := by
  intro rec hrec
  have hne : keptRecords target processed ≠ [] := List.ne_nil_of_mem hrec
  have hlast : (List.getLast _ hne).ev.ts < target := by
    have hnot := List.rdropWhile_last_not
      (fun rec : ProcessedRecord => decide (¬ rec.ev.ts < target)) processed hne
    rw [decide_eq_true_eq, not_not] at hnot
    exact hnot
  have hkept : (keptRecords target processed).Pairwise fun a b => a.ev.ts ≤ b.ev.ts :=
    hsorted.sublist (List.rdropWhile_prefix _ _).sublist
  refine lt_of_le_of_lt ?_ hlast
  rw [← List.dropLast_append_getLast hne, List.pairwise_append] at hkept
  rw [← List.dropLast_append_getLast hne, List.mem_append, List.mem_singleton] at hrec
  rcases hrec with hrec | rfl
  · exact hkept.2.2 rec hrec _ (List.mem_singleton_self _)
  · exact le_refl _

theorem ContextInv.rewind {c : LPContext σ} (h : ContextInv c) (hidle : c.inEvent = false)
    (lp : LogicalProcess σ) (target : TimeStamp) : ContextInv (c.rewind lp target) := by
  rw [LPContext.rewind_eq]
  refine ⟨h.sorted.sublist (List.rdropWhile_prefix _ _).sublist, fun rec hrec => ?_, fun hin => ?_⟩
  · exact le_prevStamp_of_lt (keptRecords_lt h.sorted rec hrec)
  · exact absurd (hidle.symm.trans hin) (by simp)

theorem CountersInv.rewind {c : LPContext σ} (h : CountersInv c) (lp : LogicalProcess σ)
    (target : TimeStamp) : CountersInv (c.rewind lp target) := by
  have hsub : ∀ rec ∈ keptRecords target c.processed,
      rec.preNextSeqNormal ≠ 0 ∧ rec.preNextSeqControl ≠ 0 :=
    fun rec hrec => h.restored rec ((List.rdropWhile_prefix _ _).subset hrec)
  unfold LPContext.rewind
  dsimp only
  split
  · exact ⟨h.normal, h.control, h.uid, hsub⟩
  · next oldest rest hundone =>
    have hold := h.restored oldest (by
      rw [← keptRecords_append_undoneRecords target c.processed, hundone]
      simp)
    exact ⟨hold.1, hold.2, h.uid, hsub⟩

theorem KernelInv.unwound {model : Model σ} {s : Simulation Q σ} (h : KernelInv s) (hidle : Idle s)
    (id : LPId) (target : TimeStamp) : KernelInv (unwound model id target s) := by
  have hctx : ∀ i, (WarpSim.unwound model id target s).ctx i =
      if i = id then (s.ctx id).rewind (model id) target else s.ctx i := by
    intro i
    rw [unwound_eq]
    exact Function.update_apply ..
  have hrest := unwound_eq model id target s
  refine ⟨fun i => ?_, ⟨?_, ?_⟩, fun hw i => ?_, fun hw => ?_⟩
  · rw [hctx]
    split
    · exact (h.context id).rewind (hidle id) _ _
    · exact h.context i
  · rw [hrest]; exact h.inflight.nodup
  · rw [hrest]; exact h.inflight.perm
  · rw [hrest] at hw
    rw [hctx]
    split
    · exact (h.counters hw id).rewind _ _
    · exact h.counters hw i
  · rw [hrest] at hw ⊢
    exact h.checked hw

theorem idle_unwound (model : Model σ) {s : Simulation Q σ} (h : Idle s) (id : LPId)
    (target : TimeStamp) : Idle (unwound model id target s) := by
  intro i
  rw [unwound_eq]
  by_cases hi : i = id
  · subst hi
    simp only [Function.update_self]
    rw [LPContext.rewind_eq]
    exact h i
  · simpa [hi] using h i

/-- At rest: the invariant holds and no LP is executing. -/
structure RestInv (s : Simulation Q σ) : Prop where
  kernel : KernelInv s
  idle : Idle s

theorem RestInv.validate {s : Simulation Q σ} (h : RestInv s) (cfg : SimulationConfig) :
    RestInv (validateInvariants cfg s) := by
  refine ⟨h.kernel.validate cfg, ?_⟩
  rw [quiet_validate cfg s]
  exact h.idle

theorem restInv_send (cause : SendCause) (cfg : SimulationConfig) (asked : Event) :
    Keeps RestInv (send cause cfg asked : KernelM Q σ Event) := by
  intro s h
  refine ⟨keeps_send cause cfg asked s h.kernel, fun i => ?_⟩
  rw [((send_frame cfg cause asked s).work i).inEvent]
  exact h.idle i

/-- A context update that keeps `inEvent` off. -/
theorem RestInv.modifyCtx {s : Simulation Q σ} (h : RestInv s) {id : LPId}
    {f : LPContext σ → LPContext σ} (hf : ContextInv (s.ctx id) → ContextInv (f (s.ctx id)))
    (hc : CountersInv (s.ctx id) → CountersInv (f (s.ctx id)))
    (hin : (f (s.ctx id)).inEvent = false) : RestInv (s.modifyCtx id f) := by
  refine ⟨h.kernel.modifyCtx hf hc, fun i => ?_⟩
  by_cases hi : i = id
  · rw [hi, modifyCtx_self]
    exact hin
  · rw [modifyCtx_of_ne s f hi]
    exact h.idle i

theorem restInv_emitAntis (cfg : SimulationConfig) (id : LPId) (log : List SentRecord) :
    Keeps RestInv (emitAntis cfg id log : KernelM Q σ Unit) := by
  induction log with
  | nil => exact keeps_pure _
  | cons sent rest ih =>
      unfold emitAntis
      refine keeps_bind (restInv_send _ cfg _) fun _ => keeps_bind (keeps_modify fun s h => ?_) fun _ => ih
      exact h.modifyCtx (fun hc => ⟨hc.sorted, hc.behind, hc.executing⟩)
        (fun hc => ⟨hc.normal, hc.control, hc.uid, hc.restored⟩) (h.idle id)

theorem restInv_rollback (model : Model σ) (cfg : SimulationConfig) (id : LPId)
    (target : TimeStamp) : Keeps RestInv (rollback model cfg id target : KernelM Q σ Unit) := by
  intro s h
  have hv := h.validate cfg
  unfold rollback
  rw [exec_modify_bind, exec_modify_bind, exec_modify_bind, exec_modify_bind, exec_get_bind]
  set t : Simulation Q σ := { validateInvariants cfg s with
    counters := { (validateInvariants cfg s).counters with
      rollbacksTotal := (validateInvariants cfg s).counters.rollbacksTotal + 1 } } with ht
  have hrest : RestInv t := ⟨hv.kernel.frame rfl rfl rfl rfl rfl, hv.idle⟩
  have hunwound : RestInv (unwound model id target t) :=
    ⟨hrest.kernel.unwound hrest.idle id target, idle_unwound model hrest.idle id target⟩
  refine keeps_bind (restInv_emitAntis cfg id _) (fun _ => ?_) (unwound model id target t) hunwound
  exact keeps_modify fun s h => h.validate cfg

/-! ## Dispatching -/

/-- What a rollback leaves of the records, and of the ghost flag for wrapped counters. -/
structure RollbackFrame (s s' : Simulation Q σ) : Prop where
  processed : ∀ id, (s'.ctx id).processed <+: (s.ctx id).processed
  wrapped : s'.hist.wrapped = false → s.hist.wrapped = false

theorem RollbackFrame.refl (s : Simulation Q σ) : RollbackFrame s s :=
  ⟨fun _ => List.prefix_refl _, id⟩

theorem RollbackFrame.trans {s s' s'' : Simulation Q σ} (h : RollbackFrame s s')
    (h' : RollbackFrame s' s'') : RollbackFrame s s'' :=
  ⟨fun id => (h'.processed id).trans (h.processed id), h.wrapped ∘ h'.wrapped⟩

theorem RollbackFrame.of_ctx {s s' : Simulation Q σ} (hctx : s'.ctx = s.ctx)
    (hhist : s'.hist = s.hist) : RollbackFrame s s' :=
  ⟨fun id => by rw [hctx], fun h => by rwa [← hhist]⟩

theorem rollbackFrame_unwound {model : Model σ} (id : LPId) (target : TimeStamp)
    (s : Simulation Q σ) : RollbackFrame s (unwound model id target s) := by
  rw [unwound_eq]
  refine ⟨fun i => ?_, fun h => h⟩
  by_cases hi : i = id
  · subst hi
    simp only [Function.update_self]
    rw [LPContext.rewind_eq]
    exact List.rdropWhile_prefix _ _
  · simp [hi]

theorem SendFrame.rollbackFrame {s s' : Simulation Q σ} (h : SendFrame s s') : RollbackFrame s s' :=
  ⟨fun id => by rw [(h.work id).processed], h.wrapped⟩

variable {s₀ : Simulation Q σ}

theorem rollbackFrame_emitAntis (cfg : SimulationConfig) (id : LPId) (log : List SentRecord) :
    Keeps (RollbackFrame s₀) (emitAntis cfg id log) := by
  induction log with
  | nil => exact keeps_pure _
  | cons sent rest ih =>
      unfold emitAntis
      refine keeps_bind (fun s h => h.trans (send_frame cfg _ _ s).rollbackFrame) fun _ =>
        keeps_bind (keeps_modify fun s h => h.trans ⟨fun i => ?_, fun hw => hw⟩) fun _ => ih
      exact (sameWork_dropLast id s i).processed ▸ List.prefix_refl _

theorem rollbackFrame_validate (cfg : SimulationConfig) (s : Simulation Q σ) :
    RollbackFrame s (validateInvariants cfg s) :=
  .of_ctx (quiet_validate cfg s).ctx (by rw [quiet_validate cfg s])

theorem rollbackFrame_rollback (model : Model σ) (cfg : SimulationConfig) (id : LPId)
    (target : TimeStamp) : Keeps (RollbackFrame s₀) (rollback model cfg id target) := by
  intro s h
  unfold rollback
  rw [exec_modify_bind, exec_modify_bind, exec_modify_bind, exec_modify_bind, exec_get_bind]
  set t : Simulation Q σ := { validateInvariants cfg s with
    counters := { (validateInvariants cfg s).counters with
      rollbacksTotal := (validateInvariants cfg s).counters.rollbacksTotal + 1 } } with ht
  have hunwound : RollbackFrame s₀ (unwound model id target t) :=
    ((h.trans (rollbackFrame_validate cfg s)).trans (show RollbackFrame (validateInvariants cfg s) t from .of_ctx rfl rfl)).trans
      (rollbackFrame_unwound id target t)
  refine keeps_bind (rollbackFrame_emitAntis cfg id _) (fun _ => ?_) (unwound model id target t) hunwound
  exact keeps_modify fun s h => h.trans (rollbackFrame_validate cfg s)

theorem rollbackFrame_cancel (model : Model σ) (cfg : SimulationConfig) (anti : Event) :
    Keeps (RollbackFrame s₀) (cancel model cfg anti) := by
  unfold cancel
  refine keeps_bind (keeps_modify fun s h => h.trans (.of_ctx rfl rfl)) fun _ =>
    keeps_bind (keeps_lookupCtx _) fun ctx => ?_
  split
  · exact keeps_bind (keeps_modify fun s h => h.trans (.of_ctx rfl rfl)) fun _ =>
      rollbackFrame_rollback model cfg _ _
  · exact keeps_modify fun s h => h.trans (.of_ctx rfl rfl)

theorem RestInv.frame {s s' : Simulation Q σ} (h : RestInv s) (hctx : s'.ctx = s.ctx)
    (hby : s'.inflightByUid = s.inflightByUid) (hts : s'.inflightTs = s.inflightTs)
    (hw : s'.hist.wrapped = s.hist.wrapped) (hp : s'.checksPassed = s.checksPassed) : RestInv s' :=
  ⟨h.kernel.frame hctx hby hts hw hp, fun i => by rw [hctx]; exact h.idle i⟩

theorem restInv_cancel (model : Model σ) (cfg : SimulationConfig) (anti : Event) :
    Keeps RestInv (cancel model cfg anti : KernelM Q σ Unit) := by
  unfold cancel
  refine keeps_bind (keeps_modify fun s h => h.frame rfl rfl rfl rfl rfl) fun _ =>
    keeps_bind (keeps_lookupCtx _) fun ctx => ?_
  split
  · exact keeps_bind (keeps_modify fun s h => h.frame rfl rfl rfl rfl rfl) fun _ =>
      restInv_rollback model cfg _ _
  · exact keeps_modify fun s h => h.frame rfl rfl rfl rfl rfl

theorem restInv_validate (cfg : SimulationConfig) :
    Keeps RestInv (modify (validateInvariants cfg) : KernelM Q σ PUnit) :=
  keeps_modify fun _ h => h.validate cfg

/-- A record of the current virtual time goes to the end of the records. -/
theorem ContextInv.push {c : LPContext σ} (h : ContextInv c) (rec : ProcessedRecord)
    (hvt : rec.ev.ts = c.vt) :
    ContextInv { c with processed := c.processed ++ [rec], executed := c.executed ++ [rec] } := by
  refine ⟨?_, fun r hr => ?_, h.executing⟩
  · rw [List.pairwise_append]
    refine ⟨h.sorted, List.pairwise_singleton _ _, fun a ha b hb => ?_⟩
    rw [List.mem_singleton.mp hb, hvt]
    exact h.behind a ha
  · rcases List.mem_append.mp hr with hr | hr
    · exact h.behind r hr
    · rw [List.mem_singleton.mp hr, hvt]

theorem CountersInv.push {c : LPContext σ} (h : CountersInv c) (rec : ProcessedRecord)
    (hrec : rec.preNextSeqNormal ≠ 0 ∧ rec.preNextSeqControl ≠ 0) :
    CountersInv { c with processed := c.processed ++ [rec], executed := c.executed ++ [rec] } := by
  refine ⟨h.normal, h.control, h.uid, fun r hr => ?_⟩
  rcases List.mem_append.mp hr with hr | hr
  · exact h.restored r hr
  · rw [List.mem_singleton.mp hr]
    exact hrec

theorem KernelInv.push {s : Simulation Q σ} (h : KernelInv s) (id : LPId) (rec : ProcessedRecord)
    (hvt : rec.ev.ts = (s.ctx id).vt) (hrec : s.hist.wrapped = false →
      rec.preNextSeqNormal ≠ 0 ∧ rec.preNextSeqControl ≠ 0) :
    KernelInv (pushProcessed id rec s) := by
  refine ⟨fun i => ?_, ⟨h.inflight.nodup, h.inflight.perm⟩, fun hw i => ?_, h.checked⟩
  · by_cases hi : i = id
    · rw [hi, pushProcessed, modifyCtx_self]
      exact (h.context id).push rec hvt
    · rw [pushProcessed, modifyCtx_of_ne s _ hi]
      exact h.context i
  · by_cases hi : i = id
    · rw [hi, pushProcessed, modifyCtx_self]
      exact (h.counters hw id).push rec (hrec hw)
    · rw [pushProcessed, modifyCtx_of_ne s _ hi]
      exact h.counters hw i

theorem restInv_straggle (model : Model σ) (cfg : SimulationConfig) (ev : Event) :
    Keeps RestInv (do
      modify countStraggler
      rollback model cfg ev.dst ev.ts
      modify fun s => s.enqueue ev : KernelM Q σ Unit) :=
  keeps_bind (keeps_modify fun _ h => h.frame rfl rfl rfl rfl rfl) fun _ =>
    keeps_bind (restInv_rollback model cfg _ _) fun _ =>
      keeps_modify fun _ h => h.frame rfl rfl rfl rfl rfl

theorem antiRecord_counters (ev : Event) (s : Simulation Q σ) :
    (antiRecord ev s).preNextSeqNormal = (s.ctx ev.dst).nextSeqNormal ∧
      (antiRecord ev s).preNextSeqControl = (s.ctx ev.dst).nextSeqControl := by
  unfold antiRecord
  split <;> exact ⟨rfl, rfl⟩

theorem restInv_dispatchAnti (model : Model σ) (cfg : SimulationConfig) (ev : Event) :
    Keeps RestInv (dispatchAnti model cfg ev : KernelM Q σ Unit) := by
  intro s h
  unfold dispatchAnti
  rw [exec_lookupCtx_bind]
  split
  · next hdst =>
    rw [exec_ite]
    split
    · exact restInv_straggle model cfg ev s h
    · next hvt =>
      rw [exec_get_bind]
      have hcancel := restInv_cancel model cfg ev s h
      have hframe := rollbackFrame_cancel model cfg ev s (RollbackFrame.refl s)
      rw [exec_bind]
      generalize exec (cancel model cfg ev) s = res at hcancel hframe ⊢
      obtain ⟨what | u, t⟩ := res
      · exact hcancel
      · dsimp only at hcancel hframe ⊢
        rw [exec_modify_bind, exec_modify_bind]
        -- virtual time moves forward past everything that is left
        have hbehind : ∀ rec ∈ (t.ctx ev.dst).processed, rec.ev.ts ≤ ev.ts := fun rec hrec =>
          ((h.kernel.context ev.dst).behind rec ((hframe.processed ev.dst).subset hrec)).trans
            (not_lt.mp hvt)
        have hset : RestInv (t.modifyCtx ev.dst fun c => { c with vt := ev.ts }) := by
          refine hcancel.modifyCtx (fun hc => ⟨hc.sorted, hbehind, fun hin => ?_⟩)
            (fun hc => ⟨hc.normal, hc.control, hc.uid, hc.restored⟩) (hcancel.idle ev.dst)
          exact absurd ((hcancel.idle ev.dst).symm.trans hin) (by simp)
        have hpush : RestInv (pushProcessed ev.dst (antiRecord ev s)
            (t.modifyCtx ev.dst fun c => { c with vt := ev.ts })) := by
          refine ⟨hset.kernel.push _ _ ?_ fun hw => ?_, fun i => ?_⟩
          · rw [antiRecord_ev, modifyCtx_self]
          · have hcount := h.kernel.counters (hframe.wrapped hw) ev.dst
            rw [(antiRecord_counters ev s).1, (antiRecord_counters ev s).2]
            exact ⟨hcount.normal, hcount.control⟩
          · exact (modifyCtx_proj (·.inEvent) (f := fun c => { c with
              processed := c.processed ++ [antiRecord ev s]
              executed := c.executed ++ [antiRecord ev s] }) (fun _ => rfl) _ ev.dst i).trans
              (hset.idle i)
        exact hpush.validate cfg
  · exact h

/-! ## Executing a handler -/

/-- What a handler leaves of the bookkeeping of the LPs. -/
structure HandlerFrame (s s' : Simulation Q σ) : Prop where
  vt : ∀ id, (s'.ctx id).vt = (s.ctx id).vt
  inEvent : ∀ id, (s'.ctx id).inEvent = (s.ctx id).inEvent
  processed : ∀ id, (s'.ctx id).processed = (s.ctx id).processed
  wrapped : s'.hist.wrapped = false → s.hist.wrapped = false

theorem HandlerFrame.refl (s : Simulation Q σ) : HandlerFrame s s :=
  ⟨fun _ => rfl, fun _ => rfl, fun _ => rfl, id⟩

theorem HandlerFrame.trans {s s' s'' : Simulation Q σ} (h : HandlerFrame s s')
    (h' : HandlerFrame s' s'') : HandlerFrame s s'' :=
  ⟨fun id => (h'.vt id).trans (h.vt id), fun id => (h'.inEvent id).trans (h.inEvent id),
    fun id => (h'.processed id).trans (h.processed id), h.wrapped ∘ h'.wrapped⟩

theorem SendFrame.handlerFrame {s s' : Simulation Q σ} (h : SendFrame s s') : HandlerFrame s s' :=
  ⟨fun id => (h.work id).vt, fun id => (h.work id).inEvent, fun id => (h.work id).processed,
    h.wrapped⟩

theorem handlerFrame_setLp (id : LPId) (state : σ) (s : Simulation Q σ) :
    HandlerFrame s (setLp id state s) := by
  have hproj : ∀ {β : Type} (p : LPContext σ → β) (_ : ∀ c, p { c with lp := state } = p c) (i : LPId),
      p ((setLp id state s).ctx i) = p (s.ctx i) := fun p hp i =>
    modifyCtx_proj p (f := fun c => { c with lp := state }) hp s id i
  exact ⟨hproj (·.vt) fun _ => rfl, hproj (·.inEvent) fun _ => rfl,
    hproj (·.processed) fun _ => rfl, fun h => h⟩

theorem KernelInv.setLp {s : Simulation Q σ} (h : KernelInv s) (id : LPId) (state : σ) :
    KernelInv (setLp id state s) :=
  h.modifyCtx (fun hc => ⟨hc.sorted, hc.behind, hc.executing⟩)
    (fun hc => ⟨hc.normal, hc.control, hc.uid, hc.restored⟩)

theorem requestWrite_counters (lp : LogicalProcess σ) (state : σ) (entity : EntityId)
    (rec : ProcessedRecord) :
    (requestWrite lp state entity rec).preNextSeqNormal = rec.preNextSeqNormal ∧
      (requestWrite lp state entity rec).preNextSeqControl = rec.preNextSeqControl := by
  unfold requestWrite
  split
  · exact ⟨rfl, rfl⟩
  · split
    · exact ⟨rfl, rfl⟩
    · split <;> exact ⟨rfl, rfl⟩

/-- The record that a handler returns is still about its event and its counters. -/
structure SameOrigin (rec rec' : ProcessedRecord) : Prop where
  ev : rec'.ev = rec.ev
  normal : rec'.preNextSeqNormal = rec.preNextSeqNormal
  control : rec'.preNextSeqControl = rec.preNextSeqControl

theorem SameOrigin.of_eq {rec rec₁ rec' : ProcessedRecord} (h : SameOrigin rec₁ rec')
    (hev : rec₁.ev = rec.ev) (hn : rec₁.preNextSeqNormal = rec.preNextSeqNormal)
    (hc : rec₁.preNextSeqControl = rec.preNextSeqControl) : SameOrigin rec rec' :=
  ⟨h.ev.trans hev, h.normal.trans hn, h.control.trans hc⟩

/-- What is known when a handler returns or throws. -/
structure HandlerOutcome (s₀ : Simulation Q σ) (rec : ProcessedRecord)
    (r : Except String ProcessedRecord) (s : Simulation Q σ) : Prop where
  kernel : KernelInv s
  frame : HandlerFrame s₀ s
  origin : ∀ rec', r = .ok rec' → SameOrigin rec rec'

theorem runHandler_outcome (model : Model σ) (cfg : SimulationConfig) (id : LPId)
    (handler : Handler σ) (rec : ProcessedRecord) {s : Simulation Q σ} (h : KernelInv s)
    (hframe : HandlerFrame s₀ s) :
    HandlerOutcome s₀ rec (exec (runHandler model cfg id handler rec) s).1
      (exec (runHandler model cfg id handler rec) s).2 := by
  induction handler generalizing rec s with
  | done state =>
      refine ⟨h.setLp id state, hframe.trans (handlerFrame_setLp id state s), fun rec' hrec => ?_⟩
      cases hrec
      exact ⟨rfl, rfl, rfl⟩
  | throw state what =>
      exact ⟨h.setLp id state, hframe.trans (handlerFrame_setLp id state s), nofun⟩
  | send asked next ih =>
      have hkeep := keeps_send (.handler id rec.ev.ts) cfg asked s h
      have hsend := hframe.trans (send_frame cfg (.handler id rec.ev.ts) asked s).handlerFrame
      unfold runHandler
      rw [exec_observe_bind]
      generalize exec (send (.handler id rec.ev.ts) cfg asked) s = res at hkeep hsend ⊢
      obtain ⟨r, t⟩ := res
      have hnext := ih (exceptionOf r) { rec with sent := rec.sent ++ r.toOption.toList } hkeep hsend
      exact ⟨hnext.kernel, hnext.frame, fun rec' hrec => (hnext.origin rec' hrec).of_eq rfl rfl rfl⟩
  | requestWrite state entity next ih =>
      have hnext := ih (WarpSim.requestWrite (model id) state entity rec) h hframe
      have hcount := requestWrite_counters (model id) state entity rec
      exact ⟨hnext.kernel, hnext.frame, fun rec' hrec =>
        (hnext.origin rec' hrec).of_eq (requestWrite_ev _ _ _ _) hcount.1 hcount.2⟩
  | emitCommitted ts payload next ih =>
      unfold runHandler
      split
      · have hnext := ih none { rec with committed := rec.committed ++ [⟨ts, payload⟩] } h hframe
        exact ⟨hnext.kernel, hnext.frame, fun rec' hrec =>
          (hnext.origin rec' hrec).of_eq rfl rfl rfl⟩
      · exact ih _ rec h hframe

/-- Entering an event moves the virtual time of its LP forward to the event. -/
theorem KernelInv.entered {s : Simulation Q σ} (h : KernelInv s) {ev : Event}
    (hvt : ¬ ev.ts < (s.ctx ev.dst).vt) : KernelInv (entered ev s) :=
  h.modifyCtx
    (fun hc => ⟨hc.sorted, fun rec hrec => (hc.behind rec hrec).trans (not_lt.mp hvt), fun _ => rfl⟩)
    (fun hc => ⟨hc.normal, hc.control, hc.uid, hc.restored⟩)

/-- Leaving the event brings the kernel back to rest. -/
theorem restInv_left {s t : Simulation Q σ} {ev : Event} (hs : RestInv s)
    (ht : KernelInv t) (hframe : HandlerFrame (entered ev s) t) : RestInv (left ev.dst t) := by
  refine ⟨ht.modifyCtx (fun hc => ⟨hc.sorted, hc.behind, fun hin => by cases hin⟩)
    (fun hc => ⟨hc.normal, hc.control, hc.uid, hc.restored⟩), fun i => ?_⟩
  by_cases hi : i = ev.dst
  · rw [hi, left, modifyCtx_self]
  · rw [left, modifyCtx_of_ne t _ hi, hframe.inEvent i, entered, modifyCtx_of_ne s _ hi]
    exact hs.idle i

theorem RestInv.push {s : Simulation Q σ} (h : RestInv s) (id : LPId) (rec : ProcessedRecord)
    (hvt : rec.ev.ts = (s.ctx id).vt) (hrec : s.hist.wrapped = false →
      rec.preNextSeqNormal ≠ 0 ∧ rec.preNextSeqControl ≠ 0) :
    RestInv (pushProcessed id rec s) :=
  ⟨h.kernel.push id rec hvt hrec, fun i => (modifyCtx_proj (·.inEvent) (f := fun c => { c with
    processed := c.processed ++ [rec]
    executed := c.executed ++ [rec] }) (fun _ => rfl) s id i).trans (h.idle i)⟩

theorem restInv_release (ev : Event) :
    Keeps RestInv (modify fun s => releaseDeferredFor ev.dst ev.target (recordRelease ev s) :
      KernelM Q σ PUnit) :=
  keeps_modify fun s h => by
    rw [releaseDeferredFor_eq]
    exact h.frame rfl rfl rfl rfl rfl

theorem restInv_executeEvent (model : Model σ) (cfg : SimulationConfig) (ev : Event)
    {s : Simulation Q σ} (h : RestInv s) (hvt : ¬ ev.ts < (s.ctx ev.dst).vt) :
    RestInv (exec (executeEvent model cfg ev (s.ctx ev.dst)) s).2 := by
  unfold executeEvent
  rw [exec_modify_bind, exec_observe_bind, exec_modify_bind]
  have hrun := runHandler_outcome model cfg ev.dst ((model ev.dst).onEvent (s.ctx ev.dst).lp ev)
    (newRecord ev (s.ctx ev.dst)) (h.kernel.entered hvt) (HandlerFrame.refl (entered ev s))
  change RestInv (exec _ (left ev.dst (exec (runHandler model cfg ev.dst
    ((model ev.dst).onEvent (s.ctx ev.dst).lp ev) (newRecord ev (s.ctx ev.dst)))
    (entered ev s)).2)).2
  change HandlerOutcome (entered ev s) (newRecord ev (s.ctx ev.dst)) _ _ at hrun
  have heq : (s.modifyCtx ev.dst fun c =>
    { c with vt := ev.ts, inEvent := true, currentExecTs := ev.ts }) = entered ev s := rfl
  rw [heq]
  generalize exec (runHandler model cfg ev.dst _ _) (entered ev s) = res at hrun ⊢
  obtain ⟨r, t⟩ := res
  have hleft := restInv_left h hrun.kernel hrun.frame
  have hvt' : ((left ev.dst t).ctx ev.dst).vt = ev.ts := by
    rw [left, modifyCtx_self]
    exact (hrun.frame.vt ev.dst).trans (by rw [entered, modifyCtx_self])
  cases r with
  | ok rec =>
      have horigin := hrun.origin rec rfl
      have hpush : RestInv (pushProcessed ev.dst rec (left ev.dst t)) := by
        refine hleft.push ev.dst rec (by rw [hvt', horigin.ev]; rfl) fun hw => ?_
        have hcount := h.kernel.counters (hrun.frame.wrapped hw) ev.dst
        rw [horigin.normal, horigin.control]
        exact ⟨hcount.normal, hcount.control⟩
      dsimp only
      rw [exec_modify_bind]
      refine keeps_ite (I := RestInv) (fun _ => ?_) (fun _ => ?_) _ hpush
      · refine keeps_bind (restInv_release _) fun _ => ?_
        exact keeps_bind (keeps_modify fun _ h => h.frame rfl rfl rfl rfl rfl) fun _ =>
          restInv_validate cfg
      · exact keeps_bind (keeps_modify fun _ h => h.frame rfl rfl rfl rfl rfl) fun _ =>
          restInv_validate cfg
  | error what =>
      dsimp only
      rw [exec_ite]
      split
      · rw [exec_modify_bind]
        have hback : RestInv ((left ev.dst t).modifyCtx ev.dst fun c =>
            { c with vt := (s.ctx ev.dst).vt, currentExecTs := (s.ctx ev.dst).vt }) := by
          refine hleft.modifyCtx (fun hc => ⟨hc.sorted, fun rec hrec => ?_, fun _ => rfl⟩)
            (fun hc => ⟨hc.normal, hc.control, hc.uid, hc.restored⟩) (hleft.idle ev.dst)
          have hsame : ((left ev.dst t).ctx ev.dst).processed = (s.ctx ev.dst).processed := by
            rw [left, modifyCtx_self]
            exact (hrun.frame.processed ev.dst).trans (by rw [entered, modifyCtx_self])
          exact (h.kernel.context ev.dst).behind rec (hsame ▸ hrec)
        exact keeps_bind (keeps_modify fun _ h => h.frame rfl rfl rfl rfl rfl)
          (fun _ => restInv_validate cfg) _ hback
      · exact hleft

theorem restInv_enqueue (ev : Event) :
    Keeps RestInv (modify (fun s => s.enqueue ev) : KernelM Q σ PUnit) :=
  keeps_modify fun _ h => h.frame rfl rfl rfl rfl rfl

theorem restInv_dispatchPositive (model : Model σ) (cfg : SimulationConfig) (ev : Event) :
    Keeps RestInv (dispatchPositive model cfg ev : KernelM Q σ Unit) := by
  intro s h
  unfold dispatchPositive
  rw [exec_lookupCtx_bind]
  split
  · rw [exec_ite]
    split
    · rw [exec_modify_bind]
      have hcount : RestInv (countStraggler s) := h.frame rfl rfl rfl rfl rfl
      have hrollback := restInv_rollback (Q := Q) model cfg ev.dst ev.ts
      exact keeps_bind hrollback (fun _ => keeps_bind (restInv_enqueue ev) fun _ =>
        restInv_validate cfg) _ hcount
    · next hvt => exact restInv_executeEvent model cfg ev h hvt
  · exact h

theorem restInv_dispatch (model : Model σ) (cfg : SimulationConfig) (ev : Event) :
    Keeps RestInv (dispatch model cfg ev : KernelM Q σ Unit) := by
  unfold dispatch
  refine keeps_bind (keeps_modify fun _ h => h.frame rfl rfl rfl rfl rfl) fun _ =>
    keeps_bind (restInv_validate cfg) fun _ => ?_
  exact keeps_ite (fun _ => restInv_dispatchAnti model cfg ev)
    fun _ => restInv_dispatchPositive model cfg ev

theorem RestInv.discardPending {s : Simulation Q σ} (h : RestInv s) (skip : Event → Bool) :
    RestInv (discardPending skip s) :=
  h.frame rfl rfl rfl rfl rfl

theorem restInv_dispatchNext (model : Model σ) (cfg : SimulationConfig) :
    Keeps RestInv (dispatchNext model cfg : KernelM Q σ Bool) := by
  have hpop : Keeps RestInv (popNext : KernelM Q σ (Option Event)) := by
    unfold popNext
    refine keeps_get_bind fun s => keeps_bind (keeps_modify fun t h => h.discardPending _) fun _ =>
      keeps_get_bind fun t => ?_
    split
    · exact keeps_pure _
    · exact keeps_bind (keeps_modify fun _ h => h.frame rfl rfl rfl rfl rfl) fun _ => keeps_pure _
  unfold dispatchNext
  refine keeps_bind hpop fun r => ?_
  cases r with
  | none => exact keeps_pure _
  | some ev =>
      refine keeps_observe_bind (restInv_dispatch model cfg ev) fun r => ?_
      cases r with
      | ok _ => exact keeps_pure _
      | error what =>
          exact keeps_bind (keeps_modify fun _ h => h.frame rfl rfl rfl rfl rfl) fun _ =>
            keeps_throw _

end WarpSim

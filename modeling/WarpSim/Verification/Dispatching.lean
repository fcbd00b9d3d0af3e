import WarpSim.Verification.Phases

/-! # What a dispatch does

`dispatch_` rolls an LP back, records an anti-message, or runs a handler to its end or to an exception.
Here each of them is described by what it leaves in the contexts of the LPs, in the queue and among the
sends. -/

namespace WarpSim

variable {Q : EventQueue} {σ : Type} {model : Model σ} {cfg : SimulationConfig}

open Prog Simulation

/-! ## Sending anti-messages -/

/-- `send` cannot refuse the anti-message of the entry. -/
structure SentRecord.Annullable (cfg : SimulationConfig) (sent : SentRecord) : Prop where
  uid : sent.uid ≠ 0
  sequence : cfg.isControlEvent ≠ none → sent.msgTime.sequence ≠ 0

/-- The event as sent is the one that was asked for, up to its color and to a sequence number that was
not given. -/
structure SendRecord.Plain (r : SendRecord) : Prop where
  frame : r.ev = { r.asked with ts := r.ev.ts, gvtColor := r.ev.gvtColor }
  given : r.asked.ts.sequence ≠ 0 → r.ev.ts = r.asked.ts

/-- From `s` to `t` the LP has sent the anti-messages of the entries and taken the entries off its log. -/
structure Emitted (cfg : SimulationConfig) (id : LPId) (log : List SentRecord) (s t : Simulation Q σ)
    (more : List SendRecord) : Prop where
  asked : more.map (·.asked) = log.map (antiOf id)
  cause : ∀ r ∈ more, r.cause = .rollback id ∧ r.Plain
  sends : t.hist.sends = s.hist.sends ++ more
  pending : Q.elems t.pending =
    Q.elems s.pending + Multiset.ofList ((more.filter (·.rank = cfg.rank)).map (·.ev))
  others : ∀ i, i ≠ id → t.ctx i = s.ctx i
  work : SameWork (s.ctx id) (t.ctx id)
  sentLog : ∀ kept, (s.ctx id).sentLog = kept ++ log.reverse → (t.ctx id).sentLog = kept
  counters : (∀ sent ∈ log, sent.msgTime.sequence ≠ 0) →
    (t.ctx id).nextSeqNormal = (s.ctx id).nextSeqNormal ∧
      (t.ctx id).nextSeqControl = (s.ctx id).nextSeqControl
  lpIds : t.lpIds = s.lpIds

theorem Emitted.of_quiet {id : LPId} {s t : Simulation Q σ} (h : Quiet s t) : Emitted cfg id [] s t [] := by
  have hctx := h.ctx
  refine ⟨rfl, nofun, ?_, ?_, fun i _ => by rw [hctx], by rw [hctx]; exact .refl _, fun kept hkept => ?_,
    fun _ => by rw [hctx]; exact ⟨rfl, rfl⟩, h.lpIds⟩
  · rw [h, List.append_nil]
  · rw [h]
    simp
  · rw [hctx, hkept]
    simp

theorem Emitted.trans {id : LPId} {log log' : List SentRecord} {s t u : Simulation Q σ}
    {more more' : List SendRecord} (h : Emitted cfg id log s t more) (h' : Emitted cfg id log' t u more') :
    Emitted cfg id (log ++ log') s u (more ++ more') := by
  refine ⟨?_, fun r hr => ?_, ?_, ?_, fun i hi => (h'.others i hi).trans (h.others i hi), h.work.trans h'.work,
    fun kept hkept => ?_, fun hseq => ?_, h'.lpIds.trans h.lpIds⟩
  · rw [List.map_append, List.map_append, h.asked, h'.asked]
  · exact (List.mem_append.mp hr).elim (h.cause r) (h'.cause r)
  · rw [h'.sends, h.sends, List.append_assoc]
  · rw [h'.pending, h.pending, List.filter_append, List.map_append, add_assoc, Multiset.coe_add]
  · refine h'.sentLog kept (h.sentLog _ ?_)
    rw [hkept, List.reverse_append, List.append_assoc]
  · obtain ⟨hnormal, hcontrol⟩ := h.counters fun e he => hseq e (List.mem_append_left _ he)
    obtain ⟨hnormal', hcontrol'⟩ := h'.counters fun e he => hseq e (List.mem_append_right _ he)
    exact ⟨hnormal'.trans hnormal, hcontrol'.trans hcontrol⟩

theorem renumber_of_ne {id i : LPId} (hi : i ≠ id) (u n k : UInt64) (w : Bool) (s : Simulation Q σ) :
    (renumber id u n k w s).ctx i = s.ctx i :=
  Function.update_of_ne hi ..

theorem stampColor_eq (s : Simulation Q σ) (ev : Event) :
    stampColor cfg s ev = { ev with gvtColor := (stampColor cfg s ev).gvtColor } := by
  unfold stampColor
  split <;> rfl

theorem plain_of_stamped {s w : Simulation Q σ} {cause : SendCause} {asked ev : Event} {rank : RankId}
    {uid normal control : UInt64} {wraps : Bool} (h : Stamped cfg s asked ev uid normal control wraps)
    (huid : asked.uid ≠ 0) (htarget : asked.target = 0) :
    (sendRecord cause asked (stampColor cfg s ev) rank w).Plain := by
  refine ⟨?_, fun hseq => ?_⟩
  · have hframe := h.frame
    rw [(h.uid_given huid).1, h.untargeted htarget] at hframe
    change stampColor cfg s ev = { asked with
      ts := (stampColor cfg s ev).ts, gvtColor := (stampColor cfg s ev).gvtColor }
    rw [stampColor_ts, stampColor_eq]
    generalize (stampColor cfg s ev).gvtColor = color
    conv_lhs => rw [hframe]
  · exact (stampColor_ts ..).trans (h.sequence_given hseq).1

/-- The anti-message of an entry that can be annulled goes out. -/
theorem exec_send_anti {id : LPId} {sent : SentRecord} {s : Simulation Q σ} (hid : id ∈ s.lpIds)
    (hsent : sent.Annullable cfg) :
    ∃ ev t r, exec (send (.rollback id) cfg (antiOf id sent)) s = (.ok ev, t) ∧
      Emitted cfg id [sent] s (t.modifyCtx id fun c => { c with sentLog := c.sentLog.dropLast }) [r] := by
  have hvalid := quiet_validate cfg s
  have hids : id ∈ (validateInvariants cfg s).lpIds := hvalid.lpIds ▸ hid
  have hout := send_outcome cfg (.rollback id) (antiOf id sent) s
  generalize validateInvariants cfg s = v at hvalid hids hout
  rcases hres : exec (send (.rollback id) cfg (antiOf id sent)) s with ⟨res, t⟩
  rw [hres] at hout
  cases hout with
  | @sent ev uid normal control wraps _ hst hlog hquiet =>
      have hanti : (stampColor cfg v ev).isAnti = true := by rw [stampColor_isAnti, hst.frame]; rfl
      rw [logged_of_anti hanti] at hquiet
      change Quiet _ t at hquiet
      set w := renumber (antiOf id sent).src uid normal control wraps v with hw
      have hctx : t.ctx = w.ctx := hquiet.ctx.trans (posted_ctx ..)
      have hpost : posted (.rollback id) cfg (antiOf id sent) (stampColor cfg v ev) w = _ := posted_eq ..
      refine ⟨_, t, sendRecord (.rollback id) (antiOf id sent) (stampColor cfg v ev)
        (cfg.rankOf (stampColor cfg v ev).dst) w, rfl, ?_⟩
      have hself : t.ctx id = { s.ctx id with
          nextUid := uid, nextSeqNormal := normal, nextSeqControl := control } := by
        rw [hctx, ← hvalid.ctx]
        exact renumber_ctx_self ..
      refine ⟨rfl, fun r hr => ?_, ?_, ?_, fun i hi => ?_, ?_, fun kept hkept => ?_, fun hseq => ?_, ?_⟩
      · rw [List.mem_singleton.mp hr]
        exact ⟨rfl, plain_of_stamped hst hsent.uid rfl⟩
      · change t.hist.sends = _
        rw [hquiet, hpost, hw, hvalid]
        rfl
      · change Q.elems t.pending = _
        rw [hquiet, hpost]
        simp only [sendRecord, List.filter_cons, List.filter_nil, decide_eq_true_eq]
        rw [hw, hvalid]
        split
        · rw [Q.elems_push, ← Multiset.singleton_add, add_comm]
          rfl
        · exact (add_zero _).symm
      · rw [modifyCtx_of_ne t _ hi, hctx, ← hvalid.ctx]
        exact renumber_of_ne hi ..
      · rw [modifyCtx_self, hself]
        exact ⟨rfl, rfl, rfl, rfl, rfl, rfl, rfl, rfl⟩
      · rw [modifyCtx_self, hself]
        simp [hkept]
      · rw [modifyCtx_self, hself]
        have hgiven := hst.sequence_given (hseq sent (List.mem_singleton_self _))
        exact ⟨hgiven.2.1.trans (by rw [← hvalid.ctx]; rfl), hgiven.2.2.trans (by rw [← hvalid.ctx]; rfl)⟩
      · change t.lpIds = _
        rw [hquiet.lpIds, hpost, hw]
        exact hvalid.lpIds
  | unlogged _ hanti => cases hanti
  | refused hrefuse =>
      exfalso
      rcases hrefuse.untargeted rfl with huid | ⟨hseq, hcause⟩
      · exact hsent.uid huid
      · exact hcause.elim (fun h => h hids) fun h => hsent.sequence h hseq

theorem exec_emitAntis (cfg : SimulationConfig) {id : LPId} (log : List SentRecord) {s : Simulation Q σ} (hid : id ∈ s.lpIds)
    (hlog : ∀ sent ∈ log, sent.Annullable cfg) :
    ∃ t more, exec (emitAntis cfg id log) s = (.ok (), t) ∧ Emitted cfg id log s t more := by
  induction log generalizing s with
  | nil => exact ⟨s, [], rfl, .of_quiet rfl⟩
  | cons sent rest ih =>
      obtain ⟨ev, u, r, hsend, hone⟩ := exec_send_anti hid (hlog sent (List.mem_cons_self ..))
      obtain ⟨t, more, hrest, hmore⟩ := ih (by rw [hone.lpIds]; exact hid) fun e he =>
        hlog e (List.mem_cons_of_mem _ he)
      refine ⟨t, [r] ++ more, ?_, hone.trans hmore⟩
      unfold emitAntis
      rw [exec_bind_of_ok hsend, exec_modify_bind]
      exact hrest

/-! ## Rolling back -/

/-- What a rollback of the LP to the target makes of `s`. -/
structure RolledBack (model : Model σ) (cfg : SimulationConfig) (id : LPId) (target : TimeStamp)
    (s t : Simulation Q σ) (more : List SendRecord) : Prop where
  asked : more.map (·.asked) = (cancelledSends target (s.ctx id).sentLog).map (antiOf id)
  cause : ∀ r ∈ more, r.cause = .rollback id ∧ r.Plain
  sends : t.hist.sends = s.hist.sends ++ more
  pending : Q.elems t.pending = Q.elems s.pending +
    Multiset.ofList ((undoneRecords target (s.ctx id).processed).map (·.ev)) +
      Multiset.ofList ((more.filter (·.rank = cfg.rank)).map (·.ev))
  others : ∀ i, i ≠ id → t.ctx i = s.ctx i
  work : SameWork ((s.ctx id).rewind (model id) target) (t.ctx id)
  sentLog : (t.ctx id).sentLog = (s.ctx id).sentLog.rdropWhile fun sent => ¬ sent.sendTime < target
  counters : (∀ sent ∈ (s.ctx id).sentLog, sent.msgTime.sequence ≠ 0) →
    (t.ctx id).nextSeqNormal = ((s.ctx id).rewind (model id) target).nextSeqNormal ∧
      (t.ctx id).nextSeqControl = ((s.ctx id).rewind (model id) target).nextSeqControl
  lpIds : t.lpIds = s.lpIds

theorem rewind_sentLog (lp : LogicalProcess σ) (target : TimeStamp) (c : LPContext σ) :
    (c.rewind lp target).sentLog = c.sentLog := by
  rw [LPContext.rewind_eq]

theorem cancelledSends_eq (target : TimeStamp) (log : List SentRecord) :
    cancelledSends target log = (log.rtakeWhile fun sent => ¬ sent.sendTime < target).reverse := by
  rw [cancelledSends, List.rtakeWhile, List.reverse_reverse]

/-- `rollback_` comes to its end. -/
theorem exec_rollback_ok (model : Model σ) (cfg : SimulationConfig) {id : LPId} {s : Simulation Q σ} (target : TimeStamp)
    (hid : id ∈ s.lpIds) (hlog : ∀ sent ∈ (s.ctx id).sentLog, sent.Annullable cfg) :
    ∃ t more, exec (rollback model cfg id target) s = (.ok (), t) ∧
      RolledBack model cfg id target s t more := by
  have hq := quiet_validate cfg s
  unfold rollback
  rw [exec_modify_bind, exec_modify_bind, exec_modify_bind, exec_modify_bind, exec_get_bind]
  set w : Simulation Q σ := { validateInvariants cfg s with
    counters := { (validateInvariants cfg s).counters with
      rollbacksTotal := (validateInvariants cfg s).counters.rollbacksTotal + 1 } } with hw
  have hquiet : Quiet s w := hq.trans rfl
  change ∃ t more, exec (emitAntis cfg id (cancelledSends target
    ((unwound model id target w).ctx id).sentLog) >>= fun _ => modify (validateInvariants cfg))
      (unwound model id target w) = (.ok (), t) ∧ RolledBack model cfg id target s t more
  have hctx : (unwound model id target w).ctx =
      Function.update s.ctx id ((s.ctx id).rewind (model id) target) := by
    rw [unwound_ctx, hquiet.ctx]
  have hself : (unwound model id target w).ctx id = (s.ctx id).rewind (model id) target := by
    rw [hctx, Function.update_self]
  have hids : (unwound model id target w).lpIds = s.lpIds := by rw [unwound_lpIds, hquiet.lpIds]
  have hpending : Q.elems (unwound model id target w).pending = Q.elems s.pending +
      Multiset.ofList ((undoneRecords target (s.ctx id).processed).map (·.ev)) := by
    rw [unwound_eq, hquiet.ctx]
    dsimp only
    rw [Q.elems_foldl_push, List.map_reverse, Multiset.coe_reverse]
    rw [hquiet]
  have hsends : (unwound model id target w).hist.sends = s.hist.sends := by
    rw [unwound_eq, hquiet]
  rw [hself, rewind_sentLog]
  generalize unwound model id target w = u at hctx hself hids hpending hsends
  obtain ⟨v, more, hemit, hemitted⟩ := exec_emitAntis (s := u) cfg
    (cancelledSends target (s.ctx id).sentLog) (hids ▸ hid) fun sent hsent => hlog sent
      (List.mem_reverse.mp ((List.takeWhile_prefix _).subset hsent))
  have hv := quiet_validate cfg v
  have hlast := hemitted.trans (.of_quiet hv)
  rw [List.append_nil, List.append_nil] at hlast
  refine ⟨validateInvariants cfg v, more, ?_, ?_⟩
  · rw [exec_bind_of_ok hemit]
    rfl
  · refine ⟨hlast.asked, hlast.cause, hsends ▸ hlast.sends, hpending ▸ hlast.pending, fun i hi => ?_,
      hself ▸ hlast.work, ?_, fun hseq => ?_, hlast.lpIds.trans hids⟩
    · rw [hlast.others i hi, hctx, Function.update_of_ne hi]
    · refine hlast.sentLog _ ?_
      rw [hself, rewind_sentLog, cancelledSends_eq, List.reverse_reverse]
      exact List.rdropWhile_append_rtakeWhile.symm
    · rw [← hself]
      exact hlast.counters fun sent hsent => hseq sent
        (List.mem_reverse.mp ((List.takeWhile_prefix _).subset hsent))

/-! ## Dispatching -/

/-- The contexts and the sends are the same. -/
structure SameLps (s t : Simulation Q σ) : Prop where
  lpIds : t.lpIds = s.lpIds
  ctx : t.ctx = s.ctx
  sends : t.hist.sends = s.hist.sends

theorem SameLps.refl (s : Simulation Q σ) : SameLps s s := ⟨rfl, rfl, rfl⟩

theorem SameLps.trans {s t u : Simulation Q σ} (h : SameLps s t) (h' : SameLps t u) : SameLps s u :=
  ⟨h'.lpIds.trans h.lpIds, h'.ctx.trans h.ctx, h'.sends.trans h.sends⟩

theorem Quiet.sameLps {s t : Simulation Q σ} (h : Quiet s t) : SameLps s t := by
  rw [h]
  exact ⟨rfl, rfl, rfl⟩

/-- Only the contexts, the sends and the queue of the state before a rollback matter. -/
theorem RolledBack.congr {id : LPId} {target : TimeStamp} {s s' t : Simulation Q σ} {more : List SendRecord}
    (h : RolledBack model cfg id target s' t more) (hsame : SameLps s s') (hpending : s'.pending = s.pending) :
    RolledBack model cfg id target s t more := by
  obtain ⟨hids, hctx, hsends⟩ := hsame
  obtain ⟨hasked, hcause, hsent, hqueue, hothers, hwork, hlog, hcounters, hlps⟩ := h
  rw [hctx] at hasked hqueue hwork hlog hcounters
  refine ⟨hasked, hcause, hsends ▸ hsent, hpending ▸ hqueue, fun i hi => ?_, hwork, hlog, hcounters,
    hlps.trans hids⟩
  rw [hothers i hi, hctx]

/-- The anti-message has not found what it cancels in `u`, or its LP has been rolled back to it. -/
inductive Annuls (model : Model σ) (cfg : SimulationConfig) (ev : Event) (u v : Simulation Q σ)
    (more : List SendRecord) : Prop where
  | pending : (u.ctx ev.dst).processed.reverse.find? (matchesAnti ev) = none → SameLps u v → more = [] →
      Annuls model cfg ev u v more
  | processed (r) : (u.ctx ev.dst).processed.reverse.find? (matchesAnti ev) = some r →
      RolledBack model cfg ev.dst r.ev.ts u v more → Annuls model cfg ev u v more

/-- What the dispatch of the event does. -/
inductive DispatchStep (model : Model σ) (cfg : SimulationConfig) (ev : Event) (s t : Simulation Q σ) : Prop where
  /-- The destination is unknown. -/
  | nothing : SameLps s t → DispatchStep model cfg ev s t
  | straggler (u v more) : ev.dst ∈ s.lpIds → ev.ts < (s.ctx ev.dst).vt → SameLps s u →
      RolledBack model cfg ev.dst ev.ts u v more → SameLps v t → DispatchStep model cfg ev s t
  | annulled (u v more) : ev.isAnti = true → ev.dst ∈ s.lpIds →
      ¬ ev.ts < (s.ctx ev.dst).vt → SameLps s u → Annuls model cfg ev u v more →
      SameLps (pushProcessed ev.dst (antiRecord ev u) (v.modifyCtx ev.dst fun c => { c with vt := ev.ts })) t →
      DispatchStep model cfg ev s t
  | executed (u w rec) : ev.isAnti = false → ev.dst ∈ s.lpIds →
      ¬ ev.ts < (s.ctx ev.dst).vt → SameLps s u →
      exec (runHandler model cfg ev.dst ((model ev.dst).onEvent (u.ctx ev.dst).lp ev)
        (newRecord ev (u.ctx ev.dst))) (entered ev u) = (.ok rec, w) →
      SameLps (pushProcessed ev.dst rec (left ev.dst w)) t → DispatchStep model cfg ev s t
  /-- The handler has thrown, and the event is deferred or lost. -/
  | thrown (u w what) (vt execTs : TimeStamp) : ev.isAnti = false → ev.dst ∈ s.lpIds →
      ¬ ev.ts < (s.ctx ev.dst).vt → SameLps s u →
      exec (runHandler model cfg ev.dst ((model ev.dst).onEvent (u.ctx ev.dst).lp ev)
        (newRecord ev (u.ctx ev.dst))) (entered ev u) = (.error what, w) →
      SameLps ((left ev.dst w).modifyCtx ev.dst fun c => { c with vt := vt, currentExecTs := execTs }) t →
      DispatchStep model cfg ev s t

/-- The entries of all logs can be annulled. -/
def Loggable (cfg : SimulationConfig) (s : Simulation Q σ) : Prop :=
  ∀ i, ∀ sent ∈ (s.ctx i).sentLog, sent.Annullable cfg

theorem exec_cancel (model : Model σ) {ev : Event} {u : Simulation Q σ} (hdst : ev.dst ∈ u.lpIds) (hlog : Loggable cfg u) :
    ∃ v more, exec (cancel model cfg ev) u = (.ok (), v) ∧ Annuls model cfg ev u v more := by
  unfold cancel
  rw [exec_modify_bind, exec_lookupCtx_bind, if_pos (show ev.dst ∈ (insertTombstone ev u).lpIds from hdst)]
  split
  · next r hfind =>
    rw [exec_modify_bind]
    obtain ⟨v, more, hexec, hback⟩ := exec_rollback_ok model cfg r.ev.ts
      (show ev.dst ∈ ({ insertTombstone ev u with
        counters := { (insertTombstone ev u).counters with
          antiCancelledProcessed := (insertTombstone ev u).counters.antiCancelledProcessed + 1
          rollbacksAnti := (insertTombstone ev u).counters.rollbacksAnti + 1 } } : Simulation Q σ).lpIds
        from hdst) (hlog ev.dst)
    exact ⟨v, more, hexec, .processed r hfind (hback.congr ⟨rfl, rfl, rfl⟩ rfl)⟩
  · next hfind => exact ⟨_, [], rfl, .pending hfind ⟨rfl, rfl, rfl⟩ rfl⟩

theorem dispatchAnti_step {ev : Event} {s u : Simulation Q σ} (hs : SameLps s u) (hlog : Loggable cfg u)
    (hanti : ev.isAnti = true) : DispatchStep model cfg ev s (exec (dispatchAnti model cfg ev) u).2 := by
  unfold dispatchAnti
  rw [exec_lookupCtx_bind]
  split
  · next hdst =>
    rw [exec_ite]
    split
    · next hvt =>
      rw [exec_modify_bind]
      obtain ⟨v, more, hexec, hback⟩ := exec_rollback_ok model cfg ev.ts
        (show ev.dst ∈ (countStraggler u).lpIds from hdst) (hlog ev.dst)
      rw [exec_bind_of_ok hexec]
      have hback' := hback.congr (s := u) ⟨rfl, rfl, rfl⟩ rfl
      exact .straggler u v more (hs.lpIds ▸ hdst) (hs.ctx ▸ hvt) hs hback' ⟨rfl, rfl, rfl⟩
    · next hvt =>
      rw [exec_get_bind]
      obtain ⟨v, more, hexec, hcancel⟩ := exec_cancel model hdst hlog
      dsimp only
      rw [exec_bind_of_ok hexec, exec_modify_bind, exec_modify_bind]
      have hquiet := quiet_validate cfg (pushProcessed ev.dst (antiRecord ev u)
        (v.modifyCtx ev.dst fun c => { c with vt := ev.ts }))
      exact .annulled u v more hanti (hs.lpIds ▸ hdst) (hs.ctx ▸ hvt) hs hcancel hquiet.sameLps
  · exact .nothing hs

/-- The kernel when `dispatch_` has made its entry checks. -/
def handed (cfg : SimulationConfig) (ev : Event) (s : Simulation Q σ) : Simulation Q σ :=
  validateInvariants cfg (recordDispatch ev s)

/-- The run of the handler of an event. -/
def handling (model : Model σ) (cfg : SimulationConfig) (ev : Event) (s : Simulation Q σ) :
    Except String ProcessedRecord × Simulation Q σ :=
  exec (runHandler model cfg ev.dst ((model ev.dst).onEvent (s.ctx ev.dst).lp ev)
    (newRecord ev (s.ctx ev.dst))) (entered ev s)

/-- A handler has been run in `u`, to its end or to an exception. -/
inductive Handled (model : Model σ) (cfg : SimulationConfig) (ev : Event) (u t : Simulation Q σ) : Prop where
  | ran (rec) : (handling model cfg ev u).1 = .ok rec →
      t.hist.wrapped = (handling model cfg ev u).2.hist.wrapped →
      SameLps (pushProcessed ev.dst rec (left ev.dst (handling model cfg ev u).2)) t → Handled model cfg ev u t
  | thrown (what) (vt execTs : TimeStamp) : (handling model cfg ev u).1 = .error what →
      t.hist.wrapped = (handling model cfg ev u).2.hist.wrapped →
      SameLps ((left ev.dst (handling model cfg ev u).2).modifyCtx ev.dst fun c =>
        { c with vt := vt, currentExecTs := execTs }) t → Handled model cfg ev u t

theorem executeEvent_handled (model : Model σ) (cfg : SimulationConfig) (ev : Event) (u : Simulation Q σ) :
    Handled model cfg ev u (exec (executeEvent model cfg ev (u.ctx ev.dst)) u).2 := by
  unfold executeEvent
  rw [exec_modify_bind, exec_observe_bind, exec_modify_bind]
  have hhandling : exec (runHandler model cfg ev.dst ((model ev.dst).onEvent (u.ctx ev.dst).lp ev)
    (newRecord ev (u.ctx ev.dst))) (u.modifyCtx ev.dst fun c =>
      { c with vt := ev.ts, inEvent := true, currentExecTs := ev.ts }) = handling model cfg ev u := rfl
  rw [hhandling]
  rcases hrun : handling model cfg ev u with ⟨what | rec, w⟩
  · dsimp only
    rw [exec_ite]
    split
    · rw [exec_modify_bind, exec_modify_bind]
      have hquiet := quiet_validate cfg (deferTargetedEvent ev ((left ev.dst w).modifyCtx ev.dst fun c =>
        { c with vt := (u.ctx ev.dst).vt, currentExecTs := (u.ctx ev.dst).vt }))
      have hdeferred : SameLps ((left ev.dst w).modifyCtx ev.dst fun c =>
          { c with vt := (u.ctx ev.dst).vt, currentExecTs := (u.ctx ev.dst).vt })
          (deferTargetedEvent ev ((left ev.dst w).modifyCtx ev.dst fun c =>
            { c with vt := (u.ctx ev.dst).vt, currentExecTs := (u.ctx ev.dst).vt })) := ⟨rfl, rfl, rfl⟩
      refine .thrown what (u.ctx ev.dst).vt (u.ctx ev.dst).vt (by rw [hrun]) ?_ ?_
      · rw [hrun]
        exact congrArg (·.hist.wrapped) hquiet
      · rw [hrun]
        exact hdeferred.trans hquiet.sameLps
    · refine .thrown what ((left ev.dst w).ctx ev.dst).vt ((left ev.dst w).ctx ev.dst).currentExecTs (by rw [hrun])
        (by rw [hrun]; rfl) ?_
      rw [hrun]
      refine ⟨rfl, ?_, rfl⟩
      simp [Simulation.modifyCtx, left]
  · dsimp only
    rw [exec_modify_bind, exec_ite]
    split
    · rw [exec_modify_bind, exec_modify_bind]
      have hquiet := quiet_validate cfg { released ev (pushProcessed ev.dst rec (left ev.dst w)) with
        counters := { (released ev (pushProcessed ev.dst rec (left ev.dst w))).counters with
          totalProcessed := (released ev (pushProcessed ev.dst rec (left ev.dst w))).counters.totalProcessed + 1 } }
      refine .ran rec (by rw [hrun]) ?_ ?_
      · rw [hrun]
        refine (congrArg (·.hist.wrapped) hquiet).trans ?_
        rw [released_eq]
        rfl
      · rw [hrun]
        refine SameLps.trans ?_ hquiet.sameLps
        rw [released_eq]
        exact ⟨rfl, rfl, rfl⟩
    · rw [exec_modify_bind]
      have hquiet := quiet_validate cfg { pushProcessed ev.dst rec (left ev.dst w) with
        counters := { (pushProcessed ev.dst rec (left ev.dst w)).counters with
          totalProcessed := (pushProcessed ev.dst rec (left ev.dst w)).counters.totalProcessed + 1 } }
      refine .ran rec (by rw [hrun]) ?_ ?_
      · rw [hrun]
        exact congrArg (·.hist.wrapped) hquiet
      · rw [hrun]
        refine SameLps.trans ?_ hquiet.sameLps
        exact ⟨rfl, rfl, rfl⟩

theorem executeEvent_step {ev : Event} {s u : Simulation Q σ} (hs : SameLps s u) (hanti : ev.isAnti = false)
    (hdst : ev.dst ∈ s.lpIds) (hvt : ¬ ev.ts < (s.ctx ev.dst).vt) :
    DispatchStep model cfg ev s (exec (executeEvent model cfg ev (u.ctx ev.dst)) u).2 := by
  cases executeEvent_handled model cfg ev u with
  | ran rec hres _ ht => exact .executed u _ rec hanti hdst hvt hs (Prod.ext hres rfl) ht
  | thrown what vt execTs hres _ ht => exact .thrown u _ what vt execTs hanti hdst hvt hs (Prod.ext hres rfl) ht

theorem dispatchPositive_step {ev : Event} {s u : Simulation Q σ} (hs : SameLps s u) (hlog : Loggable cfg u)
    (hanti : ev.isAnti = false) : DispatchStep model cfg ev s (exec (dispatchPositive model cfg ev) u).2 := by
  unfold dispatchPositive
  rw [exec_lookupCtx_bind]
  split
  · next hdst =>
    rw [exec_ite]
    split
    · next hvt =>
      rw [exec_modify_bind]
      obtain ⟨v, more, hexec, hback⟩ := exec_rollback_ok model cfg ev.ts
        (show ev.dst ∈ (countStraggler u).lpIds from hdst) (hlog ev.dst)
      rw [exec_bind_of_ok hexec, exec_modify_bind]
      have hback' := hback.congr (s := u) ⟨rfl, rfl, rfl⟩ rfl
      have hv : SameLps v (v.enqueue ev) := ⟨rfl, rfl, rfl⟩
      exact .straggler u v more (hs.lpIds ▸ hdst) (hs.ctx ▸ hvt) hs hback'
        (hv.trans (quiet_validate cfg _).sameLps)
    · next hvt => exact executeEvent_step hs hanti (hs.lpIds ▸ hdst) (hs.ctx ▸ hvt)
  · exact .nothing hs

theorem DispatchStep.of_sameLps {ev : Event} {s t t' : Simulation Q σ} (h : DispatchStep model cfg ev s t)
    (ht : SameLps t t') : DispatchStep model cfg ev s t' := by
  cases h with
  | nothing h => exact .nothing (h.trans ht)
  | straggler u v more hdst hvt hu hback hv => exact .straggler u v more hdst hvt hu hback (hv.trans ht)
  | annulled u v more hanti hdst hvt hu hcancel hv =>
      exact .annulled u v more hanti hdst hvt hu hcancel (hv.trans ht)
  | executed u w rec hanti hdst hvt hu hrun hw =>
      exact .executed u w rec hanti hdst hvt hu hrun (hw.trans ht)
  | thrown u w what vt execTs hanti hdst hvt hu hrun hw =>
      exact .thrown u w what vt execTs hanti hdst hvt hu hrun (hw.trans ht)

/-- The dispatching phase deals with the event at the front of the queue, if there is one. -/
theorem dispatch_step (model : Model σ) {s : Simulation Q σ} (hlog : Loggable cfg s) :
    SameLps s (Phase.dispatch.after model cfg s) ∨ ∃ ev, Q.top? (popScan s).pending = some ev ∧
      DispatchStep model cfg ev s (Phase.dispatch.after model cfg s) := by
  unfold Phase.after Phase.perform
  rw [exec_bind_pure_state]
  unfold dispatchNext
  rw [exec_bind, exec_popNext]
  cases htop : Q.top? (popScan s).pending with
  | none => exact Or.inl ⟨rfl, rfl, rfl⟩
  | some ev =>
      refine Or.inr ⟨ev, rfl, ?_⟩
      dsimp only
      rw [exec_observe_bind]
      have hstep : DispatchStep model cfg ev s
          (exec (dispatch model cfg ev) { popScan s with pending := Q.pop (popScan s).pending }).2 := by
        unfold dispatch
        rw [exec_modify_bind, exec_modify_bind, exec_ite]
        have hpopped : SameLps s
            (recordDispatch ev { popScan s with pending := Q.pop (popScan s).pending }) := ⟨rfl, rfl, rfl⟩
        generalize recordDispatch ev { popScan s with pending := Q.pop (popScan s).pending } = u at hpopped ⊢
        have hs : SameLps s (validateInvariants cfg u) := hpopped.trans (quiet_validate cfg u).sameLps
        have hlog' : Loggable cfg (validateInvariants cfg u) := by
          intro i
          rw [hs.ctx]
          exact hlog i
        split
        · next hanti => exact dispatchAnti_step hs hlog' hanti
        · next hanti => exact dispatchPositive_step hs hlog' (by simpa using hanti)
      generalize exec (dispatch model cfg ev) _ = res at hstep ⊢
      obtain ⟨what | _, t⟩ := res
      · exact hstep.of_sameLps ⟨rfl, rfl, rfl⟩
      · exact hstep

/-- The kernel when the event at the front of the queue has been taken from it. -/
def taken (s : Simulation Q σ) : Simulation Q σ := { popScan s with pending := Q.pop (popScan s).pending }

/-- An event that is in time is handled. -/
theorem dispatch_handled (model : Model σ) (cfg : SimulationConfig) {ev : Event} {s : Simulation Q σ}
    (htop : Q.top? (popScan s).pending = some ev) (hpos : ev.isAnti = false) (hdst : ev.dst ∈ s.lpIds)
    (hvt : ¬ ev.ts < (s.ctx ev.dst).vt) :
    Handled model cfg ev (handed cfg ev (taken s)) (Phase.dispatch.after model cfg s) := by
  have hquiet := quiet_validate cfg (recordDispatch ev (taken s))
  have hctx : (handed cfg ev (taken s)).ctx = s.ctx := hquiet.ctx
  have hids : (handed cfg ev (taken s)).lpIds = s.lpIds := hquiet.lpIds
  have hhandled := executeEvent_handled model cfg ev (handed cfg ev (taken s))
  have hdispatch : exec (dispatch model cfg ev) (taken s) =
      exec (executeEvent model cfg ev ((handed cfg ev (taken s)).ctx ev.dst)) (handed cfg ev (taken s)) := by
    unfold dispatch
    rw [exec_modify_bind, exec_modify_bind, exec_ite, if_neg (by simp [hpos])]
    change exec (dispatchPositive model cfg ev) (handed cfg ev (taken s)) = _
    unfold dispatchPositive
    rw [exec_lookupCtx_bind, if_pos (by rw [hids]; exact hdst), exec_ite, if_neg (by rw [hctx]; exact hvt)]
  unfold Phase.after Phase.perform
  rw [exec_bind_pure_state]
  unfold dispatchNext
  rw [exec_bind, exec_popNext, htop]
  dsimp only
  rw [exec_observe_bind]
  have hstep : Handled model cfg ev (handed cfg ev (taken s))
      (exec (dispatch model cfg ev) { popScan s with pending := Q.pop (popScan s).pending }).2 := by
    change Handled model cfg ev _ (exec (dispatch model cfg ev) (taken s)).2
    rw [hdispatch]
    exact hhandled
  generalize exec (dispatch model cfg ev) _ = res at hstep ⊢
  obtain ⟨what | _, t⟩ := res
  · cases hstep with
    | ran rec hres hwrapped ht => exact .ran rec hres hwrapped (ht.trans ⟨rfl, rfl, rfl⟩)
    | thrown what vt execTs hres hwrapped ht =>
        exact .thrown what vt execTs hres hwrapped (ht.trans ⟨rfl, rfl, rfl⟩)
  · exact hstep

end WarpSim

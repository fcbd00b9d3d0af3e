import WarpSim.Verification.Sequential.Settling

/-! # How a run opens

Kernels with the same LPs start them alike, whatever has been delivered before. From the start on the turns of
an LP lead from the state that it was started in. -/

namespace WarpSim

variable {Q : EventQueue} {σ : Type} {model : Model σ} {cfg : SimulationConfig}

open Prog Simulation

/-! ## Kernels that are alike -/

/-- Alike in what `send` looks at while LPs are started, and in what has been sent. -/
structure Alike (s t : Simulation Q σ) : Prop where
  lpIds : s.lpIds = t.lpIds
  ctx : s.ctx = t.ctx
  entityOwner : s.entityOwner = t.entityOwner
  gvtColor : s.gvtColor = t.gvtColor
  sends : s.hist.sends.map (·.ev) = t.hist.sends.map (·.ev)

theorem Alike.quiet {s t s' t' : Simulation Q σ} (h : Alike s t) (hs : Quiet s s') (ht : Quiet t t') : Alike s' t' := by
  obtain ⟨hids, hctx, howner, hcolor, hsends⟩ := h
  rw [hs, ht]
  exact ⟨hids, hctx, howner, hcolor, hsends⟩

theorem Alike.modifyCtx {s t : Simulation Q σ} (h : Alike s t) (id : LPId) (f : LPContext σ → LPContext σ) :
    Alike (s.modifyCtx id f) (t.modifyCtx id f) := by
  obtain ⟨hids, hctx, howner, hcolor, hsends⟩ := h
  refine ⟨hids, ?_, howner, hcolor, hsends⟩
  unfold Simulation.modifyCtx
  rw [hctx]

theorem Alike.recordSend {s t : Simulation Q σ} (h : Alike s t) (cause : SendCause) (asked ev : Event) (rank : RankId) :
    Alike (recordSend cause asked ev rank s) (recordSend cause asked ev rank t) := by
  obtain ⟨hids, hctx, howner, hcolor, hsends⟩ := h
  refine ⟨hids, hctx, howner, hcolor, ?_⟩
  change (s.hist.sends ++ [sendRecord cause asked ev rank s]).map (·.ev) =
    (t.hist.sends ++ [sendRecord cause asked ev rank t]).map (·.ev)
  rw [List.map_append, List.map_append, hsends]
  rfl

/-- What touches nothing that matters for the start leaves kernels alike. -/
theorem agrees_beside {f f' : Simulation Q σ → Simulation Q σ} (hf : ∀ s t, Alike s t → Alike s (f s) ∧ Alike t (f' t)) :
    Agrees Alike (modify f : KernelM Q σ PUnit) (modify f') := by
  refine agrees_modify fun s t h => ?_
  obtain ⟨hs, ht⟩ := hf s t h
  exact ⟨hs.lpIds.symm.trans (h.lpIds.trans ht.lpIds), hs.ctx.symm.trans (h.ctx.trans ht.ctx),
    hs.entityOwner.symm.trans (h.entityOwner.trans ht.entityOwner),
    hs.gvtColor.symm.trans (h.gvtColor.trans ht.gvtColor), hs.sends.symm.trans (h.sends.trans ht.sends)⟩

theorem agrees_validate : Agrees Alike (modify (validateInvariants cfg) : KernelM Q σ PUnit)
    (modify (validateInvariants cfg)) :=
  agrees_modify fun s t h => h.quiet (quiet_validate cfg s) (quiet_validate cfg t)

theorem agrees_lookupCtx (id : LPId) : Agrees Alike (lookupCtx id : KernelM Q σ _) (lookupCtx id) := by
  refine agrees_get_bind fun s t h => ?_
  rw [h.lpIds, h.ctx]
  exact agrees_ite Iff.rfl (agrees_pure _) (agrees_throw _)

/-! ## Sending alike -/

theorem agrees_assignUid (ev : Event) : Agrees Alike (assignUid ev : KernelM Q σ _) (assignUid ev) := by
  refine agrees_ite Iff.rfl (agrees_pure _) (agrees_bind (agrees_lookupCtx _) fun ctx => ?_)
  refine agrees_bind (agrees_modify fun s t h => ?_) fun _ => agrees_ite Iff.rfl (agrees_throw _) (agrees_pure _)
  have hctx := h.modifyCtx ev.src fun c => { c with nextUid := c.nextUid + 1 }
  exact ⟨hctx.lpIds, hctx.ctx, hctx.entityOwner, hctx.gvtColor, hctx.sends⟩

theorem agrees_assignSequence (ev : Event) :
    Agrees Alike (assignSequence cfg ev : KernelM Q σ _) (assignSequence cfg ev) := by
  have hnormal : Agrees Alike (modify (bumpSeqNormal ev.src) : KernelM Q σ PUnit) (modify (bumpSeqNormal ev.src)) := by
    refine agrees_modify fun s t h => ?_
    have hctx := h.modifyCtx ev.src fun c => { c with nextSeqNormal := c.nextSeqNormal + 1 }
    exact ⟨hctx.lpIds, hctx.ctx, hctx.entityOwner, hctx.gvtColor, hctx.sends⟩
  have hcontrol : Agrees Alike (modify (bumpSeqControl ev.src) : KernelM Q σ PUnit) (modify (bumpSeqControl ev.src)) := by
    refine agrees_modify fun s t h => ?_
    have hctx := h.modifyCtx ev.src fun c => { c with nextSeqControl := c.nextSeqControl + 1 }
    exact ⟨hctx.lpIds, hctx.ctx, hctx.entityOwner, hctx.gvtColor, hctx.sends⟩
  refine agrees_ite Iff.rfl (agrees_pure _) (agrees_bind (agrees_lookupCtx _) fun ctx => ?_)
  cases cfg.isControlEvent with
  | none => exact agrees_bind hnormal fun _ => agrees_pure _
  | some isControlEvent =>
      refine agrees_ite Iff.rfl (agrees_bind hcontrol fun _ => ?_) (agrees_bind hnormal fun _ => ?_) <;>
        exact agrees_ite Iff.rfl (agrees_throw _) (agrees_pure _)

theorem agrees_routeTarget (ev : Event) :
    Agrees Alike (routeTarget cfg ev : KernelM Q σ _) (routeTarget cfg ev) := by
  refine agrees_ite Iff.rfl (agrees_pure _) (agrees_bind ?_ fun _ => agrees_ite Iff.rfl (agrees_throw _) (agrees_pure _))
  refine agrees_get_bind fun s t h => ?_
  cases cfg.directoryForEntity with
  | none =>
      dsimp only
      rw [h.entityOwner]
      cases t.entityOwner ev.target <;> exact agrees_pure _
  | some directoryForEntity =>
      refine agrees_ite Iff.rfl (agrees_throw _) (agrees_bind ?_ fun _ => agrees_pure _)
      exact agrees_beside fun _ _ _ => ⟨⟨rfl, rfl, rfl, rfl, rfl⟩, ⟨rfl, rfl, rfl, rfl, rfl⟩⟩

theorem agrees_logSend (ev : Event) : Agrees Alike (logSend ev : KernelM Q σ _) (logSend ev) :=
  agrees_ite Iff.rfl (agrees_pure _) (agrees_bind (agrees_lookupCtx _) fun _ => agrees_modify fun _ _ h => h.modifyCtx _ _)

theorem agrees_deliver (cause : SendCause) (asked ev : Event) :
    Agrees Alike (deliver cause cfg asked ev : KernelM Q σ _) (deliver cause cfg asked ev) := by
  have hcount : ∀ e, Agrees Alike (modify (countSend e) : KernelM Q σ PUnit) (modify (countSend e)) := fun e =>
    agrees_beside fun _ _ _ => ⟨⟨rfl, rfl, rfl, rfl, rfl⟩, ⟨rfl, rfl, rfl, rfl, rfl⟩⟩
  have hpost : ∀ e (f : Simulation Q σ → Simulation Q σ), (∀ s, Alike s (f s)) →
      Agrees Alike (modify fun s => recordSend cause asked e (cfg.rankOf ev.dst) (f s) : KernelM Q σ PUnit)
        (modify fun s => recordSend cause asked e (cfg.rankOf ev.dst) (f s)) := by
    intro e f hf
    refine agrees_modify fun s t h => Alike.recordSend ?_ cause asked e _
    exact (agrees_beside fun s t _ => ⟨hf s, hf t⟩ : Agrees Alike (modify f : KernelM Q σ PUnit) (modify f)) s t h |>.2
  refine agrees_get_bind fun s t h => ?_
  rw [h.gvtColor]
  refine agrees_ite Iff.rfl ?_ (agrees_ite Iff.rfl ?_ ?_)
  · refine agrees_bind (hcount _) fun _ => agrees_bind (hpost _ _ fun s => ⟨rfl, rfl, rfl, rfl, rfl⟩) fun _ => ?_
    exact agrees_bind agrees_validate fun _ => agrees_bind (agrees_logSend _) fun _ => agrees_pure _
  · refine agrees_bind (agrees_beside fun s t _ => ?_) fun _ => agrees_bind (hcount _) fun _ => ?_
    · have htrack : ∀ s : Simulation Q σ, Alike s (s.trackInflightSend ev) := by
        intro s
        unfold trackInflightSend
        split <;> exact ⟨rfl, rfl, rfl, rfl, rfl⟩
      exact ⟨htrack s, htrack t⟩
    · refine agrees_bind (hpost _ _ fun s => ⟨rfl, rfl, rfl, rfl, rfl⟩) fun _ => ?_
      exact agrees_bind (agrees_logSend _) fun _ => agrees_bind agrees_validate fun _ => agrees_pure _
  · refine agrees_bind (agrees_beside fun _ _ _ => ?_) fun _ => agrees_bind (hcount _) fun _ => ?_
    · exact ⟨⟨rfl, rfl, rfl, rfl, rfl⟩, ⟨rfl, rfl, rfl, rfl, rfl⟩⟩
    · refine agrees_bind (hpost _ _ fun s => ⟨rfl, rfl, rfl, rfl, rfl⟩) fun _ => ?_
      exact agrees_bind (agrees_logSend _) fun _ => agrees_bind agrees_validate fun _ => agrees_pure _

theorem agrees_send (cause : SendCause) (asked : Event) :
    Agrees Alike (send cause cfg asked : KernelM Q σ _) (send cause cfg asked) := by
  refine agrees_bind agrees_validate fun _ => agrees_bind ?_ fun ev => agrees_deliver cause asked ev
  exact agrees_bind (agrees_assignUid asked) fun ev => agrees_bind (agrees_assignSequence ev) fun _ => agrees_routeTarget _

theorem agrees_runStarter (id : LPId) (starter : Starter σ) :
    Agrees Alike (runStarter cfg id starter : KernelM Q σ _) (runStarter cfg id starter) := by
  have hset : ∀ state, Agrees Alike (modify (setLp id state) : KernelM Q σ PUnit) (modify (setLp id state)) :=
    fun state => agrees_modify fun _ _ h => h.modifyCtx id _
  induction starter with
  | done state => exact hset state
  | throw state what => exact agrees_bind (hset state) fun _ => agrees_throw _
  | send ev next ih => exact agrees_observe_bind (agrees_send _ _) fun r => ih _

theorem agrees_startAll (ids : List LPId) :
    Agrees Alike (startAll model cfg ids : KernelM Q σ _) (startAll model cfg ids) := by
  induction ids with
  | nil => exact agrees_pure _
  | cons id rest ih =>
      refine agrees_get_bind fun s t h => ?_
      rw [h.ctx]
      exact agrees_bind (agrees_runStarter id _) fun _ => ih

/-! ## Before the start -/

/-- The LPs are as constructed, and nothing has been sent. -/
structure Pristine (model : Model σ) (s : Simulation Q σ) : Prop where
  ctx : ∀ i, s.ctx i = { lp := (model i).init }
  owner : ∀ entity, s.entityOwner entity = none
  sends : s.hist.sends = []

theorem Pristine.alike {s t : Simulation Q σ} (hs : Pristine model s) (ht : Pristine model t) (hids : s.lpIds = t.lpIds)
    (hcolor : s.gvtColor = t.gvtColor) : Alike s t :=
  ⟨hids, funext fun i => (hs.ctx i).trans (ht.ctx i).symm, funext fun e => (hs.owner e).trans (ht.owner e).symm,
    hcolor, by rw [hs.sends, ht.sends]⟩

theorem Pristine.prune {s : Simulation Q σ} (h : Pristine model s) (gvt : TimeStamp) :
    Pristine model (pruneToGvt cfg gvt s) := by
  refine ⟨fun i => ?_, h.owner, h.sends⟩
  rcases prune_ctx_cases cfg gvt s i with ⟨-, hctx⟩ | ⟨-, hctx⟩ <;> rw [hctx, h.ctx]
  rfl

/-- Without migrations and directories LPs stay as constructed until they are started. -/
theorem restClosed_pristine (hdir : cfg.directoryForEntity = none) :
    RestClosed model cfg fun s : Simulation Q σ => s.hist.migrations ≠ [] ∨ Pristine model s where
  quiet hq h := by
    rw [hq]
    exact h.imp_right fun h => ⟨h.ctx, h.owner, h.sends⟩
  receive srcRank ev h := by
    rw [receiveEvent_eq]
    exact h.imp_right fun h => ⟨h.ctx, h.owner, h.sends⟩
  acknowledge key h := by
    rw [receiveAck_eq]
    exact h.imp_right fun h => ⟨h.ctx, h.owner, h.sends⟩
  arrive _ _ := Or.inl (by simp [recordMigration])
  migrate _ _ := Or.inl (by simp [takeOver, recordMigration])
  misplace _ h := h.imp_right fun h => ⟨h.ctx, h.owner, h.sends⟩
  notify _ hne _ := absurd hdir hne
  peek h := h.imp_right fun h => ⟨h.ctx, h.owner, h.sends⟩
  advance {s gvt} _ h := h.imp_right fun h =>
    have hraised : Pristine model (raiseGvt gvt s) := ⟨h.ctx, h.owner, h.sends⟩
    hraised.prune gvt
  prune h := h.imp_right fun h => h.prune _
  flip h := h.imp_right fun h => ⟨h.ctx, h.owner, h.sends⟩
  reset h := h.imp_right fun h => ⟨h.ctx, h.owner, h.sends⟩
  finish {s} h := h.imp_right fun h =>
    have hpruned : Pristine model (pruneToGvt cfg maxStamp s) := h.prune maxStamp
    ⟨hpruned.ctx, hpruned.owner, hpruned.sends⟩

theorem keeps_color_pollTransport (color : UInt8) (polled : List WireMessage) :
    Keeps (fun s : Simulation Q σ => s.gvtColor = color) (pollTransport model cfg polled) := by
  have hready : Keeps (fun s : Simulation Q σ => s.gvtColor = color) (applyReadyMigrations model) := by
    intro s hs
    unfold applyReadyMigrations
    have hmigrated : Migrated s (exec (applyMigrations model s.pendingMigrations) s).2 := migrated_applyMigrations ..
    rw [exec_get_bind, hmigrated.rest]
    exact hs
  induction polled with
  | nil => exact keeps_pure _
  | cons msg rest ih =>
      refine keeps_bind ?_ fun _ => ih
      cases msg with
      | event srcRank dstRank ev =>
          refine keeps_modify fun s hs => ?_
          rw [receiveEvent_eq]
          exact hs
      | migration srcRank dstRank mig => exact keeps_bind (keeps_modify fun s hs => hs) fun _ => hready
      | ack srcRank dstRank key =>
          refine keeps_ite (fun _ => keeps_modify fun s hs => ?_) fun _ => keeps_pure _
          rw [receiveAck_eq]
          exact hs

theorem restClosed_started (b : Bool) : RestClosed model cfg fun s : Simulation Q σ => s.started = b where
  quiet hq h := by rwa [hq]
  receive srcRank ev h := by rwa [receiveEvent_eq]
  acknowledge key h := by rwa [receiveAck_eq]
  arrive _ h := h
  migrate _ h := h
  misplace _ h := h
  notify asked _ h := (send_frame cfg .notification asked _).started.trans h
  peek h := h
  advance _ h := h
  prune h := h
  flip h := h
  reset h := h
  finish h := h

theorem restClosed_lpIds (ids : List LPId) : RestClosed model cfg fun s : Simulation Q σ => s.lpIds = ids where
  quiet hq h := hq.lpIds.trans h
  receive srcRank ev h := by rwa [receiveEvent_eq]
  acknowledge key h := by rwa [receiveAck_eq]
  arrive _ h := h
  migrate _ h := h
  misplace _ h := h
  notify asked _ h := (send_frame cfg .notification asked _).lpIds.trans h
  peek h := h
  advance _ h := h
  prune h := h
  flip h := h
  reset h := h
  finish h := h

/-! ## The opening of a run -/

/-- LPs are set up before they are started, and the host sends nothing. -/
def SetUpFirst (cfg : SimulationConfig) (p : Phase) (s : Simulation Q σ) : Prop :=
  p.Proper cfg ∧ (∀ id, p = .addLp id → s.started = false) ∧ ∀ ev, p ≠ .send ev

/-- The LPs have been started in `s`, as they were constructed, and the run has come to `t` since. -/
structure Opened (model : Model σ) (cfg : SimulationConfig) (s t : Simulation Q σ) : Prop where
  way : UnderWay model cfg (Simulation.create Q model) s
  unstarted : s.started = false
  pristine : Pristine model s
  color : s.gvtColor = 0
  run : PhaseRun model cfg (fun p _ => p.Proper cfg ∧ p.Driven) (Phase.start.after model cfg s) t

theorem start_after {s : Simulation Q σ} (h : s.started = false) :
    Phase.start.after model cfg s = (exec (startAll model cfg s.lpIds) { s with started := true }).2 := by
  change (exec (startIfNeeded model cfg) s).2 = _
  unfold startIfNeeded
  rw [exec_get_bind, exec_ite, if_neg (by simp [h]), exec_modify_bind]

theorem start_after_started {s : Simulation Q σ} (h : s.started = true) : Phase.start.after model cfg s = s := by
  change (exec (startIfNeeded model cfg) s).2 = s
  unfold startIfNeeded
  rw [exec_get_bind, exec_ite, if_pos h]
  rfl

theorem Opened.underWay {s t : Simulation Q σ} (h : Opened model cfg s t) :
    UnderWay model cfg (Simulation.create Q model) t :=
  (h.way.step (p := .start) trivial trivial).trans (h.run.mono fun _ _ hp => hp.1)

theorem Opened.started {s t : Simulation Q σ} (h : Opened model cfg s t) : t.started = true := by
  have hbase : BaseInv s.atRest := h.way.baseInv
  have hbase' : BaseInv (Phase.start.after model cfg s).atRest :=
    (h.way.step (p := .start) trivial trivial).baseInv
  exact AllMoves.started_mono (h.run.moves hbase') (startIfNeeded_moves model cfg hbase).2

/-- A run that sets up its LPs first is as constructed, or it has been opened. -/
theorem PhaseRun.opened {t : Simulation Q σ} (h : PhaseRun model cfg (SetUpFirst cfg) (Simulation.create Q model) t)
    (hdir : cfg.directoryForEntity = none) (hmig : t.hist.migrations = []) :
    t.started = false ∧ Pristine model t ∧ t.gvtColor = 0 ∨ ∃ s, Opened model cfg s t := by
  induction h with
  | refl => exact Or.inl ⟨rfl, ⟨fun _ => rfl, fun _ => rfl, rfl⟩, rfl⟩
  | @step t p hrun hready hp ih =>
      have hway : UnderWay model cfg (Simulation.create Q model) t := hrun.mono fun _ _ hp => hp.1
      have hmoves := (Phase.after_moves model cfg hway.baseInv hready).1
      have hmig' : t.hist.migrations = [] := by
        have hle : t.hist.migrations <+: (p.after model cfg t).hist.migrations := (AllMoves.extends hmoves).migrations
        rw [hmig] at hle
        exact List.prefix_nil.mp hle
      obtain ⟨hproper, hsets, hsilent⟩ := hp
      rcases ih hmig' with ⟨hunstarted, hpristine, hcolor⟩ | ⟨s, hopened⟩
      · cases p with
        | addLp id =>
            change (exec (WarpSim.addLp model id) t).2.started = false ∧ Pristine model (exec (WarpSim.addLp model id) t).2 ∧
              (exec (WarpSim.addLp model id) t).2.gvtColor = 0 ∨ _
            unfold WarpSim.addLp
            rw [exec_get_bind, exec_ite]
            split
            · exact Or.inl ⟨hunstarted, hpristine, hcolor⟩
            · rw [exec_modify]
              refine Or.inl ⟨hunstarted, ⟨fun i => ?_, hpristine.owner, hpristine.sends⟩, hcolor⟩
              by_cases hi : i = id
              · simp [hi]
              · simp only [Function.update_of_ne hi]
                exact hpristine.ctx i
        | schedule ev => exact Or.inl ⟨hunstarted, ⟨hpristine.ctx, hpristine.owner, hpristine.sends⟩, hcolor⟩
        | send ev => exact absurd rfl (hsilent ev)
        | start => exact Or.inr ⟨t, hway, hunstarted, hpristine, hcolor, .refl⟩
        | poll polled =>
            refine Or.inl ⟨(restClosed_started false).after (p := .poll polled) trivial hunstarted, ?_, ?_⟩
            · exact ((restClosed_pristine hdir).after (p := .poll polled) trivial (Or.inr hpristine)).resolve_left
                (not_not.mpr hmig)
            · exact keeps_color_pollTransport 0 polled t hcolor
        | dispatch => exact absurd (hunstarted.symm.trans hready) (by simp)
        | collect env doCollectives => exact absurd (hunstarted.symm.trans hready) (by simp)
        | finalize env => exact hproper.elim
      · have hstarted := hopened.started
        have hdriven : p.Driven → ∃ s, Opened model cfg s (p.after model cfg t) := fun hdriven =>
          ⟨s, hopened.way, hopened.unstarted, hopened.pristine, hopened.color, hopened.run.step hready ⟨hproper, hdriven⟩⟩
        refine Or.inr ?_
        cases p with
        | addLp id => exact absurd (hstarted.symm.trans (hsets id rfl)) (by simp)
        | start =>
            rw [start_after_started hstarted]
            exact ⟨s, hopened⟩
        | _ => exact hdriven trivial

/-! ## From the start on -/

theorem keeps_lpIds_startAll (ids known : List LPId) :
    Keeps (fun s : Simulation Q σ => s.lpIds = known) (startAll model cfg ids) := by
  have hstarter : ∀ id (starter : Starter σ),
      Keeps (fun s : Simulation Q σ => s.lpIds = known) (runStarter cfg id starter) := by
    intro id starter
    induction starter with
    | done state => exact keeps_modify fun s h => h
    | throw state what => exact keeps_bind (keeps_modify fun s h => h) fun _ => keeps_throw _
    | send ev next ih => exact keeps_observe_bind (fun s h => (send_frame cfg (.start id) ev s).lpIds.trans h) fun r => ih _
  induction ids with
  | nil => exact keeps_pure _
  | cons id rest ih => exact keeps_get_bind fun s => keeps_bind (hstarter id _) fun _ => ih

/-- From `s` to `t` no LP has come in, and nothing has been sent at the start of an LP. -/
structure Since (s t : Simulation Q σ) : Prop where
  lpIds : t.lpIds = s.lpIds
  sends : ∃ more, t.hist.sends = s.hist.sends ++ more ∧ ∀ r ∈ more, r.cause.isStart = false

theorem Since.of_eq {s t : Simulation Q σ} (hids : t.lpIds = s.lpIds) (hsends : t.hist.sends = s.hist.sends) :
    Since s t := ⟨hids, [], by rw [hsends, List.append_nil], by simp⟩

theorem Since.trans {s t u : Simulation Q σ} (h : Since s t) (h' : Since t u) : Since s u := by
  obtain ⟨more, hsends, hmore⟩ := h.sends
  obtain ⟨more', hsends', hmore'⟩ := h'.sends
  refine ⟨h'.lpIds.trans h.lpIds, more ++ more', by rw [hsends', hsends, List.append_assoc], fun r hr => ?_⟩
  exact (List.mem_append.mp hr).elim (hmore r) (hmore' r)

theorem Since.starts {s t : Simulation Q σ} (h : Since s t) (i : LPId) :
    starts i t.hist.sends = starts i s.hist.sends := by
  obtain ⟨more, hsends, hmore⟩ := h.sends
  rw [hsends, starts_append, starts_eq_nil hmore, List.append_nil]

theorem SameLps.since {s t : Simulation Q σ} (h : SameLps s t) : Since s t := .of_eq h.lpIds h.sends

theorem RolledBack.since {id : LPId} {target : TimeStamp} {s t : Simulation Q σ} {more : List SendRecord}
    (h : RolledBack model cfg id target s t more) : Since s t := by
  refine ⟨h.lpIds, more, h.sends, fun r hr => ?_⟩
  rw [(h.cause r hr).1]
  rfl

theorem SmoothStep.since {ev : Event} {s t : Simulation Q σ} (h : SmoothStep model cfg ev s t) : Since s t := by
  cases h with
  | nothing hsame => exact hsame.since
  | straggler u v more hu hback hv => exact hu.since.trans (hback.since.trans hv.since)
  | annulled u v more _ hu hcancel hv =>
      have hback : Since u v := by
        cases hcancel with
        | pending _ hsame => exact hsame.since
        | processed r _ hback => exact hback.since
      exact hu.since.trans (hback.trans ⟨hv.lpIds, hv.since.sends⟩)
  | executed u w rec _ hdst hu hrun hw =>
      have hsame := runHandler_same model cfg ev.dst ((model ev.dst).onEvent (u.ctx ev.dst).lp ev)
        (newRecord ev (u.ctx ev.dst)) (entered ev u)
      obtain ⟨more, hsends, hcause, -⟩ := runHandler_conducted model cfg ev.dst
        ((model ev.dst).onEvent (u.ctx ev.dst).lp ev) (newRecord ev (u.ctx ev.dst)) (s := entered ev u)
        (hu.lpIds ▸ hdst)
      rw [hrun] at hsame hsends
      have hran : Since u w := ⟨hsame.lpIds, more, hsends, fun r hr => by rw [hcause r hr]; rfl⟩
      exact hu.since.trans (hran.trans ⟨hw.lpIds, hw.since.sends⟩)

theorem Phase.after_since {p : Phase} {s : Simulation Q σ} (hdriven : p.Driven)
    (hoff : cfg.enableInstallBeforeUseBuffering = false) (hlog : Loggable cfg s)
    (hd : Disciplined (p.after model cfg s).hist) : Since s (p.after model cfg s) := by
  have hrest : p.IsRest → Since s (p.after model cfg s) := by
    intro hrest
    have hclosed : RestClosed model cfg _ := restClosed_sends (Q := Q) s.hist.sends
    refine .of_eq ((restClosed_lpIds s.lpIds).after hrest rfl) ?_
    refine (hclosed.after hrest (Or.inl rfl)).resolve_right fun ⟨r, hr, hnote⟩ => ?_
    have hr' := hd.sends r hr
    unfold SendRecord.Disciplined at hr'
    rwa [hnote] at hr'
  cases p with
  | addLp id => exact hdriven.elim
  | start => exact hdriven.elim
  | schedule ev => exact .of_eq rfl rfl
  | send ev =>
      obtain ⟨more, hsends, hcause, -⟩ := send_noted cfg .host ev s
      have hafter : (Phase.send ev).after model cfg s = (exec (WarpSim.send .host cfg ev) s).2 :=
        exec_bind_pure_state ..
      rw [hafter]
      exact ⟨(send_frame cfg .host ev s).lpIds, more, hsends, fun r hr => by rw [(hcause r hr).1]; rfl⟩
  | poll polled => exact hrest trivial
  | collect env doCollectives => exact hrest trivial
  | finalize env => exact hrest trivial
  | dispatch =>
      rcases dispatch_phase_smooth hoff hlog hd.lost with hsame | ⟨ev, -, hstep⟩
      · exact hsame.since
      · exact hstep.since

section

variable {s t : Simulation Q σ} {i : LPId} {ι β : Type} [DecidableEq ι] {mode : SnapshotMode (model i) ι β}
  {Admits : Event → Prop}

theorem Opened.lpIds_start (h : Opened model cfg s t) : (Phase.start.after model cfg s).lpIds = s.lpIds := by
  rw [start_after h.unstarted]
  exact keeps_lpIds_startAll s.lpIds s.lpIds { s with started := true } rfl

theorem Opened.kept_start (h : Opened model cfg s t) (i : LPId) : ((Phase.start.after model cfg s).ctx i).kept = [] := by
  have hframe : RestFrame (s.ctx i) ((Phase.start.after model cfg s).ctx i) :=
    Phase.after_restFrame (fun h => by cases h) h.way.booksInv h.way.baseInv (show Phase.Ready s .start from trivial) i
  rw [hframe.kept, h.pristine.ctx]
  rfl

/-- What the LP has handled since it was started has led it on from where it was then. -/
theorem Opened.ledger (h : Opened model cfg s t) (hkeeps : mode.Kept Admits)
    (hadmits : ∀ ev ∈ t.entered cfg, ev.dst = i → Admits ev) (hoff : cfg.enableInstallBeforeUseBuffering = false)
    (ht : Covered t.hist) (hd : Disciplined t.hist) :
    Since (Phase.start.after model cfg s) t ∧ (model i).Begins ((Phase.start.after model cfg s).ctx i).lp ∧
      ∃ turns, mode.Ledger ((Phase.start.after model cfg s).ctx i).lp turns t := by
  have hway : UnderWay model cfg (Simulation.create Q model) (Phase.start.after model cfg s) :=
    h.way.step (p := .start) trivial trivial
  have hkept := h.kept_start i
  obtain ⟨-, -, -, -, hrun⟩ := h
  generalize Phase.start.after model cfg s = s₁ at hway hkept hrun ⊢
  induction hrun with
  | refl =>
      obtain ⟨start, turns, hbegins, hledger⟩ := (hway.accountInv hkeeps hadmits hoff ht hd).ledger
      have hturns : turns = [] := List.map_eq_nil_iff.mp (hledger.records.trans hkept)
      have htrail := hledger.trail
      rw [hturns, Trail.nil_iff] at htrail
      rw [htrail]
      exact ⟨.of_eq rfl rfl, hbegins, turns, hledger⟩
  | @step u p hrun hready hp ih =>
      have hwayu : UnderWay model cfg (Simulation.create Q model) u := hway.trans (hrun.mono fun _ _ hp => hp.1)
      have hle : u.hist.Extends (p.after model cfg u).hist :=
        AllMoves.extends (Phase.after_moves model cfg hwayu.baseInv hready).1
      have hadmits' : ∀ ev ∈ u.entered cfg, ev.dst = i → Admits ev := fun ev hev =>
        hadmits ev ((entered_sublist hle).subset hev)
      obtain ⟨hsince, hbegins, turns, hledger⟩ := ih hadmits' (ht.mono hle) (hd.mono hle)
      have hprogress := hwayu.progress (ht.mono hle) (hd.mono hle)
      exact ⟨hsince.trans (Phase.after_since hp.2 hoff hprogress.logs.loggable hd), hbegins,
        (hledger.after hkeeps hadmits' hoff hp.2 hready hprogress (hd.mono hle) hd).1⟩

theorem Opened.accounted (h : Opened model cfg s t) (hcontract : SnapshotContract (model i) Admits)
    (hadmits : ∀ ev ∈ t.entered cfg, ev.dst = i → Admits ev) (hoff : cfg.enableInstallBeforeUseBuffering = false)
    (ht : Covered t.hist) (hd : Disciplined t.hist) : Since (Phase.start.after model cfg s) t ∧
      ∃ turns, Accounted model t i ((Phase.start.after model cfg s).ctx i).lp turns := by
  obtain ⟨ι, β, _, mode, hkeeps⟩ := hcontract.mode
  obtain ⟨hsince, hbegins, turns, hledger⟩ := h.ledger hkeeps hadmits hoff ht hd
  exact ⟨hsince, turns, hbegins, hledger.trail.mono fun _ _ _ hmade => hmade.1, hledger.records, hledger.sends⟩

end

/-- All events that have been sent until the LPs are started have been sent by their starters. -/
theorem Opened.starts_all {s t : Simulation Q σ} (h : Opened model cfg s t) :
    ∀ r ∈ (Phase.start.after model cfg s).hist.sends, r.cause.isStart = true := by
  obtain ⟨more, hsends, hmore⟩ := startAll_sends model cfg s.lpIds { s with started := true }
  rw [start_after h.unstarted, hsends]
  change ∀ r ∈ s.hist.sends ++ more, _
  rw [h.pristine.sends]
  exact hmore

/-- Two runs with the same LPs have opened alike. -/
theorem Opened.alike {s s' t t' : Simulation Q σ} (h : Opened model cfg s t) (h' : Opened model cfg s' t')
    (hids : s.lpIds = s'.lpIds) : Alike (Phase.start.after model cfg s) (Phase.start.after model cfg s') := by
  have halike := h.pristine.alike h'.pristine hids (h.color.trans h'.color.symm)
  have hlist : startAll model cfg s'.lpIds = (startAll model cfg s.lpIds : KernelM Q σ Unit) := by rw [hids]
  rw [start_after h.unstarted, start_after h'.unstarted, hlist]
  refine (agrees_startAll s.lpIds _ _ ?_).2
  exact ⟨halike.lpIds, halike.ctx, halike.entityOwner, halike.gvtColor, halike.sends⟩

end WarpSim

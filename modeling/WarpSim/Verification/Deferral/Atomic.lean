import WarpSim.Verification.Deferral.Coverage
import WarpSim.Verification.Deferral.Table
import WarpSim.Verification.Dispatching

/-! # What a deferred event leaves behind

When a handler misses its entity, the kernel puts the event into the deferral table and the virtual
time of the LP back. Whatever else the handler has done by then stays. -/

namespace WarpSim

variable {Q : EventQueue} {σ : Type} {model : Model σ} {cfg : SimulationConfig}

open Prog Simulation

/-! ## Deferring -/

/-- `dispatch_` takes its deferral exit. -/
structure Defers (model : Model σ) (cfg : SimulationConfig) (ev : Event) (s : Simulation Q σ) :
    Prop where
  positive : ev.isAnti = false
  known : ev.dst ∈ s.lpIds
  inTime : ¬ ev.ts < (s.ctx ev.dst).vt
  buffering : cfg.enableInstallBeforeUseBuffering = true
  targeted : ev.target ≠ 0
  noInstall : ev.payload.kind ≠ cfg.installEventKind
  missing : ∃ what, (handling model cfg ev (handed cfg ev s)).1 = .error what ∧
    isMissingEntityError what = true

/-- What the deferral exit makes of the kernel that the handler leaves behind. -/
def deferralExit (cfg : SimulationConfig) (ev : Event) (vt : TimeStamp) (s : Simulation Q σ) :
    Simulation Q σ :=
  validateInvariants cfg (deferTargetedEvent ev ((left ev.dst s).modifyCtx ev.dst fun c =>
    { c with vt := vt, currentExecTs := vt }))

theorem exec_dispatch_defers {ev : Event} {s : Simulation Q σ} (h : Defers model cfg ev s) :
    exec (dispatch model cfg ev) s = (.ok (), deferralExit cfg ev (s.ctx ev.dst).vt
      (handling model cfg ev (handed cfg ev s)).2) := by
  have hquiet := quiet_validate cfg (recordDispatch ev s)
  have hctx : (handed cfg ev s).ctx = s.ctx := hquiet.ctx
  have hids : (handed cfg ev s).lpIds = s.lpIds := hquiet.lpIds
  obtain ⟨what, hwhat, hmissing⟩ := h.missing
  unfold dispatch
  rw [exec_modify_bind, exec_modify_bind, exec_ite, if_neg (by simp [h.positive])]
  change exec (dispatchPositive model cfg ev) (handed cfg ev s) = _
  unfold dispatchPositive lookupCtx
  have hlookup : exec (do
      let s ← get
      if ev.dst ∈ s.lpIds then return s.ctx ev.dst else throw "Unknown LPId" : KernelM Q σ _)
      (handed cfg ev s) = (.ok ((handed cfg ev s).ctx ev.dst), handed cfg ev s) := by
    rw [exec_get_bind, exec_ite, if_pos (by rw [hids]; exact h.known)]
    rfl
  rw [exec_bind_of_ok hlookup, exec_ite, if_neg (by rw [hctx]; exact h.inTime)]
  unfold executeEvent
  rw [exec_modify_bind, exec_observe_bind, exec_modify_bind]
  have hhandling : exec (runHandler model cfg ev.dst ((model ev.dst).onEvent ((handed cfg ev s).ctx ev.dst).lp ev)
      (newRecord ev ((handed cfg ev s).ctx ev.dst))) ((handed cfg ev s).modifyCtx ev.dst fun c =>
        { c with vt := ev.ts, inEvent := true, currentExecTs := ev.ts }) =
      handling model cfg ev (handed cfg ev s) := rfl
  rw [hhandling, hwhat]
  dsimp only
  rw [exec_ite, if_pos ⟨h.buffering, h.targeted, h.noInstall, hmissing⟩, exec_modify_bind,
    exec_modify_bind, exec_modify, hctx]
  rfl

/-! ## Nothing has happened -/

/-- The event is in the deferral table. Otherwise only uid counters and what is noted about the run
differ. -/
structure AsBefore (ev : Event) (s t : Simulation Q σ) : Prop where
  table : t.deferredTargeted = (deferTargetedEvent ev s).deferredTargeted
  contexts : ∀ i, t.ctx i = { s.ctx i with
    nextUid := (t.ctx i).nextUid
    inEvent := (t.ctx i).inEvent
    currentExecTs := (t.ctx i).currentExecTs }
  directories : t.directoryLps = s.directoryLps
  others : Quiet { s with
    ctx := t.ctx
    deferredTargeted := t.deferredTargeted
    hist := t.hist } t

theorem Quiet.overwrite {s t : Simulation Q σ} (h : Quiet s t) (ctx : LPId → LPContext σ)
    (table : List (UInt64 × List Event)) (hist : History) :
    Quiet { s with ctx := ctx, deferredTargeted := table, hist := hist }
      { t with ctx := ctx, deferredTargeted := table, hist := hist } := by
  unfold Quiet at *
  rw [h]

theorem AsBefore.weight {ev : Event} {s t : Simulation Q σ} (h : AsBefore ev s t) : t.weight = s.weight :=
  h.others.weight

theorem weight_deliver (cause : SendCause) (asked ev : Event) (s : Simulation Q σ) :
    (exec (deliver cause cfg asked ev) s).2.weight = s.weight + 1 := by
  have hout := deliver_outcome cfg cause asked ev s
  generalize exec (deliver cause cfg asked ev) s = res at hout ⊢
  obtain ⟨r, t⟩ := res
  cases hout with
  | sent _ hquiet => rw [hquiet.weight, weight_logged, weight_posted]
  | unlogged _ _ hquiet => rw [hquiet.weight, weight_posted]

theorem weight_stamp (cfg : SimulationConfig) (asked : Event) (s : Simulation Q σ) :
    (exec (stamp cfg asked) s).2.weight = s.weight := by
  have hout : StampOutcome cfg asked s _ _ := stamp_outcome asked s
  generalize exec (stamp cfg asked) s = res at hout ⊢
  obtain ⟨r, t⟩ := res
  cases hout with
  | stamped _ hquiet => rw [hquiet.weight, weight_renumber]
  | refused _ _ hquiet => rw [hquiet.weight, weight_renumber]

/-- `send` delivers what it can stamp, and throws on anything else. -/
theorem exec_send_cases (cause : SendCause) (asked : Event) (s : Simulation Q σ) :
    (∃ what t, exec (stamp cfg asked) (validateInvariants cfg s) = (.error what, t) ∧
      exec (send cause cfg asked) s = (.error what, t)) ∨
    (∃ ev t, exec (stamp cfg asked) (validateInvariants cfg s) = (.ok ev, t) ∧
      (exec (send cause cfg asked) s).2.weight = s.weight + 1) := by
  have hvalidate := (quiet_validate cfg s).weight
  have hstamp := weight_stamp cfg asked (validateInvariants cfg s)
  rcases hres : exec (stamp cfg asked) (validateInvariants cfg s) with ⟨what | ev, t⟩
  · refine Or.inl ⟨what, t, rfl, ?_⟩
    unfold send
    rw [exec_modify_bind, exec_bind_of_error hres]
  · refine Or.inr ⟨ev, t, rfl, ?_⟩
    unfold send
    rw [hres] at hstamp
    rw [exec_modify_bind, exec_bind_of_ok hres, weight_deliver, hstamp, hvalidate]

/-! ## Handlers that get nothing out -/

/-- The run of a handler that throws and whose calls of `send` are all refused: the state in which
it leaves its LP, and the kernel, whose counters may have moved. -/
def declinedRun (cfg : SimulationConfig) (execTs : TimeStamp) :
    Handler σ → Simulation Q σ → Option (σ × Simulation Q σ)
  | .done _, _ => none
  | .throw state _, s => some (state, s)
  | .requestWrite _ _ next, s => declinedRun cfg execTs next s
  | .emitCommitted ts _ next, s =>
    declinedRun cfg execTs (next (if ts = execTs then none
      else some "emit_committed: ts must match the current event timestamp")) s
  | .send asked next, s =>
    match exec (stamp cfg asked) (validateInvariants cfg s) with
    | (.error what, t) => declinedRun cfg execTs (next (some what)) t
    | (.ok _, _) => none

theorem weight_runHandler_le (id : LPId) (handler : Handler σ) (rec : ProcessedRecord)
    (s : Simulation Q σ) : s.weight ≤ (exec (runHandler model cfg id handler rec) s).2.weight := by
  induction handler generalizing rec s with
  | done => exact le_refl _
  | throw => exact le_refl _
  | requestWrite state entity next ih => exact ih _ _
  | emitCommitted ts payload next ih =>
      unfold runHandler
      rw [exec_ite]
      split
      · exact ih _ _ _
      · exact ih _ _ _
  | send asked next ih =>
      unfold runHandler
      rw [exec_observe_bind]
      refine le_trans ?_ (ih _ _ _)
      rcases exec_send_cases (.handler id rec.ev.ts) asked s with ⟨what, t, hstamp, hsend⟩ | ⟨_, _, _, hweight⟩
      · have hsame := weight_stamp cfg asked (validateInvariants cfg s)
        rw [hstamp, (quiet_validate cfg s).weight] at hsame
        rw [hsend]
        exact le_of_eq hsame.symm
      · omega

/-- A handler that throws has all its sends refused, or makes the kernel heavier. -/
theorem runHandler_throws (model : Model σ) (cfg : SimulationConfig) (id : LPId) (handler : Handler σ) (rec : ProcessedRecord)
    (s : Simulation Q σ) (hthrows : ∃ what, (exec (runHandler model cfg id handler rec) s).1 = .error what) :
    match declinedRun cfg rec.ev.ts handler s with
    | some (state, t) => (exec (runHandler model cfg id handler rec) s).2 = setLp id state t
    | none => s.weight < (exec (runHandler model cfg id handler rec) s).2.weight := by
  induction handler generalizing rec s with
  | done =>
      obtain ⟨what, hwhat⟩ := hthrows
      cases hwhat
  | throw state what => rfl
  | requestWrite state entity next ih =>
      have hnext := ih (requestWrite (model id) state entity rec) s hthrows
      rw [requestWrite_ev] at hnext
      exact hnext
  | emitCommitted ts payload next ih =>
      by_cases hts : ts = rec.ev.ts
      · simp only [runHandler, declinedRun, if_pos hts] at hthrows ⊢
        exact ih none _ s hthrows
      · simp only [runHandler, declinedRun, if_neg hts] at hthrows ⊢
        exact ih _ rec s hthrows
  | send asked next ih =>
      unfold runHandler at hthrows ⊢
      rw [exec_observe_bind] at hthrows ⊢
      rcases exec_send_cases (.handler id rec.ev.ts) asked s with ⟨what, t, hstamp, hsend⟩ | ⟨_, _, hstamp, hweight⟩
      · have hsame := weight_stamp cfg asked (validateInvariants cfg s)
        rw [hstamp, (quiet_validate cfg s).weight] at hsame
        rw [hsend] at hthrows ⊢
        unfold declinedRun
        rw [hstamp]
        have hnext := ih (some what) _ t hthrows
        rw [hsame] at hnext
        exact hnext
      · unfold declinedRun
        rw [hstamp]
        exact lt_of_lt_of_le (by omega) (weight_runHandler_le id _ _ _)

/-- Only the counters of LPs and what is noted about the run differ. -/
structure Renumbered (s t : Simulation Q σ) : Prop where
  contexts : ∀ i, t.ctx i = { s.ctx i with
    nextUid := (t.ctx i).nextUid
    nextSeqNormal := (t.ctx i).nextSeqNormal
    nextSeqControl := (t.ctx i).nextSeqControl }
  others : Quiet { s with ctx := t.ctx, hist := t.hist } t

theorem Renumbered.refl (s : Simulation Q σ) : Renumbered s s := ⟨fun _ => rfl, rfl⟩

theorem Renumbered.trans {s t u : Simulation Q σ} (h : Renumbered s t) (h' : Renumbered t u) :
    Renumbered s u := by
  refine ⟨fun i => ?_, ?_⟩
  · rw [h'.contexts i, h.contexts i]
  · have ht := h.others
    have hu := h'.others
    unfold Quiet at *
    rw [hu, ht]

theorem renumbered_of_quiet {s t : Simulation Q σ} (h : Quiet s t) : Renumbered s t := by
  refine ⟨fun i => by rw [h.ctx], ?_⟩
  unfold Quiet at *
  rw [h]

theorem renumbered_renumber (id : LPId) (uid normal control : UInt64) (wraps : Bool)
    (s : Simulation Q σ) : Renumbered s (renumber id uid normal control wraps s) := by
  refine ⟨fun i => ?_, rfl⟩
  by_cases hi : i = id
  · subst hi
    rw [renumber_ctx_self]
  · have hsame : (renumber id uid normal control wraps s).ctx i = s.ctx i := Function.update_of_ne hi ..
    rw [hsame]

theorem renumbered_stamp {asked : Event} {s t : Simulation Q σ} {what : String}
    (h : exec (stamp cfg asked) s = (.error what, t)) : Renumbered s t := by
  have hout : StampOutcome cfg asked s _ _ := stamp_outcome asked s
  rw [h] at hout
  cases hout with
  | refused _ _ hquiet => exact (renumbered_renumber ..).trans (renumbered_of_quiet hquiet)

theorem declinedRun_renumbered {execTs : TimeStamp} {handler : Handler σ} {s t : Simulation Q σ}
    {state : σ} (h : declinedRun cfg execTs handler s = some (state, t)) : Renumbered s t := by
  induction handler generalizing s with
  | done => cases h
  | throw => cases h; exact .refl _
  | requestWrite state entity next ih => exact ih h
  | emitCommitted ts payload next ih => exact ih _ h
  | send asked next ih =>
      unfold declinedRun at h
      split at h
      · next what t₁ hstamp =>
        exact ((renumbered_of_quiet (quiet_validate cfg s)).trans (renumbered_stamp hstamp)).trans
          (ih _ h)
      · cases h

/-! ## When a deferral is atomic -/

/-- The handler leaves its LP as it was, and each of its sends is refused before it has taken a
sequence number or found a directory. -/
def NoTrace (model : Model σ) (cfg : SimulationConfig) (ev : Event) (s : Simulation Q σ) : Prop :=
  ∃ t, declinedRun cfg ev.ts ((model ev.dst).onEvent (s.ctx ev.dst).lp ev)
      (entered ev (handed cfg ev s)) = some ((s.ctx ev.dst).lp, t) ∧
    (∀ i, (t.ctx i).nextSeqNormal = (s.ctx i).nextSeqNormal ∧
      (t.ctx i).nextSeqControl = (s.ctx i).nextSeqControl) ∧
    t.directoryLps = s.directoryLps

theorem validate_directoryLps (cfg : SimulationConfig) (s : Simulation Q σ) :
    (validateInvariants cfg s).directoryLps = s.directoryLps := by
  unfold validateInvariants
  split <;> rfl

section Exit

variable (ev : Event) (vt : TimeStamp) (s : Simulation Q σ)

theorem deferralExit_quiet : Quiet { s with
    ctx := (deferralExit cfg ev vt s).ctx
    deferredTargeted := (deferralExit cfg ev vt s).deferredTargeted
    hist := (deferralExit cfg ev vt s).hist } (deferralExit cfg ev vt s) := by
  have hquiet := quiet_validate cfg (deferTargetedEvent ev ((left ev.dst s).modifyCtx ev.dst fun c =>
    { c with vt := vt, currentExecTs := vt }))
  unfold deferralExit Quiet at *
  rw [hquiet]
  rfl

theorem deferralExit_self : (deferralExit cfg ev vt s).ctx ev.dst =
    { s.ctx ev.dst with inEvent := false, vt := vt, currentExecTs := vt } := by
  rw [deferralExit, (quiet_validate cfg _).ctx, deferTargetedEvent]
  dsimp only
  rw [modifyCtx_self, left_self]

theorem deferralExit_of_ne {i : LPId} (hi : i ≠ ev.dst) :
    (deferralExit cfg ev vt s).ctx i = s.ctx i := by
  rw [deferralExit, (quiet_validate cfg _).ctx, deferTargetedEvent]
  dsimp only
  rw [modifyCtx_of_ne _ _ hi, left_of_ne s hi]

theorem deferralExit_directoryLps : (deferralExit cfg ev vt s).directoryLps = s.directoryLps :=
  validate_directoryLps cfg _

theorem deferralExit_table : (deferralExit cfg ev vt s).deferredTargeted =
    (deferTargetedEvent ev s).deferredTargeted := by
  rw [deferralExit, quiet_validate cfg _]
  rfl

theorem deferralExit_weight : (deferralExit cfg ev vt s).weight = s.weight :=
  (deferralExit_quiet ev vt s).weight

end Exit

/-- Deferring an event leaves no other trace exactly when its handler has left none. -/
theorem deferral_atomic_iff {ev : Event} {s : Simulation Q σ} (h : Defers model cfg ev s) :
    AsBefore ev s (exec (dispatch model cfg ev) s).2 ↔ NoTrace model cfg ev s := by
  rw [exec_dispatch_defers h]
  have hquiet : Quiet (recordDispatch ev s) (handed cfg ev s) := quiet_validate cfg (recordDispatch ev s)
  have hctx : (handed cfg ev s).ctx = s.ctx := hquiet.ctx
  have hweight : (entered ev (handed cfg ev s)).weight = s.weight := hquiet.weight
  obtain ⟨what, hwhat, -⟩ := h.missing
  have hends := runHandler_throws model cfg ev.dst ((model ev.dst).onEvent
    ((handed cfg ev s).ctx ev.dst).lp ev) (newRecord ev ((handed cfg ev s).ctx ev.dst))
    (entered ev (handed cfg ev s)) ⟨what, hwhat⟩
  rw [show exec _ _ = handling model cfg ev (handed cfg ev s) from rfl, hctx] at hends
  unfold NoTrace
  cases hdeclined : declinedRun cfg ev.ts ((model ev.dst).onEvent (s.ctx ev.dst).lp ev)
      (entered ev (handed cfg ev s)) with
  | none =>
      rw [show (newRecord ev (s.ctx ev.dst)).ev.ts = ev.ts from rfl, hdeclined] at hends
      refine ⟨fun hbefore => ?_, by simp⟩
      have hsame := hbefore.weight
      rw [deferralExit_weight] at hsame
      exact absurd (hsame.trans hweight.symm) (ne_of_gt hends)
  | some left =>
      obtain ⟨state, t⟩ := left
      rw [show (newRecord ev (s.ctx ev.dst)).ev.ts = ev.ts from rfl, hdeclined] at hends
      dsimp only at hends
      rw [hends]
      have hnumbered := declinedRun_renumbered hdeclined
      constructor
      · intro hbefore
        have hself := hbefore.contexts ev.dst
        rw [deferralExit_self, setLp_self] at hself
        have hlp : state = (s.ctx ev.dst).lp := congrArg LPContext.lp hself
        refine ⟨t, by rw [hlp], fun i => ?_, ?_⟩
        · by_cases hi : i = ev.dst
          · have hnormal := congrArg LPContext.nextSeqNormal hself
            have hcontrol := congrArg LPContext.nextSeqControl hself
            rw [hi]
            exact ⟨hnormal, hcontrol⟩
          · have hother := hbefore.contexts i
            rw [deferralExit_of_ne _ _ _ hi, setLp_of_ne _ _ hi] at hother
            have hnormal := congrArg LPContext.nextSeqNormal hother
            have hcontrol := congrArg LPContext.nextSeqControl hother
            exact ⟨hnormal, hcontrol⟩
        · have hdirs := hbefore.directories
          rw [deferralExit_directoryLps] at hdirs
          exact hdirs
      · rintro ⟨t', hsome, hnumbers, hdirs⟩
        obtain ⟨rfl, rfl⟩ := Prod.mk.inj (Option.some.inj hsome)
        refine ⟨?_, fun i => ?_, ?_, ?_⟩
        · have htable : t.deferredTargeted = s.deferredTargeted := by
            rw [hnumbered.others]
            change (handed cfg ev s).deferredTargeted = _
            rw [hquiet]
            rfl
          rw [deferralExit_table, deferTargetedEvent_eq, deferTargetedEvent_eq]
          change Buckets.add _ _ t.deferredTargeted = _
          rw [htable]
        · obtain ⟨hnormal, hcontrol⟩ := hnumbers i
          have hi := hnumbered.contexts i
          rw [hnormal, hcontrol] at hi
          by_cases hdst : i = ev.dst
          · subst hdst
            rw [entered_self, hctx] at hi
            rw [deferralExit_self, setLp_self, hi]
            rfl
          · rw [entered_of_ne _ hdst, hctx] at hi
            rw [deferralExit_of_ne _ _ _ hdst, setLp_of_ne _ _ hdst, hi]
        · rw [deferralExit_directoryLps]
          exact hdirs
        · exact (hquiet.overwrite _ _ _).trans ((hnumbered.others.overwrite _ _ _).trans
            (deferralExit_quiet ev (s.ctx ev.dst).vt (setLp ev.dst (s.ctx ev.dst).lp t)))

theorem deferral_atomic_tenant :
    AsBefore (useAt 5) (tenantRun [] 0)
      (exec (dispatch (fun _ => tenant) bufferingConfig (useAt 5)) (tenantRun [] 0)).2 := by
  have hdefers : Defers (fun _ => tenant) bufferingConfig (useAt 5) (tenantRun [] 0) :=
    ⟨rfl, by decide, by decide, rfl, by decide, by decide, _, rfl, by decide +kernel⟩
  refine (deferral_atomic_iff hdefers).mpr ⟨_, rfl, fun i => ?_, rfl⟩
  by_cases hi : i = (useAt 5).dst
  · rw [hi]
    exact ⟨rfl, rfl⟩
  · rw [entered_of_ne _ hi]
    exact ⟨rfl, rfl⟩

/-- An LP that notes an event and passes it on before it looks for the entity. -/
def hasty : LogicalProcess Bool where
  init := false
  onEvent _ ev :=
    if ev.target = 7 then
      .send { ts := ⟨6, 0⟩, src := 1, dst := 1, target := 8 } fun _ =>
        .throw true "World: unknown EntityId=7"
    else .done true
  saveState noted := [if noted then 1 else 0]
  loadState _ bytes := bytes = [1]

/-- A kernel with one such LP. -/
def hastyRun : Simulation sortedEventQueue Bool :=
  hostRun (fun _ => hasty) bufferingConfig [.addLp 1] (Simulation.create _ fun _ => hasty)

theorem reachable_hastyRun : Reachable (fun _ => hasty) bufferingConfig (fun _ _ => True) hastyRun :=
  Reachable.hostRun .create (obeys_true _ _)

/-- In a state that a kernel reaches, the event is deferred, and the state of the LP, the event it has sent, the log
entry and the sequence number stay. -/
theorem deferral_keeps_effects :
    Reachable (fun _ => hasty) bufferingConfig (fun _ _ => True) hastyRun ∧
      Defers (fun _ => hasty) bufferingConfig (useAt 5) hastyRun ∧
      ((exec (dispatch (fun _ => hasty) bufferingConfig (useAt 5)) hastyRun).2.ctx 1).lp = true ∧
      ((exec (dispatch (fun _ => hasty) bufferingConfig (useAt 5)) hastyRun).2.ctx 1).sentLog =
        [⟨⟨5, 1⟩, ⟨6, 1⟩, 1, 1⟩] ∧
      ((exec (dispatch (fun _ => hasty) bufferingConfig (useAt 5)) hastyRun).2.ctx 1).nextSeqNormal = 2 ∧
      (exec (dispatch (fun _ => hasty) bufferingConfig (useAt 5)) hastyRun).2.weight = 1 ∧
      ¬ AsBefore (useAt 5) hastyRun
        (exec (dispatch (fun _ => hasty) bufferingConfig (useAt 5)) hastyRun).2 := by
  have hlp : ((exec (dispatch (fun _ => hasty) bufferingConfig (useAt 5)) hastyRun).2.ctx 1).lp = true := by
    decide +kernel
  refine ⟨reachable_hastyRun, ⟨rfl, by decide, by decide, rfl, by decide, by decide, _, rfl, by decide +kernel⟩, hlp,
    by decide +kernel, by decide +kernel, by decide +kernel, fun h => ?_⟩
  have hsame := congrArg LPContext.lp (h.contexts 1)
  rw [hlp] at hsame
  cases hsame

end WarpSim

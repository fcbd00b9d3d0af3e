import WarpSim.Verification.Runs
import WarpSim.Verification.Checker.Dispatch

/-! # The checker over whole runs -/

namespace WarpSim

variable {Q : EventQueue} {σ : Type}

open Prog Simulation

/-! ## Migrations and notifications -/

theorem restInv_applyMigrations (model : Model σ) (queue : List Migration) :
    Keeps RestInv (applyMigrations model queue : KernelM Q σ Unit) := by
  induction queue with
  | nil => exact keeps_pure _
  | cons mig rest ih =>
      unfold applyMigrations
      refine keeps_get_bind fun s => keeps_ite (fun _ => keeps_pure _) fun _ => ?_
      refine keeps_bind (keeps_modify fun _ h => h.frame rfl rfl rfl rfl rfl) fun _ => ?_
      refine keeps_bind (keeps_lookupCtx _) fun ctx => ?_
      refine keeps_bind (keeps_modify fun t h => ?_) fun _ => ?_
      · exact h.modifyCtx (fun hc => ⟨hc.sorted, hc.behind, hc.executing⟩)
          (fun hc => ⟨hc.normal, hc.control, hc.uid, hc.restored⟩) (h.idle _)
      · refine keeps_bind (keeps_modify fun _ h => h.frame rfl rfl rfl rfl rfl) fun _ => ?_
        exact keeps_bind (keeps_modify fun _ h => h.frame rfl rfl rfl rfl rfl) fun _ => ih

theorem restInv_applyReadyMigrations (model : Model σ) :
    Keeps RestInv (applyReadyMigrations model : KernelM Q σ Unit) :=
  keeps_get_bind fun s => restInv_applyMigrations model s.pendingMigrations

theorem restInv_sendNotifications (cfg : SimulationConfig) (systemSrc : LPId) (gvt : TimeStamp)
    (dirs : List LPId) : Keeps RestInv (sendNotifications cfg systemSrc gvt dirs : KernelM Q σ Unit) := by
  induction dirs with
  | nil => exact keeps_pure _
  | cons dir rest ih => exact keeps_bind (restInv_send _ cfg _) fun _ => ih

theorem restInv_notifyDirectoriesGvt (cfg : SimulationConfig) (gvt : TimeStamp) :
    Keeps RestInv (notifyDirectoriesGvt cfg gvt : KernelM Q σ Unit) := by
  unfold notifyDirectoriesGvt
  refine keeps_get_bind fun s => keeps_ite (fun _ => keeps_pure _) fun _ => ?_
  split
  · exact keeps_pure _
  · refine keeps_ite (fun _ => ?_) fun _ => keeps_pure _
    exact keeps_bind (restInv_sendNotifications cfg _ gvt _) fun _ =>
      keeps_modify fun _ h => h.frame rfl rfl rfl rfl rfl

/-! ## Fossil collection -/

theorem ContextInv.prune {c : LPContext σ} (h : ContextInv c) (gvt : TimeStamp) :
    ContextInv (c.prune gvt) :=
  ⟨h.sorted.sublist (List.dropWhile_sublist _),
    fun rec hrec => h.behind rec ((List.dropWhile_sublist _).subset hrec), h.executing⟩

theorem CountersInv.prune {c : LPContext σ} (h : CountersInv c) (gvt : TimeStamp) :
    CountersInv (c.prune gvt) :=
  ⟨h.normal, h.control, h.uid,
    fun rec hrec => h.restored rec ((List.dropWhile_sublist _).subset hrec)⟩

theorem RestInv.prune {s : Simulation Q σ} (h : RestInv s) (cfg : SimulationConfig)
    (gvt : TimeStamp) : RestInv (pruneToGvt cfg gvt s) := by
  refine ⟨⟨fun id => ?_, ⟨h.kernel.inflight.nodup, h.kernel.inflight.perm⟩, fun hw id => ?_,
    h.kernel.checked⟩, fun id => ?_⟩
  · dsimp only [pruneToGvt]
    split
    · exact (h.kernel.context id).prune gvt
    · exact h.kernel.context id
  · dsimp only [pruneToGvt]
    split
    · exact (h.kernel.counters hw id).prune gvt
    · exact h.kernel.counters hw id
  · exact (prune_proj cfg (·.inEvent) (fun _ _ => rfl) gvt s id).trans (h.idle id)

theorem restInv_computeGvt (cfg : SimulationConfig) :
    Keeps RestInv (computeGvt cfg : KernelM Q σ TimeStamp) := by
  intro s h
  rw [exec_computeGvt]
  exact h.discardPending _

theorem restInv_fossilPrune (model : Model σ) (cfg : SimulationConfig) :
    Keeps RestInv (fossilPrune model cfg : KernelM Q σ Unit) :=
  keeps_bind (keeps_modify fun _ h => h.prune cfg _) fun _ => restInv_applyReadyMigrations model

theorem RestInv.advance {s : Simulation Q σ} (h : RestInv s) (cfg : SimulationConfig)
    (gvt : TimeStamp) : RestInv (pruneToGvt cfg gvt (raiseGvt gvt s)) :=
  (show RestInv (raiseGvt gvt s) from h.frame rfl rfl rfl rfl rfl).prune cfg gvt

theorem restInv_adoptGvt (model : Model σ) (cfg : SimulationConfig) (gvt : TimeStamp) :
    Keeps RestInv (adoptGvt model cfg gvt : KernelM Q σ Unit) := by
  unfold adoptGvt
  refine keeps_get_bind fun s => keeps_ite (fun _ => restInv_validate cfg) fun _ => ?_
  refine keeps_bind (keeps_modify fun _ h => h.advance cfg gvt) fun _ => ?_
  refine keeps_bind (restInv_applyReadyMigrations model) fun _ => ?_
  exact keeps_bind (restInv_notifyDirectoriesGvt cfg gvt) fun _ => restInv_validate cfg

theorem restInv_adoptRedGvt (cfg : SimulationConfig) (gvt : TimeStamp) :
    Keeps RestInv (adoptRedGvt cfg gvt : KernelM Q σ Unit) := by
  unfold adoptRedGvt
  refine keeps_get_bind fun s => keeps_ite (fun _ => keeps_pure _) fun _ => ?_
  refine keeps_bind (keeps_modify fun _ h => h.advance cfg gvt) fun _ => ?_
  exact keeps_bind (restInv_notifyDirectoriesGvt cfg gvt) fun _ =>
    keeps_modify fun _ h => h.frame rfl rfl rfl rfl rfl

theorem restInv_advanceGvtColored (cfg : SimulationConfig) (env : Environment) :
    Keeps RestInv (advanceGvtColored cfg env : KernelM Q σ Unit) := by
  unfold advanceGvtColored
  refine keeps_ite (fun _ => keeps_pure _) fun _ => keeps_get_bind fun s => ?_
  refine keeps_ite (fun _ => keeps_modify fun _ h => h.frame rfl rfl rfl rfl rfl) fun _ => ?_
  refine keeps_ite (fun _ => keeps_pure _) fun _ => ?_
  refine keeps_bind ?_ fun gvt => restInv_adoptRedGvt cfg _
  exact keeps_bind (restInv_computeGvt cfg) fun _ => keeps_get_bind fun _ => keeps_pure _

theorem restInv_fossilCollect (model : Model σ) (cfg : SimulationConfig) (env : Environment)
    (doGlobalReduction : Bool) :
    Keeps RestInv (fossilCollect model cfg env doGlobalReduction : KernelM Q σ Unit) := by
  unfold fossilCollect
  refine keeps_bind (restInv_validate cfg) fun _ => keeps_ite (fun _ => keeps_pure _) fun _ => ?_
  refine keeps_bind (restInv_fossilPrune model cfg) fun _ => ?_
  refine keeps_ite (fun _ => restInv_validate cfg) fun _ => keeps_ite (fun _ => ?_) fun _ => ?_
  · refine keeps_bind (restInv_advanceGvtColored cfg env) fun _ => ?_
    refine keeps_bind (restInv_applyReadyMigrations model) fun _ => keeps_get_bind fun s => ?_
    exact keeps_bind (restInv_notifyDirectoriesGvt cfg _) fun _ => restInv_validate cfg
  · exact keeps_bind (restInv_computeGvt cfg) fun _ => restInv_adoptGvt model cfg _

/-! ## Starting and polling -/

theorem RestInv.setLp {s : Simulation Q σ} (h : RestInv s) (id : LPId) (state : σ) :
    RestInv (setLp id state s) :=
  h.modifyCtx (fun hc => ⟨hc.sorted, hc.behind, hc.executing⟩)
    (fun hc => ⟨hc.normal, hc.control, hc.uid, hc.restored⟩) (h.idle id)

theorem restInv_runStarter (cfg : SimulationConfig) (id : LPId) (starter : Starter σ) :
    Keeps RestInv (runStarter cfg id starter : KernelM Q σ Unit) := by
  induction starter with
  | done state => exact keeps_modify fun _ h => h.setLp id state
  | throw state what =>
      exact keeps_bind (keeps_modify fun _ h => h.setLp id state) fun _ => keeps_throw _
  | send asked next ih => exact keeps_observe_bind (restInv_send _ cfg _) fun r => ih _

theorem restInv_startAll (model : Model σ) (cfg : SimulationConfig) (ids : List LPId) :
    Keeps RestInv (startAll model cfg ids : KernelM Q σ Unit) := by
  induction ids with
  | nil => exact keeps_pure _
  | cons id rest ih =>
      exact keeps_get_bind fun s => keeps_bind (restInv_runStarter cfg id _) fun _ => ih

theorem restInv_startIfNeeded (model : Model σ) (cfg : SimulationConfig) :
    Keeps RestInv (startIfNeeded model cfg : KernelM Q σ Unit) := by
  unfold startIfNeeded
  refine keeps_get_bind fun s => keeps_ite (fun _ => keeps_pure _) fun _ => ?_
  exact keeps_bind (keeps_modify fun _ h => h.frame rfl rfl rfl rfl rfl) fun _ =>
    restInv_startAll model cfg _

theorem RestInv.clearInflightKey {s : Simulation Q σ} (h : RestInv s) (key : InflightKey) :
    RestInv (s.clearInflightKey key) := by
  refine ⟨h.kernel.clearInflightKey key, ?_⟩
  rw [clearInflightKey_eq]
  exact h.idle

theorem RestInv.receiveEvent {s : Simulation Q σ} (h : RestInv s) (cfg : SimulationConfig)
    (srcRank : RankId) (ev : Event) : RestInv (receiveEvent cfg srcRank ev s) := by
  have hcounted : RestInv (recordDelivery (some srcRank) ev (countReceived ev s)) :=
    h.frame rfl rfl rfl rfl rfl
  unfold WarpSim.receiveEvent
  dsimp only
  split
  · exact hcounted.frame rfl rfl rfl rfl rfl
  · have hack : RestInv ((recordDelivery (some srcRank) ev (countReceived ev s)).transmit
        (.ack cfg.rank srcRank ev.inflightKey)) := hcounted.frame rfl rfl rfl rfl rfl
    exact (hack.clearInflightKey ev.inflightKey).frame rfl rfl rfl rfl rfl

theorem restInv_pollMessage (model : Model σ) (cfg : SimulationConfig) (msg : WireMessage) :
    Keeps RestInv (pollMessage model cfg msg : KernelM Q σ Unit) := by
  cases msg with
  | event srcRank dstRank ev => exact keeps_modify fun _ h => h.receiveEvent cfg srcRank ev
  | migration srcRank dstRank mig =>
      exact keeps_bind (keeps_modify fun _ h => h.frame rfl rfl rfl rfl rfl) fun _ =>
        restInv_applyReadyMigrations model
  | ack srcRank dstRank key =>
      refine keeps_ite (fun _ => keeps_modify fun s h => ?_) fun _ => keeps_pure _
      have hclear := h.clearInflightKey key
      rw [clearInflightKey_eq] at hclear
      rw [receiveAck_eq]
      exact hclear.frame rfl rfl rfl rfl rfl

theorem restInv_pollTransport (model : Model σ) (cfg : SimulationConfig)
    (polled : List WireMessage) :
    Keeps RestInv (pollTransport model cfg polled : KernelM Q σ Unit) := by
  induction polled with
  | nil => exact keeps_pure _
  | cons msg rest ih => exact keeps_bind (restInv_pollMessage model cfg msg) fun _ => ih

/-! ## Host operations -/

theorem restInv_finalizeAtEnd (model : Model σ) (cfg : SimulationConfig) (env : Environment) :
    Keeps RestInv (finalizeAtEnd model cfg env : KernelM Q σ Unit) := by
  unfold finalizeAtEnd
  refine keeps_bind (keeps_modify fun s h => ?_) fun _ => ?_
  · exact (h.prune cfg maxStamp).frame rfl rfl rfl rfl rfl
  · refine keeps_bind (restInv_applyReadyMigrations model) fun _ => keeps_get_bind fun s => ?_
    exact keeps_ite (fun _ => keeps_throw _) fun _ =>
      keeps_ite (fun _ => keeps_throw _) fun _ => keeps_pure _

theorem restInv_runOne (model : Model σ) (cfg : SimulationConfig) (env : Environment)
    (doCollectives : Bool) :
    Keeps RestInv (runOne model cfg env doCollectives : KernelM Q σ Bool) := by
  unfold runOne
  refine keeps_bind (restInv_startIfNeeded model cfg) fun _ => ?_
  refine keeps_bind (restInv_pollTransport model cfg _) fun _ => ?_
  refine keeps_bind (restInv_dispatchNext model cfg) fun _ => ?_
  exact keeps_bind (restInv_fossilCollect model cfg env doCollectives) fun _ => keeps_pure _

theorem restInv_runIteration (model : Model σ) (cfg : SimulationConfig) (env : Environment)
    (iters : ℕ) : Keeps RestInv (runIteration model cfg env iters : KernelM Q σ Bool) := by
  have hend : Keeps RestInv (finalizeAtEnd model cfg env >>= fun _ => pure false : KernelM Q σ Bool) :=
    keeps_bind (restInv_finalizeAtEnd model cfg env) fun _ => keeps_pure _
  unfold runIteration
  refine keeps_bind (restInv_startIfNeeded model cfg) fun _ => ?_
  refine keeps_bind (restInv_pollTransport model cfg _) fun _ => ?_
  refine keeps_bind (restInv_dispatchNext model cfg) fun _ => ?_
  refine keeps_bind (restInv_fossilCollect model cfg env _) fun _ => keeps_get_bind fun s => ?_
  exact keeps_ite (fun _ => keeps_ite (fun _ => keeps_pure _) fun _ => hend) fun _ =>
    keeps_ite (fun _ => keeps_pure _) fun _ => hend

theorem restInv_addLp (model : Model σ) (id : LPId) :
    Keeps RestInv (addLp model id : KernelM Q σ Unit) := by
  unfold addLp
  refine keeps_get_bind fun s => keeps_ite (fun _ => keeps_throw _) fun _ => keeps_modify fun t h => ?_
  have hfresh : RestInv (t.modifyCtx id fun _ => { lp := (model id).init }) :=
    h.modifyCtx (fun _ => ⟨List.Pairwise.nil, nofun, nofun⟩)
      (fun _ => ⟨by simp, by simp, by simp, nofun⟩) rfl
  exact hfresh.frame rfl rfl rfl rfl rfl

/-- Every host operation keeps the invariant, and with it the checks made on the way hold. -/
theorem restInv_hostOp (model : Model σ) (cfg : SimulationConfig) (op : HostOp) :
    Keeps RestInv (hostOp model cfg op : KernelM Q σ Unit) := by
  cases op with
  | addLp id => exact restInv_addLp model id
  | schedule ev => exact keeps_modify fun _ h => h.frame rfl rfl rfl rfl rfl
  | send ev => exact keeps_bind (restInv_send .host cfg ev) fun _ => keeps_pure _
  | pollTransport polled => exact restInv_pollTransport model cfg polled
  | runOne env doCollectives =>
      exact keeps_bind (restInv_runOne model cfg env doCollectives) fun _ => keeps_pure _
  | runIteration env iters =>
      exact keeps_bind (restInv_runIteration model cfg env iters) fun _ => keeps_pure _

theorem restInv_create (model : Model σ) : RestInv (Simulation.create Q model) :=
  ⟨⟨fun _ => ⟨List.Pairwise.nil, nofun, nofun⟩, ⟨List.nodup_nil, List.Perm.nil⟩,
    fun _ _ => ⟨by simp [Simulation.create], by simp [Simulation.create], by simp [Simulation.create],
      nofun⟩, fun _ => rfl⟩, fun _ => rfl⟩

theorem Reachable.restInv {model : Model σ} {cfg : SimulationConfig}
    {allowed : Simulation Q σ → HostOp → Prop} {s : Simulation Q σ}
    (h : Reachable model cfg allowed s) : RestInv s := by
  induction h with
  | create => exact restInv_create model
  | step _ _ ih => exact restInv_hostOp model cfg _ _ ih

/-- Whatever the host and the handlers do, no call of `validate_invariants_` has found a check
violated, and the checks hold of the state reached, unless a per-LP counter has wrapped. -/
theorem checks_never_fire {model : Model σ} {cfg : SimulationConfig} {s : Simulation Q σ}
    (h : Reachable model cfg (fun _ _ => True) s) (hw : s.hist.wrapped = false) :
    s.checksPassed = true ∧ s.invariantsHold cfg = true :=
  ⟨h.restInv.kernel.checked hw, h.restInv.kernel.invariantsHold hw cfg⟩

/-- A straggler undoes the later event, with all checks on. -/
theorem checks_never_fire_on_straggler :
    let cfg : SimulationConfig := { enableInvariantChecks := true }
    let late : Event := { ts := ⟨10, 1⟩, src := 9, dst := 1, uid := 1 }
    let early : Event := { ts := ⟨5, 1⟩, src := 9, dst := 1, uid := 2 }
    let s := hostRun (Q := sortedEventQueue) (fun _ => journal) cfg
      [.addLp 1, .schedule late, .runOne {} true, .schedule early, .runOne {} true]
      (Simulation.create _ fun _ => journal)
    s.checksPassed = true ∧ s.invariantsHold cfg = true :=
  checks_never_fire (Reachable.hostRun .create ⟨trivial, trivial, trivial, trivial, trivial, trivial⟩)
    (by decide +kernel)

end WarpSim

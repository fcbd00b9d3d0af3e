import WarpSim.Verification.Runs

/-! # The stages of a host operation

A host operation dispatches one event at most. What comes before, the start of the LPs and the
polling, and what comes after, the GVT computation and the end of a run, dispatch and roll back
nothing. -/

namespace WarpSim

variable {Q : EventQueue} {σ : Type} {model : Model σ} {cfg : SimulationConfig}

open Prog Simulation

/-! ## Marks -/

def SendCause.isRollback : SendCause → Bool
  | .rollback _ => true
  | _ => false

/-- What only the dispatcher and the end of a run write: the dispatches, the rollbacks with the
anti-messages that they have sent, and whether the run has ended. -/
structure Marks where
  dispatched : List Dispatch
  rollbacks : List Rollback
  antis : List SendRecord
  finished : Bool
deriving DecidableEq

def Simulation.marks (s : Simulation Q σ) : Marks :=
  { dispatched := s.hist.dispatched
    rollbacks := s.hist.rollbacks
    antis := s.hist.sends.filter fun r => r.cause.isRollback
    finished := s.finished }

/-- The program neither dispatches nor rolls back nor ends the run. -/
abbrev KeepsMarks {α : Type} (m : KernelM Q σ α) : Prop :=
  ∀ marks, Keeps (fun s => s.marks = marks) m

theorem Quiet.marks {s s' : Simulation Q σ} (h : Quiet s s') : s'.marks = s.marks := by
  rw [h]
  rfl

theorem keepsMarks_modify {f : Simulation Q σ → Simulation Q σ} (h : ∀ s, (f s).marks = s.marks) :
    KeepsMarks (modify f : KernelM Q σ PUnit) :=
  fun _ => keeps_modify fun s hs => (h s).trans hs

theorem keepsMarks_validate (cfg : SimulationConfig) :
    KeepsMarks (modify (validateInvariants cfg) : KernelM Q σ PUnit) :=
  keepsMarks_modify fun s => (quiet_validate cfg s).marks

theorem keepsMarks_lookupCtx (id : LPId) : KeepsMarks (lookupCtx id : KernelM Q σ (LPContext σ)) := by
  intro marks s hs
  unfold lookupCtx
  rw [exec_get_bind, exec_ite]
  split <;> exact hs

theorem marks_posted {cause : SendCause} (hc : cause.isRollback = false) (asked ev : Event)
    (s : Simulation Q σ) : (posted cause cfg asked ev s).marks = s.marks := by
  rw [posted_eq]
  simp [Simulation.marks, sendRecord, hc]

theorem keepsMarks_send {cause : SendCause} (hc : cause.isRollback = false) (cfg : SimulationConfig)
    (asked : Event) : KeepsMarks (send cause cfg asked : KernelM Q σ Event) := by
  intro marks s hs
  rw [← (quiet_validate cfg s).marks] at hs
  have hout := send_outcome cfg cause asked s
  generalize validateInvariants cfg s = t at hs hout
  generalize exec (send cause cfg asked) s = res at hout ⊢
  obtain ⟨r, s'⟩ := res
  dsimp only at hout ⊢
  cases hout with
  | sent _ _ hquiet =>
      rw [hquiet.marks]
      exact (marks_posted hc ..).trans hs
  | unlogged _ _ _ hquiet =>
      rw [hquiet.marks]
      exact (marks_posted hc ..).trans hs
  | refused _ _ hquiet =>
      rw [hquiet.marks]
      exact hs

/-! ## Before the dispatch -/

theorem keepsMarks_runStarter (cfg : SimulationConfig) (id : LPId) (starter : Starter σ) :
    KeepsMarks (runStarter cfg id starter : KernelM Q σ Unit) := by
  intro marks
  induction starter with
  | done state => exact keepsMarks_modify (fun _ => rfl) marks
  | throw state what =>
      exact keeps_bind (keepsMarks_modify (fun _ => rfl) marks) fun _ => keeps_throw _
  | send asked next ih => exact keeps_observe_bind (keepsMarks_send rfl cfg asked marks) fun r => ih _

theorem keepsMarks_startAll (model : Model σ) (cfg : SimulationConfig) (ids : List LPId) :
    KeepsMarks (startAll model cfg ids : KernelM Q σ Unit) := by
  intro marks
  induction ids with
  | nil => exact keeps_pure _
  | cons id rest ih =>
      exact keeps_get_bind fun s => keeps_bind (keepsMarks_runStarter cfg id _ marks) fun _ => ih

theorem keepsMarks_startIfNeeded (model : Model σ) (cfg : SimulationConfig) :
    KeepsMarks (startIfNeeded model cfg : KernelM Q σ Unit) := by
  intro marks
  unfold startIfNeeded
  refine keeps_get_bind fun s => keeps_ite (fun _ => keeps_pure _) fun _ => ?_
  exact keeps_bind (keepsMarks_modify (fun _ => rfl) marks) fun _ => keepsMarks_startAll model cfg _ marks

theorem keepsMarks_applyMigrations (model : Model σ) (queue : List Migration) :
    KeepsMarks (applyMigrations model queue : KernelM Q σ Unit) := by
  intro marks
  induction queue with
  | nil => exact keeps_pure _
  | cons mig rest ih =>
      unfold applyMigrations
      refine keeps_get_bind fun s => keeps_ite (fun _ => keeps_pure _) fun _ => ?_
      refine keeps_bind (keepsMarks_modify (fun _ => rfl) marks) fun _ => ?_
      refine keeps_bind (keepsMarks_lookupCtx _ marks) fun ctx => ?_
      refine keeps_bind (keepsMarks_modify (fun _ => rfl) marks) fun _ => ?_
      refine keeps_bind (keepsMarks_modify (fun _ => rfl) marks) fun _ => ?_
      exact keeps_bind (keepsMarks_modify (fun _ => rfl) marks) fun _ => ih

theorem keepsMarks_applyReadyMigrations (model : Model σ) :
    KeepsMarks (applyReadyMigrations model : KernelM Q σ Unit) :=
  fun marks => keeps_get_bind fun s => keepsMarks_applyMigrations model s.pendingMigrations marks

theorem marks_receiveEvent (srcRank : RankId) (ev : Event) (s : Simulation Q σ) :
    (receiveEvent cfg srcRank ev s).marks = s.marks := by
  rw [receiveEvent_eq]
  rfl

theorem marks_receiveAck (key : InflightKey) (s : Simulation Q σ) :
    (receiveAck key s).marks = s.marks := by
  rw [receiveAck_eq]
  rfl

theorem keepsMarks_pollTransport (model : Model σ) (cfg : SimulationConfig) (polled : List WireMessage) :
    KeepsMarks (pollTransport model cfg polled : KernelM Q σ Unit) := by
  intro marks
  induction polled with
  | nil => exact keeps_pure _
  | cons msg rest ih =>
      refine keeps_bind ?_ fun _ => ih
      cases msg with
      | event srcRank dstRank ev => exact keepsMarks_modify (marks_receiveEvent srcRank ev) marks
      | migration srcRank dstRank mig =>
          exact keeps_bind (keepsMarks_modify (fun _ => rfl) marks) fun _ =>
            keepsMarks_applyReadyMigrations model marks
      | ack srcRank dstRank key =>
          exact keeps_ite (fun _ => keepsMarks_modify (marks_receiveAck key) marks) fun _ => keeps_pure _

/-! ## After the dispatch -/

theorem keepsMarks_notifyDirectoriesGvt (cfg : SimulationConfig) (gvt : TimeStamp) :
    KeepsMarks (notifyDirectoriesGvt cfg gvt : KernelM Q σ Unit) := by
  have hsend : ∀ systemSrc dirs,
      KeepsMarks (sendNotifications cfg systemSrc gvt dirs : KernelM Q σ Unit) := by
    intro systemSrc dirs marks
    induction dirs with
    | nil => exact keeps_pure _
    | cons dir rest ih => exact keeps_bind (keepsMarks_send rfl cfg _ marks) fun _ => ih
  intro marks
  unfold notifyDirectoriesGvt
  refine keeps_get_bind fun s => keeps_ite (fun _ => keeps_pure _) fun _ => ?_
  split
  · exact keeps_pure _
  · refine keeps_ite (fun _ => ?_) fun _ => keeps_pure _
    exact keeps_bind (hsend _ _ marks) fun _ => keepsMarks_modify (fun _ => rfl) marks

theorem keepsMarks_computeGvt (cfg : SimulationConfig) :
    KeepsMarks (computeGvt cfg : KernelM Q σ TimeStamp) := by
  intro marks s hs
  rw [exec_computeGvt]
  exact hs

theorem keepsMarks_adoptGvt (model : Model σ) (cfg : SimulationConfig) (gvt : TimeStamp) :
    KeepsMarks (adoptGvt model cfg gvt : KernelM Q σ Unit) := by
  intro marks
  unfold adoptGvt
  refine keeps_get_bind fun s => keeps_ite (fun _ => keepsMarks_validate cfg marks) fun _ => ?_
  refine keeps_bind (keepsMarks_modify (fun _ => rfl) marks) fun _ => ?_
  refine keeps_bind (keepsMarks_applyReadyMigrations model marks) fun _ => ?_
  exact keeps_bind (keepsMarks_notifyDirectoriesGvt cfg gvt marks) fun _ => keepsMarks_validate cfg marks

theorem keepsMarks_advanceGvtColored (cfg : SimulationConfig) (env : Environment) :
    KeepsMarks (advanceGvtColored cfg env : KernelM Q σ Unit) := by
  have hadopt : ∀ gvt, KeepsMarks (adoptRedGvt cfg gvt : KernelM Q σ Unit) := by
    intro gvt marks
    unfold adoptRedGvt
    refine keeps_get_bind fun s => keeps_ite (fun _ => keeps_pure _) fun _ => ?_
    refine keeps_bind (keepsMarks_modify (fun _ => rfl) marks) fun _ => ?_
    exact keeps_bind (keepsMarks_notifyDirectoriesGvt cfg gvt marks) fun _ =>
      keepsMarks_modify (fun _ => rfl) marks
  intro marks
  unfold advanceGvtColored
  refine keeps_ite (fun _ => keeps_pure _) fun _ => keeps_get_bind fun s => ?_
  refine keeps_ite (fun _ => keepsMarks_modify (fun _ => rfl) marks) fun _ => ?_
  refine keeps_ite (fun _ => keeps_pure _) fun _ => ?_
  refine keeps_bind ?_ fun gvt => hadopt _ marks
  exact keeps_bind (keepsMarks_computeGvt cfg marks) fun _ => keeps_get_bind fun _ => keeps_pure _

theorem keepsMarks_fossilCollect (model : Model σ) (cfg : SimulationConfig) (env : Environment)
    (doGlobalReduction : Bool) :
    KeepsMarks (fossilCollect model cfg env doGlobalReduction : KernelM Q σ Unit) := by
  intro marks
  unfold fossilCollect
  refine keeps_bind (keepsMarks_validate cfg marks) fun _ => keeps_ite (fun _ => keeps_pure _) fun _ => ?_
  refine keeps_bind (keeps_bind (keepsMarks_modify (fun _ => rfl) marks) fun _ =>
    keepsMarks_applyReadyMigrations model marks) fun _ => ?_
  refine keeps_ite (fun _ => keepsMarks_validate cfg marks) fun _ => keeps_ite (fun _ => ?_) fun _ => ?_
  · refine keeps_bind (keepsMarks_advanceGvtColored cfg env marks) fun _ => ?_
    refine keeps_bind (keepsMarks_applyReadyMigrations model marks) fun _ => keeps_get_bind fun s => ?_
    exact keeps_bind (keepsMarks_notifyDirectoriesGvt cfg _ marks) fun _ => keepsMarks_validate cfg marks
  · exact keeps_bind (keepsMarks_computeGvt cfg marks) fun _ => keepsMarks_adoptGvt model cfg _ marks

/-- The end of a run leaves its mark and no other. -/
theorem marks_finalizeAtEnd (model : Model σ) (cfg : SimulationConfig) (env : Environment)
    (s : Simulation Q σ) :
    (exec (finalizeAtEnd model cfg env) s).2.marks = { s.marks with finished := true } := by
  rw [finalizeAtEnd_state]
  exact keepsMarks_applyReadyMigrations model _ _ rfl

/-! ## The dispatch -/

/-- The program dispatches nothing, though it may roll back. -/
abbrev KeepsDispatched {α : Type} (m : KernelM Q σ α) : Prop :=
  ∀ l b, Keeps (fun s => s.hist.dispatched = l ∧ s.finished = b) m

theorem keepsDispatched_of_marks {α : Type} {m : KernelM Q σ α} (h : KeepsMarks m) : KeepsDispatched m := by
  intro l b s hs
  have hmarks := h s.marks s rfl
  exact ⟨(congrArg Marks.dispatched hmarks).trans hs.1, (congrArg Marks.finished hmarks).trans hs.2⟩

theorem keepsDispatched_modify {f : Simulation Q σ → Simulation Q σ}
    (h : ∀ s, (f s).hist.dispatched = s.hist.dispatched ∧ (f s).finished = s.finished) :
    KeepsDispatched (modify f : KernelM Q σ PUnit) :=
  fun _ _ => keeps_modify fun s hs => ⟨(h s).1.trans hs.1, (h s).2.trans hs.2⟩

theorem keepsDispatched_validate (cfg : SimulationConfig) :
    KeepsDispatched (modify (validateInvariants cfg) : KernelM Q σ PUnit) :=
  keepsDispatched_of_marks (keepsMarks_validate cfg)

theorem keepsDispatched_send (cause : SendCause) (cfg : SimulationConfig) (asked : Event) :
    KeepsDispatched (send cause cfg asked : KernelM Q σ Event) := by
  intro l b s hs
  have hv := quiet_validate cfg s
  have hs' : (validateInvariants cfg s).hist.dispatched = l ∧ (validateInvariants cfg s).finished = b := by
    rw [hv]
    exact hs
  have hout := send_outcome cfg cause asked s
  generalize validateInvariants cfg s = t at hs' hout
  generalize exec (send cause cfg asked) s = res at hout ⊢
  obtain ⟨r, s'⟩ := res
  dsimp only at hout ⊢
  cases hout with
  | sent _ _ hquiet =>
      rw [hquiet, posted_eq]
      exact hs'
  | unlogged _ _ _ hquiet =>
      rw [hquiet, posted_eq]
      exact hs'
  | refused _ _ hquiet =>
      rw [hquiet]
      exact hs'

theorem keepsDispatched_rollback (model : Model σ) (cfg : SimulationConfig) (id : LPId)
    (target : TimeStamp) : KeepsDispatched (rollback model cfg id target : KernelM Q σ Unit) := by
  intro l b
  have hemit : ∀ log, Keeps (fun s => s.hist.dispatched = l ∧ s.finished = b)
      (emitAntis cfg id log : KernelM Q σ Unit) := by
    intro log
    induction log with
    | nil => exact keeps_pure _
    | cons sent rest ih =>
        refine keeps_bind (keepsDispatched_send _ cfg _ l b) fun _ => ?_
        exact keeps_bind (keepsDispatched_modify (fun _ => ⟨rfl, rfl⟩) l b) fun _ => ih
  unfold rollback
  refine keeps_bind (keepsDispatched_validate cfg l b) fun _ => ?_
  refine keeps_bind (keepsDispatched_modify (fun _ => ⟨rfl, rfl⟩) l b) fun _ => ?_
  refine keeps_bind (keepsDispatched_modify (fun s => ?_) l b) fun _ => ?_
  · unfold undoProcessed
    simp only [foldl_undoRecord]
    split <;> exact ⟨rfl, rfl⟩
  · refine keeps_bind (keepsDispatched_modify (fun _ => ⟨rfl, rfl⟩) l b) fun _ => ?_
    refine keeps_get_bind fun s => keeps_bind (hemit _) fun _ => ?_
    exact keepsDispatched_validate cfg l b

theorem keepsMarks_runHandler (model : Model σ) (cfg : SimulationConfig) (id : LPId) (handler : Handler σ) :
    ∀ rec, KeepsMarks (runHandler model cfg id handler rec : KernelM Q σ ProcessedRecord) := by
  induction handler with
  | done state =>
      intro rec marks
      exact keeps_bind (keepsMarks_modify (fun _ => rfl) marks) fun _ => keeps_pure _
  | throw state what =>
      intro rec marks
      exact keeps_bind (keepsMarks_modify (fun _ => rfl) marks) fun _ => keeps_throw _
  | send asked next ih =>
      intro rec marks
      exact keeps_observe_bind (keepsMarks_send rfl cfg asked marks) fun r => ih _ _ marks
  | requestWrite state entity next ih => exact fun rec => ih _
  | emitCommitted ts payload next ih =>
      intro rec marks
      unfold runHandler
      exact keeps_ite (fun _ => ih _ _ marks) fun _ => ih _ _ marks

theorem marks_releaseDeferredFor (id : LPId) (entity : EntityId) (s : Simulation Q σ) :
    (releaseDeferredFor id entity s).marks = s.marks := by
  rw [releaseDeferredFor_eq]
  rfl

theorem keepsMarks_executeEvent (model : Model σ) (cfg : SimulationConfig) (ev : Event)
    (ctx : LPContext σ) : KeepsMarks (executeEvent model cfg ev ctx : KernelM Q σ Unit) := by
  intro marks
  have hchange : ∀ {f : Simulation Q σ → Simulation Q σ}, (∀ s, (f s).marks = s.marks) →
      Keeps (fun s => s.marks = marks) (modify f : KernelM Q σ PUnit) :=
    fun h => keepsMarks_modify h marks
  unfold executeEvent
  refine keeps_bind (hchange fun _ => rfl) fun _ => ?_
  refine keeps_observe_bind (keepsMarks_runHandler model cfg ev.dst _ _ marks) fun r => ?_
  refine keeps_bind (hchange fun _ => rfl) fun _ => ?_
  cases r with
  | ok rec =>
      have hend : Keeps (fun s => s.marks = marks) (do
          modify fun s => { s with
            counters := { s.counters with totalProcessed := s.counters.totalProcessed + 1 } }
          modify (validateInvariants cfg) : KernelM Q σ PUnit) :=
        keeps_bind (hchange fun _ => rfl) fun _ => keepsMarks_validate cfg marks
      refine keeps_bind (hchange fun _ => rfl) fun _ => keeps_ite (fun _ => ?_) fun _ => hend
      exact keeps_bind (hchange fun s => marks_releaseDeferredFor ..) fun _ => hend
  | error what =>
      refine keeps_ite (fun _ => ?_) fun _ => keeps_throw _
      refine keeps_bind (hchange fun _ => rfl) fun _ => ?_
      exact keeps_bind (hchange fun _ => rfl) fun _ => keepsMarks_validate cfg marks

theorem keepsDispatched_cancel (model : Model σ) (cfg : SimulationConfig) (anti : Event) :
    KeepsDispatched (cancel model cfg anti : KernelM Q σ Unit) := by
  intro l b
  unfold cancel
  refine keeps_bind (keepsDispatched_modify (fun _ => ⟨rfl, rfl⟩) l b) fun _ => ?_
  refine keeps_bind (keepsDispatched_of_marks (keepsMarks_lookupCtx _) l b) fun ctx => ?_
  split
  · refine keeps_bind (keepsDispatched_modify (fun _ => ⟨rfl, rfl⟩) l b) fun _ => ?_
    exact keepsDispatched_rollback model cfg _ _ l b
  · exact keepsDispatched_modify (fun _ => ⟨rfl, rfl⟩) l b

theorem keepsDispatched_dispatchAnti (model : Model σ) (cfg : SimulationConfig) (ev : Event) :
    KeepsDispatched (dispatchAnti model cfg ev : KernelM Q σ Unit) := by
  intro l b
  unfold dispatchAnti
  refine keeps_bind (keepsDispatched_of_marks (keepsMarks_lookupCtx _) l b) fun ctx => ?_
  refine keeps_ite (fun _ => ?_) fun _ => ?_
  · refine keeps_bind (keepsDispatched_modify (fun _ => ⟨rfl, rfl⟩) l b) fun _ => ?_
    refine keeps_bind (keepsDispatched_rollback model cfg _ _ l b) fun _ => ?_
    exact keepsDispatched_modify (fun _ => ⟨rfl, rfl⟩) l b
  · refine keeps_get_bind fun s => keeps_bind (keepsDispatched_cancel model cfg ev l b) fun _ => ?_
    refine keeps_bind (keepsDispatched_modify (fun _ => ⟨rfl, rfl⟩) l b) fun _ => ?_
    refine keeps_bind (keepsDispatched_modify (fun _ => ⟨rfl, rfl⟩) l b) fun _ => ?_
    exact keepsDispatched_validate cfg l b

theorem keepsDispatched_dispatchPositive (model : Model σ) (cfg : SimulationConfig) (ev : Event) :
    KeepsDispatched (dispatchPositive model cfg ev : KernelM Q σ Unit) := by
  intro l b
  unfold dispatchPositive
  refine keeps_bind (keepsDispatched_of_marks (keepsMarks_lookupCtx _) l b) fun ctx => ?_
  refine keeps_ite (fun _ => ?_) fun _ => ?_
  · refine keeps_bind (keepsDispatched_modify (fun _ => ⟨rfl, rfl⟩) l b) fun _ => ?_
    refine keeps_bind (keepsDispatched_rollback model cfg _ _ l b) fun _ => ?_
    exact keeps_bind (keepsDispatched_modify (fun _ => ⟨rfl, rfl⟩) l b) fun _ =>
      keepsDispatched_validate cfg l b
  · exact keepsDispatched_of_marks (keepsMarks_executeEvent model cfg ev ctx) l b

/-- What is recorded when the event is dispatched in `s`. -/
def dispatchOf (ev : Event) (s : Simulation Q σ) : Dispatch :=
  ⟨ev, s.lastGvt, (s.ctx ev.dst).processed.getLast?.map (·.ev)⟩

/-- One turn dispatches the event that it pops, or none. -/
theorem dispatched_dispatchNext (model : Model σ) (cfg : SimulationConfig) (s : Simulation Q σ) :
    (exec (dispatchNext model cfg) s).2.finished = s.finished ∧
      (Q.top? (popScan s).pending = none ∧ (exec (dispatchNext model cfg) s).2.hist.dispatched = s.hist.dispatched ∨
        ∃ ev, Q.top? (popScan s).pending = some ev ∧
          (exec (dispatchNext model cfg) s).2.hist.dispatched = s.hist.dispatched ++ [dispatchOf ev s]) := by
  unfold dispatchNext
  rw [exec_bind, exec_popNext]
  cases htop : Q.top? (popScan s).pending with
  | none => exact ⟨rfl, Or.inl ⟨rfl, rfl⟩⟩
  | some ev =>
      dsimp only
      rw [exec_observe_bind]
      set u : Simulation Q σ := { popScan s with pending := Q.pop (popScan s).pending } with hu
      have hdisp : (exec (dispatch model cfg ev) u).2.hist.dispatched = (recordDispatch ev u).hist.dispatched ∧
          (exec (dispatch model cfg ev) u).2.finished = u.finished := by
        unfold dispatch
        rw [exec_modify_bind]
        refine keeps_bind (keepsDispatched_validate cfg _ _) (fun _ => ?_) _ ⟨rfl, rfl⟩
        exact keeps_ite (fun _ => keepsDispatched_dispatchAnti model cfg ev _ _) fun _ =>
          keepsDispatched_dispatchPositive model cfg ev _ _
      generalize exec (dispatch model cfg ev) u = res at hdisp ⊢
      obtain ⟨what | _, t⟩ := res
      · exact ⟨hdisp.2, Or.inr ⟨ev, rfl, hdisp.1⟩⟩
      · exact ⟨hdisp.2, Or.inr ⟨ev, rfl, hdisp.1⟩⟩

/-! ## Host operations -/

/-- A host operation from `s` to `t`: the LPs are started and messages polled up to `u`, one event
is dispatched up to `v`, and GVT is computed and the run ended up to `t`. -/
structure Staged (model : Model σ) (cfg : SimulationConfig) (s u v t : Simulation Q σ) : Prop where
  prepared : Moves model cfg s.atRest u.atRest
  before : u.marks = s.marks
  dispatched : v = u ∨ v = (exec (dispatchNext model cfg) u).2
  dispatch : Moves model cfg u.atRest v.atRest
  concluded : AllMoves False True model cfg v.atRest t.atRest
  after : t.marks = { v.marks with finished := t.finished }

/-- An operation that dispatches nothing. -/
theorem Staged.of_moves {s t : Simulation Q σ} (h : Moves model cfg s.atRest t.atRest)
    (hmarks : t.marks = s.marks) : Staged model cfg s t t t :=
  ⟨h, hmarks, Or.inl rfl, .refl, .refl, rfl⟩

/-- The marks that `s'` may bear after what follows the dispatch in `s`. -/
def Concluded (s s' : Simulation Q σ) : Prop := s'.marks = { s.marks with finished := s'.finished }

theorem Concluded.of_marks {s s' : Simulation Q σ} (h : s'.marks = s.marks) : Concluded s s' := by
  have hfinished : s'.finished = s.finished := congrArg Marks.finished h
  rw [Concluded, h, hfinished]
  rfl

/-- One turn of the loops, whatever comes after the GVT computation. -/
theorem turn_staged {α : Type} {s : Simulation Q σ} {env : Environment} {doCollectives : Bool}
    (hs : BaseInv s.atRest) (k : Bool → KernelM Q σ α)
    (hk : ∀ dispatched t, AllMoves False True model cfg t.atRest (exec (k dispatched) t).2.atRest ∧
      Concluded t (exec (k dispatched) t).2) :
    ∃ u v, Staged model cfg s u v (exec (do
      startIfNeeded model cfg
      pollTransport model cfg env.polled
      let dispatched ← dispatchNext model cfg
      fossilCollect model cfg env doCollectives
      k dispatched) s).2 := by
  obtain ⟨hstart, htrue⟩ := startIfNeeded_moves model cfg hs
  have hmarks₁ := keepsMarks_startIfNeeded model cfg _ s rfl
  rw [exec_bind]
  generalize exec (startIfNeeded model cfg) s = res at hstart htrue hmarks₁ ⊢
  obtain ⟨what | _, s₁⟩ := res
  · exact ⟨_, _, Staged.of_moves hstart hmarks₁⟩
  have hpoll : Moves model cfg s₁.atRest _ := pollTransport_moves env.polled .refl
  have hmarks₂ := keepsMarks_pollTransport model cfg env.polled _ s₁ rfl
  dsimp only
  rw [exec_bind]
  generalize exec (pollTransport model cfg env.polled) s₁ = res at hpoll hmarks₂ ⊢
  obtain ⟨what | _, u⟩ := res
  · exact ⟨_, _, Staged.of_moves (hstart.trans hpoll) (hmarks₂.trans hmarks₁)⟩
  have hdisp : Moves model cfg u.atRest _ := dispatchNext_moves .refl (Moves.started_mono hpoll htrue)
  dsimp only
  rw [exec_bind]
  generalize hv : exec (dispatchNext model cfg) u = res at hdisp ⊢
  have hv₂ : (exec (dispatchNext model cfg) u).2 = res.2 := congrArg Prod.snd hv
  obtain ⟨what | dispatched, v⟩ := res
  · exact ⟨u, v, hstart.trans hpoll, hmarks₂.trans hmarks₁, Or.inr hv₂.symm, hdisp, .refl, rfl⟩
  have hstarted : v.started = true := Moves.started_mono hdisp (Moves.started_mono hpoll htrue)
  have hrested : AllMoves False False model cfg v.atRest
      (exec (fossilCollect model cfg env doCollectives) v).2.atRest :=
    fossilCollect_rested .refl hstarted fun h => h.elim
  have hfossil : AllMoves False True model cfg v.atRest _ := hrested.mono fun h => h.elim
  have hmarks₃ := keepsMarks_fossilCollect model cfg env doCollectives _ v rfl
  dsimp only
  rw [exec_bind]
  generalize exec (fossilCollect model cfg env doCollectives) v = res at hfossil hmarks₃ ⊢
  obtain ⟨what | _, w⟩ := res
  · exact ⟨u, v, hstart.trans hpoll, hmarks₂.trans hmarks₁, Or.inr hv₂.symm, hdisp, hfossil,
      Concluded.of_marks hmarks₃⟩
  · obtain ⟨hmoves, hend⟩ := hk dispatched w
    refine ⟨u, v, hstart.trans hpoll, hmarks₂.trans hmarks₁, Or.inr hv₂.symm, hdisp,
      hfossil.trans hmoves, ?_⟩
    rw [Concluded] at hend
    rw [hend, hmarks₃]

/-- The end of a run, from the end of its last GVT computation. -/
theorem finalizeAtEnd_concluded (model : Model σ) (cfg : SimulationConfig) (env : Environment)
    (s : Simulation Q σ) :
    AllMoves False True model cfg s.atRest (exec (finalizeAtEnd model cfg env) s).2.atRest ∧
      Concluded s (exec (finalizeAtEnd model cfg env) s).2 := by
  refine ⟨?_, ?_⟩
  · have hflush : AllMoves False True model cfg s.atRest (flushed cfg s).atRest :=
      .single (Or.inr (.flush trivial fun h => h.elim))
    exact hflush.trans (finalizeAtEnd_moves model cfg env s).all
  · have hmarks := marks_finalizeAtEnd model cfg env s
    have hfinished : (exec (finalizeAtEnd model cfg env) s).2.finished = true :=
      congrArg Marks.finished hmarks
    rw [Concluded, hfinished]
    exact hmarks

/-- Every host operation goes through the stages. -/
theorem hostOp_staged {s : Simulation Q σ} (op : HostOp) (hs : BaseInv s.atRest) :
    ∃ u v, Staged model cfg s u v (exec (hostOp model cfg op) s).2 := by
  cases op with
  | addLp id =>
      refine ⟨_, _, Staged.of_moves ?_ ?_⟩
      · change Moves model cfg s.atRest (exec (addLp model id) s).2.atRest
        unfold addLp
        rw [exec_get_bind, exec_ite]
        split
        · exact .refl
        · next hid =>
          refine Reached.quiet (.single (.register hid)) ?_
          exact rfl
      · change (exec (addLp model id) s).2.marks = s.marks
        unfold addLp
        rw [exec_get_bind, exec_ite]
        split <;> rfl
  | schedule ev => exact ⟨_, _, Staged.of_moves (.single .schedule) rfl⟩
  | send ev =>
      have heq : (exec (hostOp model cfg (.send ev)) s).2 = (exec (send .host cfg ev) s).2 :=
        exec_bind_pure_state ..
      rw [heq]
      exact ⟨_, _, Staged.of_moves (send_moves .host ev .refl trivial)
        (keepsMarks_send rfl cfg ev _ s rfl)⟩
  | pollTransport polled =>
      exact ⟨_, _, Staged.of_moves (pollTransport_moves polled .refl)
        (keepsMarks_pollTransport model cfg polled _ s rfl)⟩
  | runOne env doCollectives =>
      have heq : (exec (hostOp model cfg (.runOne env doCollectives)) s).2 =
          (exec (runOne model cfg env doCollectives) s).2 := exec_bind_pure_state ..
      rw [heq]
      exact turn_staged hs _ fun _ _ => ⟨.refl, rfl⟩
  | runIteration env iters =>
      have heq : (exec (hostOp model cfg (.runIteration env iters)) s).2 =
          (exec (runIteration model cfg env iters) s).2 := exec_bind_pure_state ..
      rw [heq]
      refine turn_staged hs _ fun _ t => ?_
      have hfinal : AllMoves False True model cfg t.atRest
            (exec (finalizeAtEnd model cfg env >>= fun _ => pure false) t).2.atRest ∧
          Concluded t (exec (finalizeAtEnd model cfg env >>= fun _ => pure false) t).2 := by
        rw [exec_bind_pure_state]
        exact finalizeAtEnd_concluded model cfg env t
      rw [exec_get_bind]
      dsimp only
      rw [exec_ite]
      split
      · rw [exec_ite]
        split
        · exact ⟨.refl, rfl⟩
        · exact hfinal
      · rw [exec_ite]
        split
        · exact ⟨.refl, rfl⟩
        · exact hfinal

variable (model cfg) in
/-- The events that the operation dispatches. -/
def dispatchedBy (op : HostOp) (s : Simulation Q σ) : List Dispatch :=
  (exec (hostOp model cfg op) s).2.hist.dispatched.drop s.hist.dispatched.length

/-- There is one at most. -/
theorem Staged.dispatched_cases {s u v t : Simulation Q σ} (h : Staged model cfg s u v t) :
    t.hist.dispatched = v.hist.dispatched ∧ u.hist.dispatched = s.hist.dispatched ∧
      (v.hist.dispatched = u.hist.dispatched ∨ ∃ d, v.hist.dispatched = u.hist.dispatched ++ [d]) := by
  refine ⟨congrArg Marks.dispatched h.after, congrArg Marks.dispatched h.before, ?_⟩
  rcases h.dispatched with hv | hv
  · exact Or.inl (by rw [hv])
  · rw [hv]
    rcases (dispatched_dispatchNext model cfg u).2 with ⟨-, hnone⟩ | ⟨ev, -, hone⟩
    · exact Or.inl hnone
    · exact Or.inr ⟨_, hone⟩

end WarpSim

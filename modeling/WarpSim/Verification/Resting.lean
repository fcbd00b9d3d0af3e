import WarpSim.Verification.Phases

/-! # What holds apart from the dispatching

Polling, the GVT computation and the end of a run make a handful of updates. What each of these preserves
is preserved by them. -/

namespace WarpSim

variable {Q : EventQueue} {σ : Type} {model : Model σ} {cfg : SimulationConfig}

open Prog Simulation

/-- Every update that is made apart from the start and the dispatching preserves `I`. -/
structure RestClosed (model : Model σ) (cfg : SimulationConfig) (I : Simulation Q σ → Prop) : Prop where
  quiet : ∀ {s s'}, Quiet s s' → I s → I s'
  receive : ∀ {s} srcRank ev, I s → I (receiveEvent cfg srcRank ev s)
  acknowledge : ∀ {s} key, I s → I (receiveAck key s)
  arrive : ∀ {s} mig, I s → I (recordMigration (.arrived mig) (queueMigration mig s))
  migrate : ∀ {s mig rest}, s.pendingMigrations = mig :: rest → I s →
    I (takeOver model mig { s with pendingMigrations := rest })
  misplace : ∀ {s mig rest}, s.pendingMigrations = mig :: rest → I s → I { s with pendingMigrations := rest }
  notify : ∀ {s} asked, cfg.directoryForEntity ≠ none → I s → I (exec (send .notification cfg asked) s).2
  peek : ∀ {s}, I s → I (peekScan s)
  advance : ∀ {s gvt}, s.lastGvt ≤ gvt → I s → I (pruneToGvt cfg gvt (raiseGvt gvt s))
  prune : ∀ {s}, I s → I (pruneToGvt cfg s.lastGvt s)
  flip : ∀ {s}, I s → I (flipToRed s)
  reset : ∀ {s}, I s → I (resetToWhite s)
  finish : ∀ {s}, I s → I { pruneToGvt cfg maxStamp s with finished := true }

namespace RestClosed

variable {I : Simulation Q σ → Prop} (h : RestClosed model cfg I)

include h

theorem keeps_quiet {f : Simulation Q σ → Simulation Q σ} (hf : ∀ s, Quiet s (f s)) :
    Keeps I (modify f : KernelM Q σ PUnit) :=
  keeps_modify fun s hs => h.quiet (hf s) hs

theorem keeps_validate : Keeps I (modify (validateInvariants cfg) : KernelM Q σ PUnit) :=
  h.keeps_quiet (quiet_validate cfg)

/-! ## Polling -/

theorem applyMigrations (queue : List Migration) {s : Simulation Q σ} (hs : I s)
    (hqueue : s.pendingMigrations = queue) : I (exec (applyMigrations model queue) s).2 := by
  induction queue generalizing s with
  | nil => exact hs
  | cons mig rest ih =>
      unfold WarpSim.applyMigrations
      rw [exec_get_bind, exec_ite]
      split
      · exact hs
      · rw [exec_modify_bind, exec_lookupCtx_bind]
        split
        · rw [exec_modify_bind, exec_modify_bind, exec_modify_bind]
          exact ih (h.migrate hqueue hs) rfl
        · exact h.misplace hqueue hs

theorem keeps_applyReadyMigrations : Keeps I (applyReadyMigrations model : KernelM Q σ Unit) := by
  intro s hs
  unfold applyReadyMigrations
  rw [exec_get_bind]
  exact h.applyMigrations _ hs rfl

theorem keeps_pollTransport (polled : List WireMessage) :
    Keeps I (pollTransport model cfg polled : KernelM Q σ Unit) := by
  induction polled with
  | nil => exact keeps_pure _
  | cons msg rest ih =>
      refine keeps_bind ?_ fun _ => ih
      cases msg with
      | event srcRank dstRank ev => exact keeps_modify fun s => h.receive srcRank ev
      | migration srcRank dstRank mig =>
          exact keeps_bind (keeps_modify fun s => h.arrive mig) fun _ => h.keeps_applyReadyMigrations
      | ack srcRank dstRank key =>
          exact keeps_ite (fun _ => keeps_modify fun s => h.acknowledge key) fun _ => keeps_pure _

/-! ## The GVT computation -/

theorem keeps_notifyDirectoriesGvt (gvt : TimeStamp) :
    Keeps I (notifyDirectoriesGvt cfg gvt : KernelM Q σ Unit) := by
  unfold notifyDirectoriesGvt
  refine keeps_get_bind fun s => ?_
  by_cases hnone : cfg.directoryForEntity = none
  · rw [if_pos (Or.inl (by simp [hnone]))]
    exact keeps_pure _
  · have hsend : ∀ systemSrc dirs, Keeps I (sendNotifications cfg systemSrc gvt dirs : KernelM Q σ Unit) := by
      intro systemSrc dirs
      induction dirs with
      | nil => exact keeps_pure _
      | cons dir rest ih => exact keeps_bind (fun s => h.notify _ hnone) fun _ => ih
    refine keeps_ite (fun _ => keeps_pure _) fun _ => ?_
    split
    · exact keeps_pure _
    · refine keeps_ite (fun _ => ?_) fun _ => keeps_pure _
      exact keeps_bind (hsend _ _) fun _ => h.keeps_quiet fun _ => rfl

theorem keeps_computeGvt : Keeps I (computeGvt cfg : KernelM Q σ TimeStamp) := by
  intro s hs
  rw [exec_computeGvt]
  exact h.peek hs

theorem adoptGvt (gvt : TimeStamp) : Keeps I (adoptGvt model cfg gvt : KernelM Q σ Unit) := by
  intro s hs
  unfold WarpSim.adoptGvt
  rw [exec_get_bind, exec_ite]
  split
  · exact h.keeps_validate s hs
  · next hle =>
    rw [exec_modify_bind]
    refine keeps_bind h.keeps_applyReadyMigrations (fun _ => ?_) _ (h.advance (not_lt.mp hle) hs)
    exact keeps_bind (h.keeps_notifyDirectoriesGvt gvt) fun _ => h.keeps_validate

theorem adoptRedGvt (gvt : TimeStamp) : Keeps I (adoptRedGvt cfg gvt : KernelM Q σ Unit) := by
  intro s hs
  unfold WarpSim.adoptRedGvt
  rw [exec_get_bind, exec_ite]
  split
  · exact hs
  · next hle =>
    rw [exec_modify_bind]
    refine keeps_bind (h.keeps_notifyDirectoriesGvt gvt) (fun _ => ?_) _ (h.advance (not_lt.mp hle) hs)
    exact keeps_modify fun s => h.reset

theorem keeps_fossilCollect (env : Environment) (doGlobalReduction : Bool) :
    Keeps I (fossilCollect model cfg env doGlobalReduction : KernelM Q σ Unit) := by
  unfold fossilCollect
  refine keeps_bind h.keeps_validate fun _ => keeps_ite (fun _ => keeps_pure _) fun _ => ?_
  refine keeps_bind (keeps_bind (keeps_modify fun s => h.prune) fun _ => h.keeps_applyReadyMigrations) fun _ => ?_
  refine keeps_ite (fun _ => h.keeps_validate) fun _ => keeps_ite (fun _ => ?_) fun _ => ?_
  · refine keeps_bind ?_ fun _ => ?_
    · unfold advanceGvtColored
      refine keeps_ite (fun _ => keeps_pure _) fun _ => keeps_get_bind fun s => ?_
      refine keeps_ite (fun _ => keeps_modify fun s => h.flip) fun _ => keeps_ite (fun _ => keeps_pure _) fun _ => ?_
      refine keeps_bind ?_ fun gvt => h.adoptRedGvt _
      exact keeps_bind h.keeps_computeGvt fun _ => keeps_get_bind fun _ => keeps_pure _
    · refine keeps_bind h.keeps_applyReadyMigrations fun _ => keeps_get_bind fun s => ?_
      exact keeps_bind (h.keeps_notifyDirectoriesGvt _) fun _ => h.keeps_validate
  · exact keeps_bind h.keeps_computeGvt fun _ => h.adoptGvt _

theorem keeps_finalizeAtEnd (env : Environment) : Keeps I (finalizeAtEnd model cfg env : KernelM Q σ Unit) := by
  intro s hs
  rw [finalizeAtEnd_state]
  exact h.keeps_applyReadyMigrations _ (h.finish hs)

end RestClosed

/-- The phases that neither set up nor send for the host nor dispatch. -/
def Phase.IsRest : Phase → Prop
  | .poll _ => True
  | .collect .. => True
  | .finalize _ => True
  | _ => False

theorem RestClosed.after {I : Simulation Q σ → Prop} (h : RestClosed model cfg I) {p : Phase} (hp : p.IsRest)
    {s : Simulation Q σ} (hs : I s) : I (p.after model cfg s) := by
  cases p with
  | poll polled => exact h.keeps_pollTransport polled s hs
  | collect env doCollectives => exact h.keeps_fossilCollect env doCollectives s hs
  | finalize env => exact h.keeps_finalizeAtEnd env s hs
  | addLp | schedule | send | start | dispatch => cases hp

end WarpSim

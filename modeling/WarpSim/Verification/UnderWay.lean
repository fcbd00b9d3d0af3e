import WarpSim.Verification.Rollback.Cancelling

/-! # Runs under way

Until it ends, a run whose reductions are sound goes through phases with sound bounds on GVT, and the end is
the last of its phases. -/

namespace WarpSim

variable {Q : EventQueue} {σ : Type} {model : Model σ} {cfg : SimulationConfig}

open Prog Simulation

/-- The phase does not end the run, and takes the kernel's own bound on GVT into account. -/
def Phase.Proper (cfg : SimulationConfig) : Phase → Prop
  | .collect env _ => env.BoundsBelow cfg
  | .finalize _ => False
  | _ => True

/-- From `s` the run has come to `t`, and it has not ended. -/
abbrev UnderWay (model : Model σ) (cfg : SimulationConfig) (s t : Simulation Q σ) : Prop :=
  PhaseRun model cfg (fun p _ => p.Proper cfg) s t

variable (model cfg) in
theorem Phase.proper_moves {p : Phase} {s : Simulation Q σ} (hs : BaseInv s.atRest) (hp : p.Ready s)
    (hproper : p.Proper cfg) : AllMoves True False model cfg s.atRest (p.after model cfg s).atRest := by
  cases p with
  | addLp id =>
      change AllMoves True False model cfg s.atRest (exec (WarpSim.addLp model id) s).2.atRest
      unfold WarpSim.addLp
      rw [exec_get_bind, exec_ite]
      split
      · exact .refl
      · next hid =>
        refine Rested.quiet (Moves.all (.single (.register hid))) ?_
        exact rfl
  | schedule ev => exact Moves.all (.single .schedule)
  | send ev =>
      have hsend : Reached model cfg s.atRest _ [] _ := send_moves .host ev .refl trivial
      change AllMoves True False model cfg s.atRest (exec (WarpSim.send .host cfg ev >>= fun _ => pure ()) s).2.atRest
      rw [exec_bind_pure_state]
      exact Moves.all hsend
  | start => exact (startIfNeeded_moves model cfg hs).1.all
  | poll polled => exact (pollTransport_moves polled .refl).all
  | dispatch =>
      refine Moves.all ?_
      change Moves model cfg s.atRest (exec (dispatchNext model cfg >>= fun _ => pure ()) s).2.atRest
      rw [exec_bind_pure_state]
      exact dispatchNext_moves .refl hp
  | collect env doCollectives => exact fossilCollect_rested .refl hp fun _ => hproper
  | finalize env => exact hproper.elim

theorem UnderWay.moves {s t : Simulation Q σ} (h : UnderWay model cfg s t) (hs : BaseInv s.atRest) :
    AllMoves True False model cfg s.atRest t.atRest := by
  induction h with
  | refl => exact .refl
  | step _ hready hproper ih =>
      exact ih.trans (Phase.proper_moves model cfg (AllMoves.baseInv ih hs) hready hproper)

/-! ## Where a run has come to -/

/-- A phase that neither sets up an LP nor sends for the host, does not end the run and takes the kernel's own
bound on GVT into account is allowed. -/
def AllowsProper (cfg : SimulationConfig) (allowed : Phase → Simulation Q σ → Prop) : Prop :=
  ∀ p t, p.Proper cfg → (∀ id, p ≠ .addLp id) → (∀ ev, p ≠ .send ev) → allowed p t

variable {allowed : Phase → Simulation Q σ → Prop}

/-- One turn of the loops, whatever comes after the GVT computation. -/
theorem turn_underWay {α : Type} {s : Simulation Q σ} {env : Environment} {doCollectives : Bool}
    {T : Simulation Q σ → Prop} (hallowed : AllowsProper cfg allowed) (hs : BaseInv s.atRest)
    (henv : env.BoundsBelow cfg) (k : Bool → KernelM Q σ α) (hT : ∀ t, PhaseRun model cfg allowed s t → T t)
    (hk : ∀ dispatched t, PhaseRun model cfg allowed s t → t.started = true → T (exec (k dispatched) t).2) :
    T (exec (do
      startIfNeeded model cfg
      pollTransport model cfg env.polled
      let dispatched ← dispatchNext model cfg
      fossilCollect model cfg env doCollectives
      k dispatched) s).2 := by
  have hstart : PhaseRun model cfg allowed s (Phase.start.after model cfg s) :=
    PhaseRun.refl.step trivial (hallowed _ _ trivial (by simp) (by simp))
  have htrue := (startIfNeeded_moves model cfg hs).2
  unfold Phase.after Phase.perform at hstart
  rw [exec_bind]
  generalize exec (startIfNeeded model cfg) s = res at hstart htrue ⊢
  obtain ⟨what | _, s₁⟩ := res
  · exact hT _ hstart
  have hpoll := hstart.step (p := .poll env.polled) trivial (hallowed _ _ trivial (by simp) (by simp))
  have hpolled : Moves model cfg s₁.atRest _ := pollTransport_moves env.polled .refl
  have htrue₁ := Moves.started_mono hpolled htrue
  unfold Phase.after Phase.perform at hpoll
  dsimp only
  rw [exec_bind]
  generalize exec (pollTransport model cfg env.polled) s₁ = res at hpoll hpolled htrue₁ ⊢
  obtain ⟨what | _, u⟩ := res
  · exact hT _ hpoll
  have hdisp := hpoll.step (p := .dispatch) htrue₁ (hallowed _ _ trivial (by simp) (by simp))
  have hnext : Moves model cfg u.atRest _ := dispatchNext_moves .refl htrue₁
  have htrue₂ := Moves.started_mono hnext htrue₁
  unfold Phase.after Phase.perform at hdisp
  rw [exec_bind_pure_state] at hdisp
  dsimp only
  rw [exec_bind]
  generalize exec (dispatchNext model cfg) u = res at hdisp hnext htrue₂ ⊢
  obtain ⟨what | dispatched, v⟩ := res
  · exact hT _ hdisp
  have hfossil := hdisp.step (p := .collect env doCollectives) htrue₂ (hallowed _ _ henv (by simp) (by simp))
  have hrested : Rested False False model cfg v.atRest (exec (fossilCollect model cfg env doCollectives) v).2 :=
    fossilCollect_rested .refl htrue₂ fun h => h.elim
  have htrue₃ := AllMoves.started_mono hrested htrue₂
  unfold Phase.after Phase.perform at hfossil
  dsimp only
  rw [exec_bind]
  generalize exec (fossilCollect model cfg env doCollectives) v = res at hfossil htrue₃ ⊢
  obtain ⟨what | _, w⟩ := res
  · exact hT _ hfossil
  · exact hk dispatched w hfossil htrue₃

/-- A host operation leaves the run under way, or it ends it when nothing is pending. -/
inductive Ending (model : Model σ) (cfg : SimulationConfig) (allowed : Phase → Simulation Q σ → Prop)
    (s s' : Simulation Q σ) : Prop where
  | goesOn : PhaseRun model cfg allowed s s' → Ending model cfg allowed s s'
  | ends {t} (env) : PhaseRun model cfg allowed s t → t.started = true → Q.elems t.pending = 0 →
      s' = (Phase.finalize env).after model cfg t → Ending model cfg allowed s s'

theorem hostOp_ending {s : Simulation Q σ} (op : HostOp) (hallowed : AllowsProper cfg allowed)
    (hadd : ∀ id, op = .addLp id → allowed (.addLp id) s) (hsend : ∀ ev, op = .send ev → allowed (.send ev) s)
    (hs : BaseInv s.atRest) (hop : op.SoundReduction cfg) :
    Ending model cfg allowed s (exec (hostOp model cfg op) s).2 := by
  have hone : ∀ p : Phase, p.Ready s → allowed p s → PhaseRun model cfg allowed s (p.after model cfg s) :=
    fun p hp hallowed => PhaseRun.refl.step hp hallowed
  cases op with
  | addLp id => exact .goesOn (hone (.addLp id) trivial (hadd id rfl))
  | schedule ev => exact .goesOn (hone (.schedule ev) trivial (hallowed _ _ trivial (by simp) (by simp)))
  | send ev => exact .goesOn (hone (.send ev) trivial (hsend ev rfl))
  | pollTransport polled => exact .goesOn (hone (.poll polled) trivial (hallowed _ _ trivial (by simp) (by simp)))
  | runOne env doCollectives =>
      have heq : (exec (hostOp model cfg (.runOne env doCollectives)) s).2 =
          (exec (runOne model cfg env doCollectives) s).2 := exec_bind_pure_state ..
      rw [heq]
      exact turn_underWay (T := Ending model cfg allowed s) hallowed hs hop _ (fun _ h => .goesOn h)
        fun _ _ h _ => .goesOn h
  | runIteration env iters =>
      have heq : (exec (hostOp model cfg (.runIteration env iters)) s).2 =
          (exec (runIteration model cfg env iters) s).2 := exec_bind_pure_state ..
      rw [heq]
      refine turn_underWay (T := Ending model cfg allowed s) hallowed hs hop.1 _ (fun _ h => .goesOn h)
        fun _ t h hstarted => ?_
      have hfinal : Q.elems t.pending = 0 →
          Ending model cfg allowed s (exec (finalizeAtEnd model cfg env >>= fun _ => pure false) t).2 := by
        intro hempty
        rw [exec_bind_pure_state]
        exact .ends env h hstarted hempty rfl
      rw [exec_get_bind]
      dsimp only
      rw [exec_ite]
      split
      · next hany =>
        rw [exec_ite]
        split
        · exact .goesOn h
        · next hgo =>
          refine hfinal (not_not.mp fun hpending => hgo ?_)
          rw [localHasWork_of_pending hpending, hop.2 hany, Bool.or_true]
      · rw [exec_ite]
        split
        · exact .goesOn h
        · next hgo => exact hfinal (not_not.mp fun hpending => hgo (localHasWork_of_pending hpending _ _))

/-- The run is under way, or it has just come to its end. -/
structure ComesTo (model : Model σ) (cfg : SimulationConfig) (allowed : Phase → Simulation Q σ → Prop)
    (t s : Simulation Q σ) : Prop where
  run : PhaseRun model cfg allowed (Simulation.create Q model) t
  going : t.finished = false
  ending : s = t ∨ t.started = true ∧ Q.elems t.pending = 0 ∧ ∃ env, s = (Phase.finalize env).after model cfg t

/-- A run of a host that leaves the kernel alone once it has ended is under way, or it has just come to its
end. -/
theorem Reachable.comesTo {hosted : Simulation Q σ → HostOp → Prop} {s : Simulation Q σ}
    (h : Reachable model cfg hosted s) (hleaves : Leaves hosted)
    (hsound : ∀ s op, hosted s op → op.SoundReduction cfg) (hallowed : AllowsProper cfg allowed)
    (hproper : ∀ p t, allowed p t → p.Proper cfg) (hadd : ∀ s id, hosted s (.addLp id) → allowed (.addLp id) s)
    (hsend : ∀ s ev, hosted s (.send ev) → allowed (.send ev) s) :
    ∃ t, ComesTo model cfg allowed t s := by
  induction h with
  | create => exact ⟨_, .refl, rfl, Or.inl rfl⟩
  | @step s op hs hop ih =>
      obtain ⟨t, hrun, hgoing, rfl | ⟨-, -, env, rfl⟩⟩ := ih
      · have hfinished : ∀ {u : Simulation Q σ}, PhaseRun model cfg allowed s u → u.finished = false := by
          intro u hu
          have hway : UnderWay model cfg s u := hu.mono hproper
          exact (AllMoves.finished_eq (hway.moves hs.baseInv)).trans hgoing
        cases hostOp_ending op hallowed (fun id hid => hadd s id (hid ▸ hop)) (fun ev hev => hsend s ev (hev ▸ hop))
          hs.baseInv (hsound _ _ hop) with
        | goesOn hu => exact ⟨_, hrun.trans hu, hfinished hu, Or.inl rfl⟩
        | ends env hu hstarted hempty heq =>
            exact ⟨_, hrun.trans hu, hfinished hu, Or.inr ⟨hstarted, hempty, env, heq⟩⟩
      · have hended : ((Phase.finalize env).after model cfg t).finished = true :=
          congrArg Marks.finished (marks_finalizeAtEnd model cfg env t)
        exact absurd (hended.symm.trans (hleaves _ _ hop)) (by simp)

theorem Reachable.ending {hosted : Simulation Q σ → HostOp → Prop} {s : Simulation Q σ}
    (h : Reachable model cfg hosted s) (hleaves : Leaves hosted)
    (hsound : ∀ s op, hosted s op → op.SoundReduction cfg) :
    ∃ t, UnderWay model cfg (Simulation.create Q model) t ∧ t.finished = false ∧
      (s = t ∨ Q.elems t.pending = 0 ∧ ∃ env, s = (Phase.finalize env).after model cfg t) := by
  have hallows : AllowsProper cfg fun (p : Phase) (_ : Simulation Q σ) => p.Proper cfg := fun _ _ hp _ _ => hp
  obtain ⟨t, hrun, hgoing, hend⟩ := h.comesTo hleaves hsound hallows (fun _ _ hp => hp) (fun _ _ _ => trivial) fun _ _ _ => trivial
  exact ⟨t, hrun, hgoing, hend.imp_right And.right⟩

end WarpSim

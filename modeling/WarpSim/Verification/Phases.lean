import WarpSim.Verification.Contexts
import WarpSim.Verification.History
import WarpSim.Verification.Stages

/-! # Runs in phases

Between two calls of the host a kernel starts its LPs, polls, dispatches one event and computes GVT.
A run is seen here as the sequence of these phases, so that the state in which an event is dispatched is
a state of the run. -/

namespace WarpSim

variable {Q : EventQueue} {σ : Type} {sound final : Prop} {model : Model σ} {cfg : SimulationConfig}

open Prog Simulation

/-! ## Phases -/

inductive Phase where
  | addLp (id : LPId)
  | schedule (ev : Event)
  | send (ev : Event)
  | start
  | poll (polled : List WireMessage)
  | dispatch
  | collect (env : Environment) (doCollectives : Bool)
  | finalize (env : Environment)

def Phase.perform (model : Model σ) (cfg : SimulationConfig) : Phase → KernelM Q σ Unit
  | .addLp id => WarpSim.addLp model id
  | .schedule ev => modify (WarpSim.schedule ev)
  | .send ev => do
    let _ ← WarpSim.send .host cfg ev
  | .start => startIfNeeded model cfg
  | .poll polled => pollTransport model cfg polled
  | .dispatch => do
    let _ ← dispatchNext model cfg
  | .collect env doCollectives => fossilCollect model cfg env doCollectives
  | .finalize env => finalizeAtEnd model cfg env

/-- The state after a phase. -/
def Phase.after (model : Model σ) (cfg : SimulationConfig) (p : Phase) (s : Simulation Q σ) :
    Simulation Q σ :=
  (exec (p.perform model cfg) s).2

/-- Events are dispatched, and GVT is computed, once the LPs have been started. -/
def Phase.Ready (s : Simulation Q σ) : Phase → Prop
  | .dispatch => s.started = true
  | .collect .. => s.started = true
  | _ => True

/-- A run from `s`, each phase of which is allowed in the state in which it begins. -/
inductive PhaseRun (model : Model σ) (cfg : SimulationConfig) (allowed : Phase → Simulation Q σ → Prop)
    (s : Simulation Q σ) : Simulation Q σ → Prop where
  | refl : PhaseRun model cfg allowed s s
  | step {t : Simulation Q σ} {p : Phase} : PhaseRun model cfg allowed s t → p.Ready t → allowed p t →
      PhaseRun model cfg allowed s (p.after model cfg t)

theorem PhaseRun.trans {allowed : Phase → Simulation Q σ → Prop} {s t u : Simulation Q σ}
    (h : PhaseRun model cfg allowed s t) (h' : PhaseRun model cfg allowed t u) :
    PhaseRun model cfg allowed s u := by
  induction h' with
  | refl => exact h
  | step _ hready hallowed ih => exact ih.step hready hallowed

theorem PhaseRun.mono {allowed allowed' : Phase → Simulation Q σ → Prop} (hallowed : ∀ p t, allowed p t → allowed' p t)
    {s t : Simulation Q σ} (h : PhaseRun model cfg allowed s t) : PhaseRun model cfg allowed' s t := by
  induction h with
  | refl => exact .refl
  | step _ hready hp ih => exact ih.step hready (hallowed _ _ hp)

/-! ## Phases and moves -/

variable (model cfg) in
/-- Every phase makes moves, and only the dispatching one dispatches. -/
theorem Phase.after_moves {p : Phase} {s : Simulation Q σ} (hs : BaseInv s.atRest) (hp : p.Ready s) :
    AllMoves False True model cfg s.atRest (p.after model cfg s).atRest ∧
      (p ≠ .dispatch → (p.after model cfg s).hist.dispatched = s.hist.dispatched) := by
  have hmarked : ∀ {t : Simulation Q σ}, t.marks = s.marks → t.hist.dispatched = s.hist.dispatched :=
    fun h => congrArg Marks.dispatched h
  cases p with
  | addLp id =>
      refine ⟨?_, fun _ => ?_⟩
      · exact (hostOp_moves (.addLp id) hs fun h => h.elim)
      · change (exec (WarpSim.addLp model id) s).2.hist.dispatched = _
        unfold WarpSim.addLp
        rw [exec_get_bind, exec_ite]
        split <;> rfl
  | schedule ev => exact ⟨hostOp_moves (.schedule ev) hs fun h => h.elim, fun _ => rfl⟩
  | send ev =>
      refine ⟨hostOp_moves (.send ev) hs fun h => h.elim, fun _ => hmarked ?_⟩
      change (exec (WarpSim.send .host cfg ev >>= fun _ => pure ()) s).2.marks = s.marks
      rw [exec_bind_pure_state]
      exact keepsMarks_send rfl cfg ev _ s rfl
  | start =>
      refine ⟨Moves.all (startIfNeeded_moves model cfg hs).1, fun _ => hmarked ?_⟩
      exact keepsMarks_startIfNeeded model cfg _ s rfl
  | poll polled =>
      refine ⟨Moves.all (pollTransport_moves polled .refl), fun _ => hmarked ?_⟩
      exact keepsMarks_pollTransport model cfg polled _ s rfl
  | dispatch =>
      refine ⟨Moves.all ?_, fun hne => absurd rfl hne⟩
      change Moves model cfg s.atRest (exec (dispatchNext model cfg >>= fun _ => pure ()) s).2.atRest
      rw [exec_bind_pure_state]
      exact dispatchNext_moves .refl hp
  | collect env doCollectives =>
      have hrested : AllMoves False False model cfg s.atRest
          (exec (fossilCollect model cfg env doCollectives) s).2.atRest :=
        fossilCollect_rested .refl hp fun h => h.elim
      refine ⟨hrested.mono fun h => h.elim, fun _ => hmarked ?_⟩
      exact keepsMarks_fossilCollect model cfg env doCollectives _ s rfl
  | finalize env =>
      obtain ⟨hmoves, hend⟩ := finalizeAtEnd_concluded model cfg env s
      exact ⟨hmoves, fun _ => congrArg Marks.dispatched hend⟩

theorem PhaseRun.moves {allowed : Phase → Simulation Q σ → Prop} {s t : Simulation Q σ}
    (h : PhaseRun model cfg allowed s t) (hs : BaseInv s.atRest) :
    AllMoves False True model cfg s.atRest t.atRest := by
  induction h with
  | refl => exact .refl
  | step _ hready _ ih => exact ih.trans (Phase.after_moves model cfg (AllMoves.baseInv ih hs) hready).1

/-- The states of the runs of a kernel. -/
abbrev OnRun (model : Model σ) (cfg : SimulationConfig) (s : Simulation Q σ) : Prop :=
  PhaseRun model cfg (fun _ _ => True) (Simulation.create Q model) s

theorem PhaseRun.booksInv {allowed : Phase → Simulation Q σ → Prop} {s : Simulation Q σ}
    (h : PhaseRun model cfg allowed (Simulation.create Q model) s) : BooksInv s.atRest :=
  AllMoves.booksInv (h.moves baseInv_create) booksInv_create

theorem PhaseRun.baseInv {allowed : Phase → Simulation Q σ → Prop} {s : Simulation Q σ}
    (h : PhaseRun model cfg allowed (Simulation.create Q model) s) : BaseInv s.atRest :=
  AllMoves.baseInv (h.moves baseInv_create) baseInv_create

theorem PhaseRun.one {s : Simulation Q σ} (p : Phase) (hp : p.Ready s) :
    PhaseRun model cfg (fun _ _ => True) s (p.after model cfg s) :=
  PhaseRun.refl.step hp trivial

/-- One turn of the loops, whatever comes after the GVT computation. -/
theorem turn_phaseRun {α : Type} {s : Simulation Q σ} {env : Environment} {doCollectives : Bool}
    (hs : BaseInv s.atRest) (k : Bool → KernelM Q σ α)
    (hk : ∀ dispatched t, PhaseRun model cfg (fun _ _ => True) t (exec (k dispatched) t).2) :
    PhaseRun model cfg (fun _ _ => True) s (exec (do
      startIfNeeded model cfg
      pollTransport model cfg env.polled
      let dispatched ← dispatchNext model cfg
      fossilCollect model cfg env doCollectives
      k dispatched) s).2 := by
  have hstart : PhaseRun model cfg (fun _ _ => True) s (Phase.start.after model cfg s) := .one _ trivial
  have htrue := (startIfNeeded_moves model cfg hs).2
  unfold Phase.after Phase.perform at hstart
  rw [exec_bind]
  generalize exec (startIfNeeded model cfg) s = res at hstart htrue ⊢
  obtain ⟨what | _, s₁⟩ := res
  · exact hstart
  have hpoll : PhaseRun model cfg (fun _ _ => True) s₁ ((Phase.poll env.polled).after model cfg s₁) :=
    .one _ trivial
  have hpolled : Moves model cfg s₁.atRest _ := pollTransport_moves env.polled .refl
  have htrue₁ := Moves.started_mono hpolled htrue
  unfold Phase.after Phase.perform at hpoll
  dsimp only
  rw [exec_bind]
  generalize exec (pollTransport model cfg env.polled) s₁ = res at hpoll hpolled htrue₁ ⊢
  obtain ⟨what | _, u⟩ := res
  · exact hstart.trans hpoll
  have hdisp : PhaseRun model cfg (fun _ _ => True) u (Phase.dispatch.after model cfg u) := .one _ htrue₁
  have hnext : Moves model cfg u.atRest _ := dispatchNext_moves .refl htrue₁
  have htrue₂ := Moves.started_mono hnext htrue₁
  unfold Phase.after Phase.perform at hdisp
  rw [exec_bind_pure_state] at hdisp
  dsimp only
  rw [exec_bind]
  generalize exec (dispatchNext model cfg) u = res at hdisp hnext htrue₂ ⊢
  obtain ⟨what | dispatched, v⟩ := res
  · exact (hstart.trans hpoll).trans hdisp
  have hfossil : PhaseRun model cfg (fun _ _ => True) v
      ((Phase.collect env doCollectives).after model cfg v) := .one _ htrue₂
  unfold Phase.after Phase.perform at hfossil
  dsimp only
  rw [exec_bind]
  generalize exec (fossilCollect model cfg env doCollectives) v = res at hfossil ⊢
  obtain ⟨what | _, w⟩ := res
  · exact ((hstart.trans hpoll).trans hdisp).trans hfossil
  · exact (((hstart.trans hpoll).trans hdisp).trans hfossil).trans (hk dispatched w)

/-- Every host operation goes through phases. -/
theorem hostOp_phaseRun {s : Simulation Q σ} (op : HostOp) (hs : BaseInv s.atRest) :
    PhaseRun model cfg (fun _ _ => True) s (exec (hostOp model cfg op) s).2 := by
  cases op with
  | addLp id => exact PhaseRun.one (.addLp id) trivial
  | schedule ev => exact PhaseRun.one (.schedule ev) trivial
  | send ev => exact PhaseRun.one (.send ev) trivial
  | pollTransport polled => exact PhaseRun.one (.poll polled) trivial
  | runOne env doCollectives =>
      have heq : (exec (hostOp model cfg (.runOne env doCollectives)) s).2 =
          (exec (runOne model cfg env doCollectives) s).2 := exec_bind_pure_state ..
      rw [heq]
      exact turn_phaseRun hs _ fun _ _ => .refl
  | runIteration env iters =>
      have heq : (exec (hostOp model cfg (.runIteration env iters)) s).2 =
          (exec (runIteration model cfg env iters) s).2 := exec_bind_pure_state ..
      rw [heq]
      refine turn_phaseRun hs _ fun _ t => ?_
      have hfinal : PhaseRun model cfg (fun _ _ => True) t
          (exec (finalizeAtEnd model cfg env >>= fun _ => pure false) t).2 := by
        rw [exec_bind_pure_state]
        exact PhaseRun.one (.finalize env) trivial
      rw [exec_get_bind]
      dsimp only
      rw [exec_ite]
      split
      · rw [exec_ite]
        split
        · exact .refl
        · exact hfinal
      · rw [exec_ite]
        split
        · exact .refl
        · exact hfinal

theorem Reachable.onRun {allowed : Simulation Q σ → HostOp → Prop} {s : Simulation Q σ}
    (h : Reachable model cfg allowed s) : OnRun model cfg s := by
  induction h with
  | create => exact .refl
  | step hs _ ih => exact ih.trans (hostOp_phaseRun _ hs.baseInv)

/-! ## What the other phases do to an LP -/

/-- Without a dispatch the dispatcher stays at rest. -/
theorem Move.at_rest {x y : Situation Q σ} (h : Move model cfg x y) (hx : x.activity = .idle)
    (hd : y.state.hist.dispatched = x.state.hist.dispatched) : y.activity = .idle := by
  cases h with
  | quiet => exact hx
  | sent => cases hx; rfl
  | unlogged => cases hx; rfl
  | refused => cases hx; rfl
  | pop => exact absurd hd (by simp [recordDispatch])
  | annul => exact hx
  | straggle => cases hx
  | enter => cases hx
  | store => cases hx
  | abort => cases hx
  | mark => cases hx
  | matched => cases hx
  | unmatched => cases hx
  | _ => rfl

/-- What happens to an LP while nothing is dispatched. -/
inductive RestStep (model : Model σ) (i : LPId) (s t : Simulation Q σ) : Prop where
  | same : SameWork (s.ctx i) (t.ctx i) → RestStep model i s t
  | registered : i ∉ s.lpIds → t.ctx i = { lp := (model i).init } → RestStep model i s t
  | replaced (state) : t.ctx i = { s.ctx i with lp := state } → RestStep model i s t
  | pruned (gvt) : t.ctx i = (s.ctx i).prune gvt → RestStep model i s t

theorem RestStep.of_eq {i : LPId} {s t : Simulation Q σ} (h : t.ctx i = s.ctx i) : RestStep model i s t :=
  .same (h ▸ SameWork.refl _)

theorem Move.restStep {x y : Situation Q σ} (h : Move model cfg x y) (hx : x.activity = .idle) (i : LPId) :
    RestStep model i x.state y.state := by
  obtain ⟨a, owed, s⟩ := x
  cases hx
  cases h with
  | quiet hq => exact .of_eq (congrFun hq.ctx i)
  | @register s id hid =>
      by_cases hi : i = id
      · subst hi
        exact .registered hid (Function.update_self ..)
      · exact .of_eq (Function.update_of_ne hi ..)
  | @prepare s id state =>
      by_cases hi : i = id
      · subst hi
        exact .replaced state (setLp_self ..)
      · exact .of_eq (setLp_of_ne s state hi)
  | receive => rw [receiveEvent_eq]; exact .of_eq rfl
  | acknowledge => rw [receiveAck_eq]; exact .of_eq rfl
  | @migrate s mig rest =>
      by_cases hi : i = mig.newOwner
      · subst hi
        exact .replaced _ (setLp_self ..)
      · exact .of_eq (setLp_of_ne { s with pendingMigrations := rest } _ hi)
  | sent => exact .same (sameWork_sent ..)
  | unlogged =>
      refine .same ?_
      rw [posted_ctx]
      exact sameWork_renumber ..
  | refused => exact .same (sameWork_renumber ..)
  | release => rw [released_eq]; exact .of_eq rfl
  | annul => exact .same (sameWork_annul ..)
  | stuck ha => cases ha
  | _ => exact .of_eq rfl

theorem GvtMove.restStep {x y : Situation Q σ} (h : GvtMove sound final cfg x y) (i : LPId) :
    RestStep model i x.state y.state :=
  (h.ctx_cases i).elim .of_eq fun ⟨gvt, hy⟩ => .pruned gvt hy

/-- What such moves leave of the records of an LP. -/
structure RestFrame (c c' : LPContext σ) : Prop where
  executed : c'.executed = c.executed
  undone : c'.undone = c.undone
  kept : c'.kept = c.kept
  processed : c'.processed <:+ c.processed

theorem RestFrame.refl (c : LPContext σ) : RestFrame c c := ⟨rfl, rfl, rfl, List.suffix_refl _⟩

theorem RestFrame.trans {c c' c'' : LPContext σ} (h : RestFrame c c') (h' : RestFrame c' c'') :
    RestFrame c c'' :=
  ⟨h'.executed.trans h.executed, h'.undone.trans h.undone, h'.kept.trans h.kept,
    h'.processed.trans h.processed⟩

theorem RestStep.frame {i : LPId} {x y : Situation Q σ} (h : RestStep model i x.state y.state)
    (hx : BooksInv x) : RestFrame (x.state.ctx i) (y.state.ctx i) := by
  cases h with
  | same hsame =>
      exact ⟨hsame.executed, hsame.undone, hsame.books.kept, hsame.processed ▸ List.suffix_refl _⟩
  | registered hi hy =>
      have hexec := hx.fresh i hi
      have hkept := hx.kept_of_fresh hi
      have hperm := (hx.ledger i).balanced
      rw [hexec] at hperm
      have hundone := (List.append_eq_nil_iff.mp hperm.nil_eq.symm).1
      rw [hy]
      exact ⟨hexec.symm, hundone.symm, hkept.symm, List.nil_suffix⟩
  | replaced state hy =>
      rw [hy]
      exact ⟨rfl, rfl, rfl, List.suffix_refl _⟩
  | pruned gvt hy =>
      rw [hy]
      exact ⟨rfl, rfl, kept_prune gvt _, List.dropWhile_suffix _⟩

theorem AllMoves.restFrame {x y : Situation Q σ} (h : AllMoves sound final model cfg x y)
    (hx : BooksInv x) (hidle : x.activity = .idle)
    (hd : y.state.hist.dispatched = x.state.hist.dispatched) (i : LPId) :
    y.activity = .idle ∧ RestFrame (x.state.ctx i) (y.state.ctx i) := by
  induction h with
  | refl => exact ⟨hidle, .refl _⟩
  | @tail y z hmoves hm ih =>
      have hxy : x.state.hist.dispatched <+: y.state.hist.dispatched := (AllMoves.extends hmoves).dispatched
      have hyz : y.state.hist.dispatched <+: z.state.hist.dispatched :=
        (hm.elim Move.extends GvtMove.extends).dispatched
      have hy : y.state.hist.dispatched = x.state.hist.dispatched :=
        (hxy.eq_of_length_le (hd ▸ hyz).length_le).symm
      obtain ⟨hyidle, hframe⟩ := ih hy
      have hbooks : BooksInv y := AllMoves.booksInv hmoves hx
      rcases hm with hm | hm
      · exact ⟨hm.at_rest hyidle (hd.trans hy.symm), hframe.trans ((hm.restStep hyidle i).frame hbooks)⟩
      · have hstep : RestStep model i y.state z.state := hm.restStep i
        exact ⟨hm.activity_eq, hframe.trans (hstep.frame hbooks)⟩

/-- Only the dispatching phase makes records and undoes them. -/
theorem Phase.after_restFrame {p : Phase} (hne : p ≠ .dispatch) {s : Simulation Q σ} (hs : BooksInv s.atRest)
    (hbase : BaseInv s.atRest) (hp : p.Ready s) (i : LPId) :
    RestFrame (s.ctx i) ((p.after model cfg s).ctx i) := by
  obtain ⟨hmoves, hd⟩ := Phase.after_moves model cfg hbase hp
  exact (AllMoves.restFrame hmoves hs rfl (hd hne) i).2

end WarpSim

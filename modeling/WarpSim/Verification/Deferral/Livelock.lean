import WarpSim.Verification.Deferral.Coverage
import WarpSim.Verification.Deferral.Turns
import WarpSim.Verification.Rollback.Restoring

/-! # Buffering and the end of the run

While no handler sends, each turn of the loop of `run` brings it nearer to its end, unless an install that has been
executed is undone. An event that has waited for an install can undo it, again and again. -/

namespace WarpSim

variable {Q : EventQueue} {σ : Type} {model : Model σ} {cfg : SimulationConfig}

open Prog Simulation

/-! ## What lies ahead -/

/-- The event is before the virtual time of its LP. -/
def Simulation.Late (s : Simulation Q σ) (ev : Event) : Prop := ev.ts < (s.ctx ev.dst).vt

instance (s : Simulation Q σ) : DecidablePred s.Late := fun ev =>
  inferInstanceAs (Decidable (ev.ts < (s.ctx ev.dst).vt))

/-- If the next event is a straggler, the installs that its LP has executed are all before it. -/
def SparesInstalls (cfg : SimulationConfig) (s : Simulation Q σ) : Prop :=
  ∀ ev ∈ Q.top? s.pending, s.Late ev →
    ∀ rec ∈ (s.ctx ev.dst).processed, Installs cfg rec.ev → rec.ev.ts < ev.ts

instance (cfg : SimulationConfig) (s : Simulation Q σ) : Decidable (SparesInstalls cfg s) :=
  inferInstanceAs (Decidable (∀ ev ∈ Q.top? s.pending, s.Late ev →
    ∀ rec ∈ (s.ctx ev.dst).processed, Installs cfg rec.ev → rec.ev.ts < ev.ts))

/-- No install waits for another one. -/
def NoInstallWaits (cfg : SimulationConfig) (s : Simulation Q σ) : Prop := ∀ ev ∈ s.deferred, ¬ Installs cfg ev

/-- How many installs are in the queue, then how many stragglers, then how many events. -/
def ahead (cfg : SimulationConfig) (s : Simulation Q σ) : ℕ ×ₗ ℕ ×ₗ ℕ :=
  toLex ((Q.elems s.pending).countP (Installs cfg),
    toLex ((Q.elems s.pending).countP s.Late, (Q.elems s.pending).card))

theorem countP_mono {α : Type} {p q : α → Prop} [DecidablePred p] [DecidablePred q] {m : Multiset α}
    (h : ∀ a ∈ m, p a → q a) : m.countP p ≤ m.countP q := by
  induction m using Multiset.induction with
  | empty => simp
  | cons a m ih =>
      have hrest := ih fun b hb => h b (Multiset.mem_cons_of_mem hb)
      have hhead := h a (Multiset.mem_cons_self a m)
      rw [Multiset.countP_cons, Multiset.countP_cons]
      split <;> split <;> first | omega | tauto

variable {ev : Event} {s t : Simulation Q σ}

theorem ahead_lt_of_popped (htop : Q.top? s.pending = some ev) (hpending : t.pending = Q.pop s.pending)
    (hlate : ∀ e ∈ Q.elems (Q.pop s.pending), t.Late e → s.Late e) : ahead cfg t < ahead cfg s := by
  have hfront := Q.elems_pop _ _ htop
  have hsub : Q.elems (Q.pop s.pending) ≤ Q.elems s.pending := hfront ▸ Multiset.le_cons_self _ _
  unfold ahead
  rw [hpending]
  refine Prod.Lex.toLex_lt_toLex'.mpr ⟨Multiset.countP_le_of_le _ hsub, fun _ => ?_⟩
  refine Prod.Lex.toLex_lt_toLex'.mpr ⟨?_, fun _ => ?_⟩
  · exact (countP_mono hlate).trans (Multiset.countP_le_of_le _ hsub)
  · change (Q.elems (Q.pop s.pending)).card < (Q.elems s.pending).card
    rw [hfront, Multiset.card_cons]
    exact Nat.lt_succ_self _

theorem ahead_lt_of_install (htop : Q.top? s.pending = some ev) (hinstalls : Installs cfg ev) {freed : List Event}
    (hfreed : ∀ e ∈ freed, ¬ Installs cfg e) (hpending : Q.elems t.pending = Q.elems (Q.pop s.pending) + freed) :
    ahead cfg t < ahead cfg s := by
  have hfront := Q.elems_pop _ _ htop
  have hnone : (freed : Multiset Event).countP (Installs cfg) = 0 :=
    Multiset.countP_eq_zero.mpr fun e he => hfreed e (Multiset.mem_coe.mp he)
  refine Prod.Lex.toLex_lt_toLex.mpr (Or.inl ?_)
  change (Q.elems t.pending).countP (Installs cfg) < (Q.elems s.pending).countP (Installs cfg)
  rw [hpending, Multiset.countP_add, hnone, hfront, Multiset.countP_cons_of_pos _ hinstalls]
  exact Nat.lt_succ_self _

/-- A rollback that undoes no install leaves fewer stragglers: what it puts back is not before its LP. -/
theorem ahead_lt_of_straggler (htop : Q.top? s.pending = some ev) (hev : s.Late ev) (undone : List Event)
    (hinstalls : ∀ e ∈ undone, ¬ Installs cfg e) (hundone : ∀ e ∈ undone, ¬ t.Late e) (hself : ¬ t.Late ev)
    (hlate : ∀ e ∈ Q.elems (Q.pop s.pending), t.Late e → s.Late e)
    (hpending : Q.elems t.pending = Q.elems s.pending + undone) : ahead cfg t < ahead cfg s := by
  have hfront := Q.elems_pop _ _ htop
  have hnone : (undone : Multiset Event).countP (Installs cfg) = 0 :=
    Multiset.countP_eq_zero.mpr fun e he => hinstalls e (Multiset.mem_coe.mp he)
  have hnew : (undone : Multiset Event).countP t.Late = 0 :=
    Multiset.countP_eq_zero.mpr fun e he => hundone e (Multiset.mem_coe.mp he)
  refine Prod.Lex.toLex_lt_toLex'.mpr ⟨?_, fun _ => Prod.Lex.toLex_lt_toLex.mpr (Or.inl ?_)⟩
  · change (Q.elems t.pending).countP (Installs cfg) ≤ (Q.elems s.pending).countP (Installs cfg)
    rw [hpending, Multiset.countP_add, hnone, Nat.add_zero]
  · change (Q.elems t.pending).countP t.Late < (Q.elems s.pending).countP s.Late
    rw [hpending, Multiset.countP_add, hnew, Nat.add_zero, hfront, Multiset.countP_cons_of_neg _ hself,
      Multiset.countP_cons_of_pos _ hev]
    exact Nat.lt_succ_of_le (countP_mono hlate)

/-! ## One turn -/

theorem elems_released (ev : Event) (s : Simulation Q σ) :
    Q.elems (released ev s).pending = Q.elems s.pending + (waiting ev s : Multiset Event) := by
  rw [released_closed, Q.elems_foldl_push]
  exact congrArg _ (Multiset.coe_eq_coe.mpr (List.perm_insertionSort _ _))

theorem deferred_of_waiting {e : Event} (h : e ∈ waiting ev s) : e ∈ s.deferred := by
  unfold waiting at h
  cases hlookup : s.deferredTargeted.lookup (deferredKey ev.dst ev.target) with
  | none => simp [hlookup] at h
  | some bucket =>
      rw [hlookup] at h
      obtain ⟨l₁, l₂, htable, -⟩ := List.lookup_eq_some_iff.mp hlookup
      exact List.mem_flatMap.mpr ⟨(deferredKey ev.dst ev.target, bucket), by simp [htable], h⟩

theorem elems_straggled (model : Model σ) (ev : Event) (s : Simulation Q σ) :
    Q.elems (straggled model ev s).pending = ev ::ₘ (Q.elems s.pending +
      ((undoneRecords ev.ts (s.ctx ev.dst).processed).map (·.ev) : List Event)) := by
  change Q.elems (Q.push (unwound model ev.dst ev.ts s).pending ev) = _
  rw [Q.elems_push, unwound_eq]
  dsimp only
  rw [Q.elems_foldl_push, List.map_reverse, Multiset.coe_reverse]

/-- A turn of the loop brings the run nearer to its end, unless an install is undone. -/
theorem Dealt.ahead_lt (h : Alone s) (hwaits : NoInstallWaits cfg s) (hspares : SparesInstalls cfg s)
    (htop : Q.top? s.pending = some ev) (hd : Dealt model cfg ev (popped ev s) t) : ahead cfg t < ahead cfg s := by
  have hfirst : ∀ e ∈ Q.elems (Q.pop s.pending), ev.ts ≤ e.ts := fun e he =>
    Event.ts_le_of_sortKey_le (top?_le htop e (mem_pop htop he))
  cases hd with
  | @executed rec hlt hrec hout =>
      unfold WarpSim.executed
      split
      · next hinstall =>
        have hfreed : ∀ e ∈ waiting ev s, ¬ Installs cfg e := fun e he => hwaits e (deferred_of_waiting he)
        exact ahead_lt_of_install htop hinstall hfreed (elems_released ..)
      · refine ahead_lt_of_popped htop rfl fun e he hlate => ?_
        unfold Simulation.Late at hlate ⊢
        rw [ran_ctx] at hlate
        by_cases hdst : e.dst = ev.dst
        · rw [hdst, Function.update_self] at hlate
          exact absurd hlate (not_lt.mpr (hfirst e he))
        · rwa [Function.update_of_ne hdst] at hlate
  | @putOff what hlt hinstall hout =>
      refine ahead_lt_of_popped htop rfl fun e he hlate => ?_
      unfold Simulation.Late at hlate ⊢
      rw [putOff_ctx] at hlate
      by_cases hdst : e.dst = ev.dst
      · rw [hdst, Function.update_self] at hlate
        rw [hdst]
        exact hlate
      · rwa [Function.update_of_ne hdst] at hlate
  | straggled hlt =>
      have hvt : ((WarpSim.straggled model ev (popped ev s)).ctx ev.dst).vt ≤ ev.ts := by
        change ((unwound model ev.dst ev.ts (popped ev s)).ctx ev.dst).vt ≤ ev.ts
        rw [unwound_ctx, Function.update_self, LPContext.rewind_eq]
        exact prevStamp_le ev.ts
      have hother : ∀ i, i ≠ ev.dst → (WarpSim.straggled model ev (popped ev s)).ctx i = s.ctx i := by
        intro i hi
        change (unwound model ev.dst ev.ts (popped ev s)).ctx i = _
        rw [unwound_ctx, Function.update_of_ne hi]
        rfl
      have hundone : ∀ rec ∈ undoneRecords ev.ts (s.ctx ev.dst).processed,
          rec ∈ (s.ctx ev.dst).processed ∧ ev.ts ≤ rec.ev.ts := by
        intro rec hrec
        refine ⟨(List.rtakeWhile_suffix _ _).subset hrec, ?_⟩
        simpa using List.mem_rtakeWhile_imp hrec
      refine ahead_lt_of_straggler htop hlt ((undoneRecords ev.ts (s.ctx ev.dst).processed).map (·.ev))
        ?_ ?_ ?_ ?_ ?_
      · intro e he hinstall
        obtain ⟨rec, hrec, rfl⟩ := List.mem_map.mp he
        obtain ⟨hmem, hle⟩ := hundone rec hrec
        exact absurd (hspares ev htop hlt rec hmem hinstall) (not_lt.mpr hle)
      · intro e he hlate
        obtain ⟨rec, hrec, rfl⟩ := List.mem_map.mp he
        obtain ⟨hmem, hle⟩ := hundone rec hrec
        unfold Simulation.Late at hlate
        rw [(h.processed ev.dst rec hmem).2.1] at hlate
        exact absurd (hlate.trans_le hvt) (not_lt.mpr hle)
      · exact fun hlate => absurd hlate (not_lt.mpr hvt)
      · intro e he hlate
        unfold Simulation.Late at hlate ⊢
        by_cases hdst : e.dst = ev.dst
        · rw [hdst] at hlate
          exact absurd (hlate.trans_le hvt) (not_lt.mpr (hfirst e he))
        · rwa [hother e.dst hdst] at hlate
      · rw [elems_straggled, ← Multiset.cons_add]
        exact congrArg (· + _) (Q.elems_pop _ _ htop).symm

theorem Dealt.noInstallWaits (hwaits : NoInstallWaits cfg s) (hd : Dealt model cfg ev (popped ev s) t) :
    NoInstallWaits cfg t := by
  cases hd with
  | executed =>
      unfold WarpSim.executed
      split
      · intro e he
        have hran : e ∈ (ran ev _ _ (popped ev s)).deferred := mem_released_deferred he
        exact hwaits e hran
      · exact hwaits
  | putOff _ hinstall =>
      intro e he
      rcases mem_deferTargetedEvent he with hold | rfl
      · exact hwaits e hold
      · exact hinstall
  | straggled =>
      have hsame : (WarpSim.straggled model ev (popped ev s)).deferred = s.deferred := by
        rw [WarpSim.straggled, unwound_eq]
        rfl
      unfold NoInstallWaits
      rw [hsame]
      exact hwaits

theorem ahead_congr (hpending : t.pending = s.pending) (hvt : ∀ id, (t.ctx id).vt = (s.ctx id).vt) :
    ahead cfg t = ahead cfg s := by
  have hlate : (Q.elems s.pending).countP t.Late = (Q.elems s.pending).countP s.Late :=
    Multiset.countP_congr rfl fun e _ => by unfold Simulation.Late; rw [hvt]
  unfold ahead
  rw [hpending, hlate]

theorem Prepared.pending_eq (h : Prepared model s t) : t.pending = s.pending := by rw [h.rest]

theorem Prepared.noInstallWaits (h : Prepared model s t) (hwaits : NoInstallWaits cfg s) : NoInstallWaits cfg t := by
  rw [h.rest]
  exact hwaits

theorem Prepared.sparesInstalls (h : Prepared model s t) (hspares : SparesInstalls cfg s) : SparesInstalls cfg t := by
  intro ev htop hlate rec hrec
  rw [h.pending_eq] at htop
  unfold Simulation.Late at hlate
  rw [h.ctx] at hlate hrec
  exact hspares ev htop hlate rec hrec

/-! ## A whole run -/

/-- How `run` ends: it returns, or throws one of the two errors of `finalize_at_end`. -/
inductive RunEnds (cfg : SimulationConfig) : Except String Bool → Prop where
  | returns : RunEnds cfg (.ok false)
  | waiting : cfg.enableInstallBeforeUseBuffering = true → RunEnds cfg (.error
      "Install-before-use buffering: simulation ended with deferred targeted events still pending (missing install?)")
  | mismatch : cfg.enableDeterminismOracle = true → cfg.expectedDeterminismDigest.isSome = true →
      RunEnds cfg (.error "Determinism oracle failed: digest mismatch")

theorem finalizeAtEnd_ends (model : Model σ) (cfg : SimulationConfig) (env : Environment) (h : Alone s) :
    RunEnds cfg (exec (finalizeAtEnd model cfg env >>= fun _ => pure false) s).1 := by
  have hnone : ({ pruneToGvt cfg maxStamp s with finished := true } : Simulation Q σ).pendingMigrations = [] :=
    h.migrations
  have hend : (exec (finalizeAtEnd model cfg env) s).1 = .ok () ∨
      ∃ what, (exec (finalizeAtEnd model cfg env) s).1 = .error what ∧ RunEnds cfg (.error what) := by
    unfold finalizeAtEnd
    rw [exec_modify_bind, exec_bind_of_ok (exec_applyReadyMigrations hnone), exec_get_bind, exec_ite]
    split
    · next hdigest => exact Or.inr ⟨_, rfl, .mismatch hdigest.1 hdigest.2.1⟩
    · rw [exec_ite]
      split
      · next hwaiting => exact Or.inr ⟨_, rfl, .waiting hwaiting.1⟩
      · exact Or.inl rfl
  rw [exec_bind]
  generalize exec (finalizeAtEnd model cfg env) s = res at hend ⊢
  obtain ⟨r, u⟩ := res
  rcases hend with rfl | ⟨what, rfl, hends⟩
  · exact .returns
  · exact hends

/-- A turn of the loop ends the run, or it brings it nearer to its end. -/
theorem runIteration_ends_or_nears (hmodel : TameModel cfg model) (hcfg : SingleRank cfg)
    (hbuf : cfg.enableInstallBeforeUseBuffering = true) {env : Environment} (hpolled : env.polled = [])
    (henv : env.hasPending = false) (iters : ℕ) (h : Alone s) (hwaits : NoInstallWaits cfg s)
    (hspares : SparesInstalls cfg s) :
    RunEnds cfg (exec (runIteration model cfg env iters) s).1 ∨
      ∃ u, exec (runIteration model cfg env iters) s = (.ok true, u) ∧ Alone u ∧ NoInstallWaits cfg u ∧
        ahead cfg u < ahead cfg s := by
  obtain ⟨s', t, u, hprepared, hturn, hcollected, hu, hexec⟩ :=
    exec_runIteration hmodel hcfg hbuf hpolled henv iters h
  have hstart : ahead cfg s' = ahead cfg s :=
    ahead_congr hprepared.pending_eq fun id => by rw [hprepared.ctx]
  have hend : ahead cfg u = ahead cfg t := ahead_congr hcollected.pending hcollected.vt
  have hkept : NoInstallWaits cfg t → NoInstallWaits cfg u := by
    intro ht e he
    have hdeferred : u.deferred = t.deferred := congrArg (List.flatMap Prod.snd) hcollected.deferred
    exact ht e (hdeferred ▸ he)
  rw [hexec]
  split
  · next hmore =>
    right
    cases hturn with
    | empty htop =>
        rw [hcollected.pending] at hmore
        exact absurd (Q.elems_eq_zero_of_top? _ htop) hmore
    | front htop hdealt =>
        have hwaits' := hprepared.noInstallWaits hwaits
        refine ⟨u, rfl, hu, hkept (hdealt.noInstallWaits hwaits'), ?_⟩
        rw [hend, ← hstart]
        exact hdealt.ahead_lt (h.prepared hprepared) hwaits' (hprepared.sparesInstalls hspares) htop
  · exact Or.inl (finalizeAtEnd_ends model cfg env hu)

theorem exec_run_succ (env : ℕ → Environment) (turns iters : ℕ) {u : Simulation Q σ}
    (h : exec (runIteration model cfg (env iters) iters) s = (.ok true, u)) :
    exec (run model cfg env (turns + 1) iters) s = exec (run model cfg env turns (iters + 1)) u := by
  rw [run, exec_bind_of_ok h]
  rfl

theorem run_one_ends {env : ℕ → Environment} {iters : ℕ}
    (h : RunEnds cfg (exec (runIteration model cfg (env iters) iters) s).1) :
    RunEnds cfg (exec (run model cfg env 1 iters) s).1 := by
  unfold run
  rw [exec_bind]
  generalize exec (runIteration model cfg (env iters) iters) s = res at h ⊢
  obtain ⟨r, u⟩ := res
  cases h with
  | returns => exact .returns
  | waiting hbuf => exact .waiting hbuf
  | mismatch horacle hdigest => exact .mismatch horacle hdigest

/-- The loop ends if no straggler that it meets undoes an install. -/
theorem Alone.run_ends (hmodel : TameModel cfg model) (hcfg : SingleRank cfg)
    (hbuf : cfg.enableInstallBeforeUseBuffering = true) {env : ℕ → Environment}
    (henv : ∀ n, (env n).polled = [] ∧ (env n).hasPending = false) (iters : ℕ) (h : Alone s)
    (hwaits : NoInstallWaits cfg s)
    (hspares : ∀ turns t, exec (run model cfg env turns iters) s = (.ok true, t) → SparesInstalls cfg t) :
    ∃ turns, RunEnds cfg (exec (run model cfg env turns iters) s).1 := by
  induction hahead : ahead cfg s using WellFoundedLT.induction generalizing s iters with
  | ind a ih =>
      rcases runIteration_ends_or_nears hmodel hcfg hbuf (henv iters).1 (henv iters).2 iters h hwaits
        (hspares 0 s rfl) with hends | ⟨u, hexec, hu, hwaits', hnearer⟩
      · exact ⟨1, run_one_ends hends⟩
      · have hrest : ∀ turns t, exec (run model cfg env turns (iters + 1)) u = (.ok true, t) →
            SparesInstalls cfg t := fun turns t ht =>
          hspares (turns + 1) t ((exec_run_succ env turns iters hexec).trans ht)
        obtain ⟨turns, hends⟩ := ih (ahead cfg u) (hahead ▸ hnearer) (iters + 1) hu hwaits' hrest rfl
        exact ⟨turns + 1, (exec_run_succ env turns iters hexec).symm ▸ hends⟩

/-! ## From the start -/

/-- A kernel that has been given its LPs and then the events. -/
def scheduled (Q : EventQueue) (model : Model σ) (cfg : SimulationConfig) (ids : List LPId) (evs : List Event) :
    Simulation Q σ :=
  hostRun model cfg (ids.map .addLp ++ evs.map .schedule) (Simulation.create Q model)

theorem alone_create (model : Model σ) : Alone (Simulation.create Q model) := by
  constructor <;> simp [Simulation.create, Q.elems_empty, Simulation.deferred]

/-- `t` has the LPs of `s`, with nothing deferred if nothing is deferred in `s`. -/
structure SetUp (s t : Simulation Q σ) : Prop where
  alone : Alone t
  deferred : t.deferredTargeted = s.deferredTargeted
  lpIds : s.lpIds ⊆ t.lpIds

theorem SetUp.trans {u : Simulation Q σ} (h : SetUp s t) (h' : SetUp t u) : SetUp s u :=
  ⟨h'.alone, h'.deferred.trans h.deferred, List.Subset.trans h.lpIds h'.lpIds⟩

theorem setUp_addLp (model : Model σ) (cfg : SimulationConfig) (id : LPId) (h : Alone s) :
    SetUp s (exec (hostOp model cfg (.addLp id)) s).2 ∧ id ∈ (exec (hostOp model cfg (.addLp id)) s).2.lpIds := by
  unfold hostOp addLp
  rw [exec_get_bind, exec_ite]
  split
  · next hid => exact ⟨⟨h, rfl, List.Subset.refl _⟩, hid⟩
  · have hlpIds : ∀ i ∈ s.lpIds, i ∈ s.lpIds ++ [id] := fun i hi => List.mem_append_left _ hi
    have hnew : ∀ i, (Function.update s.ctx id { lp := (model id).init } i).processed ⊆ (s.ctx i).processed ∧
        ((s.ctx i).sentLog = [] → (Function.update s.ctx id { lp := (model id).init } i).sentLog = []) := by
      intro i
      by_cases hi : i = id
      · subst hi
        simp
      · simp [Function.update_of_ne hi]
    refine ⟨⟨⟨fun ev hev => ?_, fun ev hev => ?_, fun i rec hrec => ?_, h.cancelled,
      fun i => (hnew i).2 (h.logs i), h.migrations, h.directories, h.inflight⟩, rfl, hlpIds⟩, ?_⟩
    · exact (h.pending ev hev).imp_right (hlpIds _)
    · exact (h.deferred ev hev).imp_right (hlpIds _)
    · exact (h.processed i rec ((hnew i).1 hrec)).imp_right (And.imp_right (hlpIds _))
    · exact List.mem_append_right _ List.mem_cons_self

theorem setUp_addLps (model : Model σ) (cfg : SimulationConfig) (ids : List LPId) (h : Alone s) :
    SetUp s (hostRun model cfg (ids.map .addLp) s) ∧ ids ⊆ (hostRun model cfg (ids.map .addLp) s).lpIds := by
  induction ids generalizing s with
  | nil => exact ⟨⟨h, rfl, List.Subset.refl _⟩, List.nil_subset _⟩
  | cons id ids ih =>
      obtain ⟨hadd, hid⟩ := setUp_addLp model cfg id h
      obtain ⟨hrest, hids⟩ := ih hadd.alone
      exact ⟨hadd.trans hrest, List.cons_subset.mpr ⟨hrest.lpIds hid, hids⟩⟩

theorem setUp_schedules (model : Model σ) (cfg : SimulationConfig) {evs : List Event} (h : Alone s)
    (hevs : ∀ ev ∈ evs, ev.isAnti = false ∧ ev.dst ∈ s.lpIds) :
    SetUp s (hostRun model cfg (evs.map .schedule) s) := by
  induction evs generalizing s with
  | nil => exact ⟨h, rfl, List.Subset.refl _⟩
  | cons ev evs ih =>
      have hrecorded : Alone (recordDelivery none ev s) :=
        ⟨h.pending, h.deferred, h.processed, h.cancelled, h.logs, h.migrations, h.directories, h.inflight⟩
      have hone : SetUp s (schedule ev s) :=
        ⟨hrecorded.enqueue (hevs ev List.mem_cons_self), rfl, List.Subset.refl _⟩
      exact hone.trans (ih hone.alone fun e he => hevs e (List.mem_cons_of_mem _ he))

theorem setUp_scheduled (model : Model σ) (cfg : SimulationConfig) {ids : List LPId} {evs : List Event}
    (hevs : ∀ ev ∈ evs, ev.isAnti = false ∧ ev.dst ∈ ids) :
    SetUp (Simulation.create Q model) (scheduled Q model cfg ids evs) := by
  obtain ⟨hadd, hids⟩ := setUp_addLps model cfg ids (alone_create (Q := Q) model)
  have hschedule := setUp_schedules model cfg hadd.alone fun ev hev => (hevs ev hev).imp_right fun h => hids h
  unfold scheduled hostRun
  rw [List.foldl_append]
  exact hadd.trans hschedule

/-- On one rank, and with handlers that send nothing, a run over any scheduled events returns or throws in the end
if no straggler that it meets undoes an install. -/
theorem buffered_run_ends (hmodel : TameModel cfg model) (hcfg : SingleRank cfg)
    (hbuf : cfg.enableInstallBeforeUseBuffering = true) {ids : List LPId} {evs : List Event}
    (hevs : ∀ ev ∈ evs, ev.isAnti = false ∧ ev.dst ∈ ids) {env : ℕ → Environment}
    (henv : ∀ n, (env n).polled = [] ∧ (env n).hasPending = false)
    (hspares : ∀ turns t, exec (run model cfg env turns 1) (scheduled Q model cfg ids evs) = (.ok true, t) →
      SparesInstalls cfg t) :
    ∃ turns, RunEnds cfg (exec (run model cfg env turns 1) (scheduled Q model cfg ids evs)).1 := by
  have hsetUp := setUp_scheduled (Q := Q) model cfg hevs
  refine hsetUp.alone.run_ends hmodel hcfg hbuf henv 1 (fun ev hev => ?_) hspares
  have hnone : (scheduled Q model cfg ids evs).deferred = [] := congrArg (List.flatMap Prod.snd) hsetUp.deferred
  rw [hnone] at hev
  cases hev

theorem tenant_tame : TameModel bufferingConfig fun _ => tenant := by
  refine ⟨fun _ st => ⟨st, rfl⟩, fun _ st ev => ?_⟩
  change (if ev.payload.kind = 42002 then Handler.requestWrite st ev.target (.done true)
    else if ev.target ≠ 0 ∧ st = false then Handler.throw st "World: unknown EntityId=7" else .done st).Tame _
  split
  · trivial
  · next hkind =>
    split
    · next hmissing => exact ⟨⟨hmissing.1, hkind⟩, by decide +kernel⟩
    · trivial

theorem bufferingConfig_alone : SingleRank bufferingConfig := ⟨rfl, rfl, rfl, rfl⟩

theorem run_stays {env : ℕ → Environment} {turns iters : ℕ}
    (h : (exec (run model cfg env turns iters) s).1 = .ok false) (more : ℕ) :
    (exec (run model cfg env (turns + more) iters) s).1 = .ok false := by
  induction turns generalizing s iters with
  | zero => cases h
  | succ turns ih =>
      rw [Nat.add_right_comm]
      unfold run at h ⊢
      rw [exec_bind] at h ⊢
      generalize exec (runIteration model cfg (env iters) iters) s = res at h ⊢
      obtain ⟨_ | _ | _, u⟩ := res
      · exact h
      · exact h
      · exact ih h

/-- An event waits for an install at the same time, which comes after it, and is executed then. -/
theorem buffered_run_ends_same_time :
    let start := scheduled sortedEventQueue (fun _ => tenant) bufferingConfig [1] [useAt 5, installAt 5]
    (exec (run (fun _ => tenant) bufferingConfig (fun _ => {}) 1 1) start).2.deferred = [useAt 5] ∧
      ∃ turns, RunEnds bufferingConfig (exec (run (fun _ => tenant) bufferingConfig (fun _ => {}) turns 1) start).1 := by
  intro start
  refine ⟨by decide +kernel, buffered_run_ends tenant_tame bufferingConfig_alone rfl (by decide)
    (fun _ => ⟨rfl, rfl⟩) fun turns t ht => ?_⟩
  have hfew : ∀ n < 3, SparesInstalls bufferingConfig
      (exec (run (fun _ => tenant) bufferingConfig (fun _ => {}) n 1) start).2 := by decide +kernel
  have hends : (exec (run (fun _ => tenant) bufferingConfig (fun _ => {}) 3 1) start).1 = .ok false := by
    decide +kernel
  by_cases hturns : turns < 3
  · have hspares := hfew turns hturns
    rw [ht] at hspares
    exact hspares
  · obtain ⟨more, rfl⟩ := Nat.exists_eq_add_of_le (not_lt.mp hturns)
    have hstays := run_stays hends more
    rw [ht] at hstays
    cases hstays

/-! ## An install that is undone again and again -/

/-- What the kernel holds of the LP `tenant`, its entity, and the events for it. -/
structure Stands (s : Simulation Q Bool) (pending : Multiset Event) (deferred : List (UInt64 × List Event))
    (installed : Bool) (processed : List ProcessedRecord) : Prop where
  alone : Alone s
  pending : Q.elems s.pending = pending
  deferred : s.deferredTargeted = deferred
  installed : (s.ctx 1).lp = installed
  processed : (s.ctx 1).processed = processed

/-- The event for the entity is before the install, waits for it, or has been set free by it. -/
inductive Circles (a b : UInt64) (s : Simulation Q Bool) : Prop where
  | early : Stands s {useAt a, installAt b} [] false [] → (s.ctx 1).vt ≤ (useAt a).ts →
      s.lastGvt ≤ (installAt b).ts → Circles a b s
  | waits : Stands s {installAt b} [((useAt a).deferredKey, [useAt a])] false [] → (s.ctx 1).vt ≤ (useAt a).ts →
      s.lastGvt ≤ (installAt b).ts → Circles a b s
  | free {rec} : Stands s {useAt a} [] true [rec] → rec.ev = installAt b → restoreState tenant [rec] true = false →
      (s.ctx 1).vt = (installAt b).ts → s.lastGvt ≤ (installAt b).ts → Circles a b s

section

variable {a b : UInt64} {s t : Simulation Q Bool} {pending : Multiset Event}
  {deferred : List (UInt64 × List Event)} {installed : Bool} {processed : List ProcessedRecord}

theorem Stands.prepared (h : Stands s pending deferred installed processed)
    (hp : Prepared (fun _ => tenant) s t) : Stands t pending deferred installed processed where
  alone := h.alone.prepared hp
  pending := by rw [hp.pending_eq, h.pending]
  deferred := by
    rw [hp.rest]
    exact h.deferred
  installed := (hp.lp 1 fun _ => rfl).trans h.installed
  processed := by rw [hp.ctx, h.processed]

theorem Stands.collected (h : Stands s pending deferred installed processed) (hc : Collected s t)
    (hprocessed : ∀ rec ∈ processed, t.lastGvt ≤ rec.ev.ts) : Stands t pending deferred installed processed where
  alone := h.alone.collected hc
  pending := by rw [hc.pending, h.pending]
  deferred := hc.deferred.trans h.deferred
  installed := (hc.lp 1).trans h.installed
  processed := by
    rw [hc.survive 1 (by rw [h.processed]; exact hprocessed)]
    exact h.processed

theorem Circles.prepared (h : Circles a b s) (hp : Prepared (fun _ => tenant) s t) : Circles a b t := by
  have hvt : (t.ctx 1).vt = (s.ctx 1).vt := by rw [hp.ctx]
  have hgvt : t.lastGvt = s.lastGvt := by rw [hp.rest]
  cases h with
  | early hs hle hlow => exact .early (hs.prepared hp) (hvt ▸ hle) (hgvt ▸ hlow)
  | waits hs hle hlow => exact .waits (hs.prepared hp) (hvt ▸ hle) (hgvt ▸ hlow)
  | free hs hev hrestore heq hlow => exact .free (hs.prepared hp) hev hrestore (hvt.trans heq) (hgvt ▸ hlow)

/-- GVT does not pass the install, so that its record stays. -/
theorem Circles.collected (hab : (useAt a).ts ≤ (installAt b).ts) (h : Circles a b s) (hc : Collected s t) :
    Circles a b t := by
  have hbound : ∀ pending, Q.elems s.pending = pending → (∃ ev ∈ pending, ev.ts ≤ (installAt b).ts) →
      s.lastGvt ≤ (installAt b).ts → t.lastGvt ≤ (installAt b).ts := by
    rintro _ rfl ⟨ev, hev, hle⟩ hlow
    rcases hc.bound with heq | hall
    · rw [heq]
      exact hlow
    · exact (hall ev hev).trans hle
  cases h with
  | early hs hle hlow =>
      have hlow' := hbound _ hs.pending ⟨useAt a, by simp, hab⟩ hlow
      exact .early (hs.collected hc (by simp)) ((hc.vt 1).symm ▸ hle) hlow'
  | waits hs hle hlow =>
      have hlow' := hbound _ hs.pending ⟨installAt b, by simp, le_rfl⟩ hlow
      exact .waits (hs.collected hc (by simp)) ((hc.vt 1).symm ▸ hle) hlow'
  | @free rec hs hev hrestore heq hlow =>
      have hlow' := hbound _ hs.pending ⟨useAt a, by simp, hab⟩ hlow
      have hstay : ∀ r ∈ [rec], t.lastGvt ≤ r.ev.ts := by
        intro r hr
        rw [List.mem_singleton.mp hr, hev]
        exact hlow'
      exact .free (hs.collected hc hstay) hev hrestore ((hc.vt 1).trans heq) hlow'

theorem front_of_singleton {q : Q.Carrier} {e ev : Event} (h : Q.elems q = {e}) (htop : Q.top? q = some ev) :
    ev = e ∧ Q.elems (Q.pop q) = 0 := by
  obtain ⟨heq, hrest⟩ := (Multiset.singleton_eq_cons_iff _).mp (h.symm.trans (Q.elems_pop q ev htop))
  exact ⟨heq.symm, hrest⟩

/-- The event for the entity finds none, and is put off. -/
theorem Stands.uses (hs : Stands s {useAt a, installAt b} [] false []) (hab : (useAt a).ts < (installAt b).ts)
    (hle : (s.ctx 1).vt ≤ (useAt a).ts) {ev : Event} (htop : Q.top? s.pending = some ev)
    (hd : Dealt (fun _ => tenant) bufferingConfig ev (popped ev s) t) :
    Stands t {installAt b} [((useAt a).deferredKey, [useAt a])] false [] ∧ (t.ctx 1).vt ≤ (useAt a).ts ∧
      t.lastGvt = s.lastGvt := by
  have hfront := Q.elems_pop _ _ htop
  have hev : ev = useAt a := by
    have hmem : ev ∈ Q.elems s.pending := mem_of_top? htop
    rw [hs.pending] at hmem
    rcases Multiset.mem_cons.mp hmem with heq | hmem
    · exact heq
    · have hinstall := Multiset.mem_singleton.mp hmem
      have huse : useAt a ∈ Q.elems s.pending := by
        rw [hs.pending]
        exact Multiset.mem_cons_self _ _
      have hfirst := Event.ts_le_of_sortKey_le (top?_le htop _ huse)
      rw [hinstall] at hfirst
      exact absurd hab (not_lt.mpr hfirst)
  subst hev
  have hrest : Q.elems (Q.pop s.pending) = {installAt b} := by
    have hcons := hfront.symm.trans hs.pending
    exact (Multiset.cons_inj_right _).mp hcons
  have hout : outcomeOf (fun _ => tenant) (useAt a) (popped (useAt a) s) =
      (.error "World: unknown EntityId=7", false) := by
    have hlp : ((popped (useAt a) s).ctx 1).lp = false := hs.installed
    unfold outcomeOf
    change (tenant.onEvent ((popped (useAt a) s).ctx 1).lp (useAt a)).outcome tenant _ = _
    rw [hlp]
    rfl
  have halone := hs.alone.dealt htop hd
  cases hd with
  | executed _ _ hok =>
      rw [hout] at hok
      cases hok
  | putOff _ _ herror =>
      rw [hout] at halone ⊢
      have hctx : (WarpSim.putOff (useAt a) false (popped (useAt a) s)).ctx 1 =
          { s.ctx 1 with lp := false, inEvent := false, currentExecTs := (s.ctx 1).vt } :=
        (congrFun (putOff_ctx ..) 1).trans (Function.update_self ..)
      refine ⟨⟨halone, hrest, ?_, ?_, ?_⟩, ?_, rfl⟩
      · rw [WarpSim.putOff, deferTargetedEvent_eq]
        change Buckets.add _ _ s.deferredTargeted = _
        rw [hs.deferred]
        rfl
      · rw [hctx]
      · rw [hctx]
        exact hs.processed
      · rw [hctx]
        exact hle
  | straggled hlt => exact absurd hlt (not_lt.mpr hle)

/-- The install creates the entity, and sets the event free that waits for it. -/
theorem Stands.installs (hs : Stands s {installAt b} [((useAt a).deferredKey, [useAt a])] false [])
    (hle : (s.ctx 1).vt ≤ (installAt b).ts) {ev : Event} (htop : Q.top? s.pending = some ev)
    (hd : Dealt (fun _ => tenant) bufferingConfig ev (popped ev s) t) :
    (∃ rec, Stands t {useAt a} [] true [rec] ∧ rec.ev = installAt b ∧ restoreState tenant [rec] true = false) ∧
      (t.ctx 1).vt = (installAt b).ts ∧ t.lastGvt = s.lastGvt := by
  obtain ⟨rfl, hrest⟩ := front_of_singleton hs.pending htop
  have hinstalls : Installs bufferingConfig (installAt b) := ⟨rfl, show (7 : EntityId) ≠ 0 by decide, rfl⟩
  have hlp : ((popped (installAt b) s).ctx 1).lp = false := hs.installed
  have hout : outcomeOf (fun _ => tenant) (installAt b) (popped (installAt b) s) =
      (.ok (requestWrite tenant false 7 (newRecord (installAt b) ((popped (installAt b) s).ctx 1))), true) := by
    unfold outcomeOf
    change (tenant.onEvent ((popped (installAt b) s).ctx 1).lp (installAt b)).outcome tenant _ = _
    rw [hlp]
    rfl
  have halone := hs.alone.dealt htop hd
  cases hd with
  | @executed rec hlt hrec hok =>
      rw [hout] at hok halone ⊢
      obtain rfl : _ = rec := Except.ok.inj hok
      rw [WarpSim.executed, if_pos hinstalls] at halone ⊢
      set rec := requestWrite tenant false 7 (newRecord (installAt b) ((popped (installAt b) s).ctx 1)) with hdef
      have hctx : (released (installAt b) (ran (installAt b) rec true (popped (installAt b) s))).ctx 1 =
          { s.ctx 1 with
            lp := true
            vt := (installAt b).ts
            inEvent := false
            currentExecTs := (installAt b).ts
            processed := (s.ctx 1).processed ++ [rec]
            executed := (s.ctx 1).executed ++ [rec] } := by
        rw [released_closed]
        exact (congrFun (ran_ctx (installAt b) rec true (popped (installAt b) s)) 1).trans (Function.update_self ..)
      have hkey : (useAt a).deferredKey = deferredKey (installAt b).dst (installAt b).target := rfl
      refine ⟨⟨rec, ⟨halone, ?_, ?_, ?_, ?_⟩, hrec, rfl⟩, ?_, ?_⟩
      · rw [elems_released]
        change Q.elems (Q.pop s.pending) + ↑(waiting (installAt b) s) = _
        rw [hrest, waiting, hs.deferred, hkey]
        simp
      · rw [released_closed]
        change s.deferredTargeted.filter _ = _
        rw [hs.deferred, hkey]
        simp
      · rw [hctx]
      · rw [hctx]
        exact congrArg (· ++ [rec]) hs.processed
      · rw [hctx]
      · rw [released_closed]
        rfl
  | putOff _ hnot => exact absurd hinstalls hnot
  | straggled hlt => exact absurd hlt (not_lt.mpr hle)

/-- The event that has been set free is a straggler, and undoes the install. -/
theorem Stands.straggles {rec : ProcessedRecord} (hs : Stands s {useAt a} [] true [rec]) (hrec : rec.ev = installAt b)
    (hrestore : restoreState tenant [rec] true = false) (hab : (useAt a).ts < (installAt b).ts)
    (hvt : (s.ctx 1).vt = (installAt b).ts) {ev : Event} (htop : Q.top? s.pending = some ev)
    (hd : Dealt (fun _ => tenant) bufferingConfig ev (popped ev s) t) :
    Stands t {useAt a, installAt b} [] false [] ∧ (t.ctx 1).vt ≤ (useAt a).ts ∧ t.lastGvt = s.lastGvt := by
  obtain ⟨rfl, hrest⟩ := front_of_singleton hs.pending htop
  have hlate : (useAt a).ts < ((popped (useAt a) s).ctx (useAt a).dst).vt := hab.trans_eq hvt.symm
  have hundone : undoneRecords (useAt a).ts (s.ctx 1).processed = [rec] := by
    rw [hs.processed]
    simp [undoneRecords, List.rtakeWhile, hrec, hab.le]
  have hkept : keptRecords (useAt a).ts (s.ctx 1).processed = [] := by
    rw [hs.processed]
    simp [keptRecords, List.rdropWhile, hrec, hab.le]
  have halone := hs.alone.dealt htop hd
  cases hd with
  | executed hlt => exact absurd hlate hlt
  | putOff hlt => exact absurd hlate hlt
  | straggled =>
      have hctx : (WarpSim.straggled (fun _ => tenant) (useAt a) (popped (useAt a) s)).ctx 1 =
          (s.ctx 1).rewind tenant (useAt a).ts := by
        change (unwound (fun _ => tenant) 1 (useAt a).ts (popped (useAt a) s)).ctx 1 = _
        rw [unwound_ctx, Function.update_self]
        rfl
      refine ⟨⟨halone, ?_, ?_, ?_, ?_⟩, ?_, ?_⟩
      · rw [elems_straggled]
        change useAt a ::ₘ (Q.elems (Q.pop s.pending) +
          ((undoneRecords (useAt a).ts (s.ctx 1).processed).map (·.ev) : List Event)) = _
        rw [hrest, hundone, List.map_singleton, hrec]
        simp
      · rw [WarpSim.straggled, unwound_eq]
        exact hs.deferred
      · rw [hctx, rewind_lp, hundone, hs.installed]
        exact hrestore
      · rw [hctx, LPContext.rewind_eq]
        exact hkept
      · rw [hctx, LPContext.rewind_eq]
        exact prevStamp_le _
      · rw [WarpSim.straggled, unwound_eq]
        rfl

/-- The three states follow each other. -/
theorem Circles.turn (hab : (useAt a).ts < (installAt b).ts) (h : Circles a b s)
    (hturn : TurnTo (fun _ => tenant) bufferingConfig s t) : Circles a b t ∧ Q.elems t.pending ≠ 0 := by
  cases h with
  | early hs hle hlow =>
      cases hturn with
      | empty htop => exact absurd (hs.pending.symm.trans (Q.elems_eq_zero_of_top? _ htop)) (Multiset.cons_ne_zero)
      | front htop hd =>
          obtain ⟨ht, hle', hgvt⟩ := hs.uses hab hle htop hd
          exact ⟨.waits ht hle' (hgvt ▸ hlow), ht.pending ▸ Multiset.singleton_ne_zero _⟩
  | waits hs hle hlow =>
      cases hturn with
      | empty htop =>
          exact absurd (hs.pending.symm.trans (Q.elems_eq_zero_of_top? _ htop)) (Multiset.singleton_ne_zero _)
      | front htop hd =>
          obtain ⟨⟨rec, ht, hrec, hrestore⟩, hvt, hgvt⟩ := hs.installs (hle.trans hab.le) htop hd
          exact ⟨.free ht hrec hrestore hvt (hgvt ▸ hlow), ht.pending ▸ Multiset.singleton_ne_zero _⟩
  | free hs hrec hrestore hvt hlow =>
      cases hturn with
      | empty htop =>
          exact absurd (hs.pending.symm.trans (Q.elems_eq_zero_of_top? _ htop)) (Multiset.singleton_ne_zero _)
      | front htop hd =>
          obtain ⟨ht, hle', hgvt⟩ := hs.straggles hrec hrestore hab hvt htop hd
          exact ⟨.early ht hle' (hgvt ▸ hlow), ht.pending ▸ Multiset.cons_ne_zero⟩

theorem Circles.goes_on (hab : (useAt a).ts < (installAt b).ts) {env : ℕ → Environment}
    (henv : ∀ n, (env n).polled = [] ∧ (env n).hasPending = false) (turns iters : ℕ) (h : Circles a b s)
    (halone : Alone s) :
    (exec (run (fun _ => tenant) bufferingConfig env turns iters) s).1 = .ok true := by
  induction turns generalizing s iters with
  | zero => rfl
  | succ turns ih =>
      obtain ⟨s', t, u, hprepared, hturn, hcollected, hu, hexec⟩ :=
        exec_runIteration tenant_tame bufferingConfig_alone rfl (henv iters).1 (henv iters).2 iters halone
      obtain ⟨ht, hmore⟩ := (h.prepared hprepared).turn hab hturn
      rw [← hcollected.pending] at hmore
      rw [if_pos hmore] at hexec
      rw [exec_run_succ env turns iters hexec]
      exact ih (iters + 1) (ht.collected hab.le hcollected) hu

theorem stands_scheduled (Q : EventQueue) (a b : UInt64) :
    Stands (scheduled Q (fun _ => tenant) bufferingConfig [1] [useAt a, installAt b]) {useAt a, installAt b} []
      false [] := by
  refine ⟨(setUp_scheduled _ _ ?_).alone, ?_, rfl, rfl, rfl⟩
  · intro ev hev
    rcases List.mem_pair.mp hev with rfl | rfl
    · exact ⟨rfl, List.mem_singleton_self _⟩
    · exact ⟨rfl, List.mem_singleton_self _⟩
  · change Q.elems (Q.push (Q.push Q.empty (useAt a)) (installAt b)) = _
    rw [Q.elems_push, Q.elems_push, Q.elems_empty]
    exact Multiset.cons_swap ..

end

theorem tenant_contract : SnapshotContract tenant fun _ => True := by
  refine .whole (fun _ => True) rfl (fun _ _ => trivial) (fun a b _ _ => ?_) fun installed ev _ _ => ?_
  · cases b <;> rfl
  · change (if ev.payload.kind = 42002 then Handler.requestWrite installed ev.target (.done true)
      else if ev.target ≠ 0 ∧ installed = false then Handler.throw installed "World: unknown EntityId=7"
      else .done installed).Requests _ _ _ _ _
    split
    · exact ⟨trivial, fun _ _ => rfl, trivial, fun i hi => absurd (List.mem_singleton_self i) hi⟩
    · split
      · exact fun _ _ => rfl
      · exact ⟨trivial, fun _ _ => rfl⟩

/-- The event at 5 waits for the install at 12, is set free by it, and undoes it: the run never ends. -/
theorem buffered_run_goes_on :
    SnapshotContract tenant (fun _ => True) ∧ TameModel bufferingConfig (fun _ => tenant) ∧
      SingleRank bufferingConfig ∧ bufferingConfig.enableInstallBeforeUseBuffering = true ∧
      ¬ ∃ turns, RunEnds bufferingConfig (exec (run (fun _ => tenant) bufferingConfig (fun _ => {}) turns 1)
        (scheduled sortedEventQueue (fun _ => tenant) bufferingConfig [1] [useAt 5, installAt 12])).1 := by
  refine ⟨tenant_contract, tenant_tame, bufferingConfig_alone, rfl, ?_⟩
  rintro ⟨turns, hends⟩
  have hstands := stands_scheduled sortedEventQueue 5 12
  have hcircles : Circles 5 12
      (scheduled sortedEventQueue (fun _ => tenant) bufferingConfig [1] [useAt 5, installAt 12]) :=
    .early hstands (TimeStamp.zero_le _) (TimeStamp.zero_le _)
  have hgoes : (exec (run (fun _ => tenant) bufferingConfig (fun _ => {}) turns 1) _).1 = .ok true :=
    hcircles.goes_on (by decide) (fun _ => ⟨rfl, rfl⟩) turns 1 hstands.alone
  rw [hgoes] at hends
  cases hends

end WarpSim

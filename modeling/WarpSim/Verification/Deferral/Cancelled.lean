import WarpSim.Verification.Stages
import WarpSim.Verification.Deferral.Coverage
import WarpSim.Verification.Deferral.Table

/-! # Deferred events that are cancelled

`cancel_` looks for the event in the queue, by its tombstone, and among the processed records. It does
not look into the deferral table. -/

namespace WarpSim

variable {Q : EventQueue} {σ : Type} {sound final : Prop} {model : Model σ} {cfg : SimulationConfig}

open Prog Simulation

/-- The anti-message cancels exactly this event. -/
structure Event.Cancels (anti ev : Event) : Prop where
  isAnti : anti.isAnti = true
  isPositive : ev.isAnti = false
  src : anti.src = ev.src
  uid : anti.uid = ev.uid
  ts : anti.ts = ev.ts
  dst : anti.dst = ev.dst

instance (anti ev : Event) : Decidable (anti.Cancels ev) :=
  decidable_of_iff (anti.isAnti = true ∧ ev.isAnti = false ∧ anti.src = ev.src ∧ anti.uid = ev.uid ∧
      anti.ts = ev.ts ∧ anti.dst = ev.dst)
    ⟨fun ⟨ha, hp, hs, hu, ht, hd⟩ => ⟨ha, hp, hs, hu, ht, hd⟩,
      fun ⟨ha, hp, hs, hu, ht, hd⟩ => ⟨ha, hp, hs, hu, ht, hd⟩⟩

/-- An anti-message that cancels the event has been dispatched and not undone. -/
def Simulation.Annulled (s : Simulation Q σ) (ev : Event) : Prop :=
  ∃ rec ∈ (s.ctx ev.dst).kept, rec.ev.Cancels ev

instance (s : Simulation Q σ) (ev : Event) : Decidable (s.Annulled ev) :=
  inferInstanceAs (Decidable (∃ rec ∈ _, _))

/-! ## What a move brings about -/

/-- A record that is kept was kept before, or it is of the event that is being dealt with. -/
theorem Move.kept_cases {x y : Situation Q σ} (hm : Move model cfg x y) {i : LPId} {rec : ProcessedRecord}
    (hrec : rec ∈ (y.state.ctx i).kept) :
    rec ∈ (x.state.ctx i).kept ∨ x.activity.hand = some rec.ev := by
  have hadded : ∀ new : ProcessedRecord, (y.state.ctx i).fossils = (x.state.ctx i).fossils →
      (y.state.ctx i).processed = (x.state.ctx i).processed ++ [new] →
      rec ∈ (x.state.ctx i).kept ∨ rec = new := by
    intro new hfossils hprocessed
    rw [LPContext.kept, hfossils, hprocessed, ← List.append_assoc] at hrec
    exact (List.mem_append.mp hrec).imp_right List.mem_singleton.mp
  cases hm.lpStep i with
  | same hsame => exact Or.inl (hsame.books.kept ▸ hrec)
  | registered _ hy =>
      rw [hy] at hrec
      cases hrec
  | finished before ev calls new _ hact hrun hy =>
      rcases hadded new (by simp [hy]) (by simp [hy]) with h | rfl
      · exact Or.inl h
      · rw [hact, hrun.filled.ev]
        exact Or.inr rfl
  | settled new _ hact hy =>
      rcases hadded new (by simp [hy]) (by simp [hy]) with h | rfl
      · exact Or.inl h
      · rw [hact]
        exact Or.inr rfl
  | rewound target hy =>
      rw [hy, LPContext.rewind_eq] at hrec
      refine Or.inl ?_
      rcases List.mem_append.mp hrec with hrec | hrec
      · exact List.mem_append_left _ hrec
      · exact List.mem_append_right _ ((List.rdropWhile_prefix _ _).subset hrec)
  | prepared state _ _ hy => rw [hy] at hrec; exact Or.inl hrec
  | migrated mig _ _ hy => rw [hy] at hrec; exact Or.inl hrec
  | entered ev _ _ hy => rw [hy] at hrec; exact Or.inl hrec
  | stored before ev calls state _ _ _ hy => rw [hy] at hrec; exact Or.inl hrec
  | deferred before ev calls _ _ hy => rw [hy] at hrec; exact Or.inl hrec
  | aborted before ev calls _ _ hy => rw [hy] at hrec; exact Or.inl hrec

/-- A deferred event was deferred before, or it is the one that is being dealt with. -/
theorem Move.deferred_cases {x y : Situation Q σ} (hm : Move model cfg x y) {ev : Event}
    (hev : ev ∈ y.state.deferred) : ev ∈ x.state.deferred ∨ x.activity.hand = some ev := by
  cases hm with
  | quiet hq => rw [hq] at hev; exact Or.inl hev
  | receive => rw [receiveEvent_eq] at hev; exact Or.inl hev
  | acknowledge => rw [receiveAck_eq] at hev; exact Or.inl hev
  | sent => rw [posted_eq] at hev; exact Or.inl hev
  | unlogged => rw [posted_eq] at hev; exact Or.inl hev
  | straggle => rw [unwound_eq] at hev; exact Or.inl hev
  | matched => rw [unwound_eq] at hev; exact Or.inl hev
  | release => exact Or.inl (mem_released_deferred hev)
  | defer =>
      rcases mem_deferTargetedEvent hev with hev | rfl
      · exact Or.inl hev
      · exact Or.inr rfl
  | annul => rw [posted_eq] at hev; exact Or.inl hev
  | _ => exact Or.inl hev

/-- The event that is being dealt with was so before, or it has just been dispatched. -/
theorem Move.hand_cases {x y : Situation Q σ} (hm : Move model cfg x y) {ev : Event}
    (hev : y.activity.hand = some ev) :
    x.activity.hand = some ev ∨
      ∃ d, y.state.hist.dispatched = x.state.hist.dispatched ++ [d] ∧ d.ev = ev := by
  cases hm with
  | quiet => exact Or.inl hev
  | sent => exact Or.inl ((hand_noteCall ..).symm.trans hev)
  | unlogged => exact Or.inl ((hand_noteCall ..).symm.trans hev)
  | refused => exact Or.inl ((hand_noteCall ..).symm.trans hev)
  | pop => exact Or.inr ⟨_, rfl, Option.some.inj hev⟩
  | straggle => exact Or.inl hev
  | enter => exact Or.inl hev
  | store => exact Or.inl hev
  | abort => exact Or.inl hev
  | mark =>
      refine Or.inl (hev ▸ ?_)
      exact congrArg some (antiRecord_ev ..).symm
  | matched => exact Or.inl hev
  | unmatched => exact Or.inl hev
  | annul => exact Or.inl hev
  | _ => cases hev

/-! ## What a step brings about -/

/-- The events dispatched from `s` to `t`. -/
def dispatches (s t : Simulation Q σ) : List Event :=
  (t.hist.dispatched.drop s.hist.dispatched.length).map (·.ev)

/-- What is new since `s` in the table and among the kept records has been dispatched since. -/
structure NewsInv (s : Simulation Q σ) (x : Situation Q σ) : Prop where
  hand : ∀ ev, x.activity.hand = some ev → ev ∈ dispatches s x.state
  deferred : ∀ ev ∈ x.state.deferred, ev ∈ s.deferred ∨ ev ∈ dispatches s x.state
  kept : ∀ i, ∀ rec ∈ (x.state.ctx i).kept, rec ∈ (s.ctx i).kept ∨ rec.ev ∈ dispatches s x.state

theorem dispatches_mono {s t t' : Simulation Q σ} (h : s.hist.Extends t.hist) (h' : t.hist.Extends t'.hist) :
    dispatches s t ⊆ dispatches s t' := by
  obtain ⟨m, hm⟩ := h.dispatched
  obtain ⟨m', hm'⟩ := h'.dispatched
  intro ev hev
  rw [dispatches, ← hm, List.drop_left] at hev
  rw [dispatches, ← hm', ← hm, List.append_assoc, List.drop_left, List.map_append]
  exact List.mem_append_left _ hev

theorem Move.newsInv {s : Simulation Q σ} {x y : Situation Q σ} (hm : Move model cfg x y)
    (hsx : s.hist.Extends x.state.hist) (h : NewsInv s x) : NewsInv s y := by
  have hmono : dispatches s x.state ⊆ dispatches s y.state := dispatches_mono hsx hm.extends
  refine ⟨fun ev hev => ?_, fun ev hev => ?_, fun i rec hrec => ?_⟩
  · rcases hm.hand_cases hev with hev | ⟨d, hd, rfl⟩
    · exact hmono (h.hand ev hev)
    · obtain ⟨m, hm⟩ := hsx.dispatched
      rw [dispatches, hd, ← hm, List.append_assoc, List.drop_left]
      simp
  · rcases hm.deferred_cases hev with hev | hev
    · exact (h.deferred ev hev).imp_right fun h => hmono h
    · exact Or.inr (hmono (h.hand ev hev))
  · rcases hm.kept_cases hrec with hrec | hrec
    · exact (h.kept i rec hrec).imp_right fun h => hmono h
    · exact Or.inr (hmono (h.hand _ hrec))

theorem GvtMove.newsInv {s : Simulation Q σ} {x y : Situation Q σ} (hm : GvtMove sound final cfg x y)
    (hsx : s.hist.Extends x.state.hist) (h : NewsInv s x) : NewsInv s y := by
  have hmono : dispatches s x.state ⊆ dispatches s y.state := dispatches_mono hsx hm.extends
  refine ⟨fun ev hev => ?_, fun ev hev => ?_, fun i rec hrec => ?_⟩
  · rw [hm.activity_eq] at hev
    cases hev
  · refine (h.deferred ev ?_).imp_right fun h => hmono h
    cases hm <;> exact hev
  · refine (h.kept i rec ?_).imp_right fun h => hmono h
    rcases hm.ctx_cases i with hctx | ⟨gvt, hctx⟩
    · rwa [hctx] at hrec
    · rwa [hctx, kept_prune] at hrec

theorem AllMoves.newsInv {s : Simulation Q σ} {y : Situation Q σ}
    (h : AllMoves sound final model cfg s.atRest y) : NewsInv s y := by
  induction h with
  | refl => exact ⟨nofun, fun _ hev => Or.inl hev, fun _ _ hrec => Or.inl hrec⟩
  | tail hmoves hm ih =>
      have hsx := AllMoves.extends hmoves
      exact hm.elim (fun hm => hm.newsInv hsx ih) fun hm => hm.newsInv hsx ih

/-! ## Runs -/

variable (model cfg) in
/-- The step dispatches no anti-message of a deferred event, and it defers no event whose
anti-message is in effect. -/
structure SparesDeferred (s : Simulation Q σ) (op : HostOp) : Prop where
  anti : ∀ d ∈ dispatchedBy model cfg op s, ∀ ev ∈ s.deferred, ¬ d.ev.Cancels ev
  deferred : ∀ d ∈ dispatchedBy model cfg op s,
    d.ev ∈ (exec (hostOp model cfg op) s).2.deferred → ¬ s.Annulled d.ev

variable (model cfg) in
/-- One step dispatches one event at most. -/
theorem dispatchedBy_subsingleton {s : Simulation Q σ} (op : HostOp) (hs : BaseInv s.atRest)
    {d d' : Dispatch} (hd : d ∈ dispatchedBy model cfg op s) (hd' : d' ∈ dispatchedBy model cfg op s) :
    d = d' := by
  obtain ⟨u, v, hst⟩ := hostOp_staged op hs
  obtain ⟨htv, hus, hvu⟩ := hst.dispatched_cases
  rw [dispatchedBy, htv] at hd hd'
  rcases hvu with hvu | ⟨d₀, hvu⟩
  · rw [hvu, hus, List.drop_length] at hd
    cases hd
  · rw [hvu, hus, List.drop_left, List.mem_singleton] at hd hd'
    rw [hd, hd']

/-- No deferred event has been cancelled. -/
theorem Reachable.none_annulled {s : Simulation Q σ}
    (h : Reachable model cfg (SparesDeferred model cfg) s) : ∀ ev ∈ s.deferred, ¬ s.Annulled ev := by
  induction h with
  | create => exact fun ev hev => nomatch hev
  | @step s op hs hop ih =>
      have hmoves : AllMoves False True model cfg s.atRest (exec (hostOp model cfg op) s).2.atRest :=
        hostOp_moves op hs.baseInv fun h => h.elim
      have hnews := AllMoves.newsInv hmoves
      rintro ev hev ⟨rec, hrec, hcancels⟩
      rcases hnews.kept _ rec hrec with hkept | hnew
      · rcases hnews.deferred ev hev with hold | hnew'
        · exact ih ev hold ⟨rec, hkept, hcancels⟩
        · obtain ⟨d, hd, rfl⟩ := List.mem_map.mp hnew'
          exact hop.deferred d hd hev ⟨rec, hkept, hcancels⟩
      · obtain ⟨d, hd, hdrec⟩ := List.mem_map.mp hnew
        rcases hnews.deferred ev hev with hold | hnew'
        · exact hop.anti d hd ev hold (hdrec ▸ hcancels)
        · -- the two would be one event
          obtain ⟨d', hd', rfl⟩ := List.mem_map.mp hnew'
          have heq : d = d' := dispatchedBy_subsingleton model cfg op hs.baseInv hd hd'
          have hanti := hcancels.isAnti
          rw [← hdrec, heq, hcancels.isPositive] at hanti
          cases hanti

/-! ## The error at the end of a run -/

/-- The text of the error for what is still deferred when a run ends. -/
def pendingError : String :=
  "Install-before-use buffering: simulation ended with deferred targeted events still pending (missing install?)"

/-- A turn of the loop of `run` up to the test whether there is work left. -/
def loopBody (model : Model σ) (cfg : SimulationConfig) (env : Environment) (iters : ℕ) :
    KernelM Q σ Unit := do
  startIfNeeded model cfg
  pollTransport model cfg env.polled
  let _ ← dispatchNext model cfg
  fossilCollect model cfg env (iters % cfg.period == 0)

/-- The turn deals with its event, and then the run ends with the error for what is still deferred. -/
structure FailsForDeferred (model : Model σ) (cfg : SimulationConfig) (env : Environment) (iters : ℕ)
    (s t : Simulation Q σ) : Prop where
  body : (exec (loopBody model cfg env iters) s).1 = .ok ()
  thrown : exec (runIteration model cfg env iters) s = (.error pendingError, t)

theorem applyMigrations_error (queue : List Migration) {s : Simulation Q σ} {what : String}
    (h : (exec (applyMigrations model queue) s).1 = .error what) : what = "Unknown LPId" := by
  induction queue generalizing s with
  | nil => cases h
  | cons mig rest ih =>
      unfold applyMigrations at h
      rw [exec_get_bind, exec_ite] at h
      split at h
      · cases h
      · rw [exec_modify_bind, exec_lookupCtx_bind] at h
        split at h
        · simp only [exec_modify_bind] at h
          exact ih h
        · exact (Except.error.inj h).symm

/-- The end of a run fails with this error only if something is deferred. -/
theorem finalizeAtEnd_pending {env : Environment} {s t : Simulation Q σ}
    (h : exec (finalizeAtEnd model cfg env) s = (.error pendingError, t)) : t.deferredTargeted ≠ [] := by
  unfold finalizeAtEnd at h
  rw [exec_modify_bind, exec_bind] at h
  split at h
  case h_2 what s' hmig =>
      have hwhat := applyMigrations_error _ (congrArg Prod.fst hmig)
      rw [hwhat] at h
      have htext : "Unknown LPId" = pendingError := Except.error.inj (congrArg Prod.fst h)
      exact absurd htext (by decide)
  case h_1 u hmig =>
      rw [exec_get_bind, exec_ite] at h
      split at h
      · have htext : "Determinism oracle failed: digest mismatch" = pendingError :=
          Except.error.inj (congrArg Prod.fst h)
        exact absurd htext (by decide)
      · rw [exec_ite] at h
        split at h
        next hpending =>
          have hsame : u = t := congrArg Prod.snd h
          exact hsame ▸ hpending.2
        next => cases congrArg Prod.fst h

theorem FailsForDeferred.pending {env : Environment} {iters : ℕ} {s t : Simulation Q σ}
    (h : FailsForDeferred model cfg env iters s t) : t.deferredTargeted ≠ [] := by
  obtain ⟨hbody, hthrown⟩ := h
  obtain ⟨_, s₁, hstart, hbody⟩ := exec_bind_ok hbody
  obtain ⟨_, s₂, hpoll, hbody⟩ := exec_bind_ok hbody
  obtain ⟨_, s₃, hnext, hbody⟩ := exec_bind_ok hbody
  obtain ⟨u, hfossil⟩ : ∃ u, exec (fossilCollect model cfg env (iters % cfg.period == 0)) s₃ = (.ok (), u) :=
    ⟨_, Prod.ext hbody rfl⟩
  unfold runIteration at hthrown
  rw [exec_bind_of_ok hstart, exec_bind_of_ok hpoll, exec_bind_of_ok hnext, exec_bind_of_ok hfossil,
    exec_get_bind] at hthrown
  have hend : exec (finalizeAtEnd model cfg env >>= fun _ => pure false) u = (.error pendingError, t) := by
    revert hthrown
    simp only [exec_ite]
    split
    · split
      · exact fun hthrown => nomatch congrArg Prod.fst hthrown
      · exact id
    · split
      · exact fun hthrown => nomatch congrArg Prod.fst hthrown
      · exact id
  rw [exec_bind] at hend
  split at hend
  · cases congrArg Prod.fst hend
  · rename_i hend'
    cases hend
    exact finalizeAtEnd_pending hend'

/-- While the steps spare the deferred events, no deferred event has been cancelled, and the error at the
end of a run is about an event that nothing has cancelled. -/
theorem deferred_error_genuine {s : Simulation Q σ} (h : Reachable model cfg (SparesDeferred model cfg) s) :
    (∀ ev ∈ s.deferred, ¬ s.Annulled ev) ∧
      ∀ env iters t, SparesDeferred model cfg s (.runIteration env iters) →
        FailsForDeferred model cfg env iters s t → ∃ ev ∈ t.deferred, ¬ t.Annulled ev := by
  refine ⟨h.none_annulled, fun env iters t hop hfails => ?_⟩
  have hlast : (exec (hostOp model cfg (.runIteration env iters)) s).2 = t := by
    have hthrown := hfails.thrown
    unfold hostOp
    rw [exec_bind_pure_state, hthrown]
  have ht : Reachable model cfg (SparesDeferred model cfg) t := hlast ▸ h.step hop
  have hne : t.deferred ≠ [] := fun hnil =>
    hfails.pending (ht.built.filed.elements_eq_nil_iff.mp hnil)
  obtain ⟨ev, hev⟩ := List.exists_mem_of_ne_nil _ hne
  exact ⟨ev, hev, ht.none_annulled ev hev⟩

/-- The event for an entity that is never installed. -/
theorem deferred_error_genuine_tenant :
    ∃ ev ∈ (exec (runIteration (fun _ => tenant) bufferingConfig {} 0) (tenantRun [useAt 5] 0)).2.deferred,
      ¬ (exec (runIteration (fun _ => tenant) bufferingConfig {} 0) (tenantRun [useAt 5] 0)).2.Annulled ev := by
  have hreachable : Reachable (fun _ => tenant) bufferingConfig
      (SparesDeferred (fun _ => tenant) bufferingConfig) (tenantRun [useAt 5] 0) :=
    Reachable.hostRun .create ⟨⟨by decide +kernel, by decide +kernel⟩, ⟨by decide +kernel, by decide +kernel⟩,
      trivial⟩
  exact (deferred_error_genuine hreachable).2 {} 0 _ ⟨by decide +kernel, by decide +kernel⟩
    ⟨by decide +kernel, Prod.ext (by decide +kernel) rfl⟩

/-- An LP that passes a use of the entity on to the LP 1 unless it has been told to stop. -/
def passer : LogicalProcess Bool where
  init := false
  onEvent stopped ev :=
    if ev.payload.kind = 7 then .requestWrite stopped 0 (.done true)
    else if stopped then .done stopped
    else .send { ts := ⟨ev.ts.time + 2, 1⟩, src := 2, dst := 1, target := 7 } fun _ => .done stopped
  saveState stopped := [if stopped then 1 else 0]
  loadState _ bytes := bytes = [1]

def passerModel : Model Bool := fun id => if id = 2 then passer else tenant

/-- The use that the LP 2 has passed on at 10 is deferred at the LP 1. An event at 5 stops the LP 2, and its
rollback cancels the use. -/
def passerRun : Simulation sortedEventQueue Bool :=
  hostRun passerModel bufferingConfig
    [.addLp 1, .addLp 2, .schedule { ts := ⟨10, 1⟩, src := 9, dst := 2, uid := 1 }, .runOne {} false,
      .runOne {} false,
      .schedule { ts := ⟨5, 1⟩, src := 9, dst := 2, uid := 2, payload := { kind := 7 } },
      .runIteration {} 1, .runIteration {} 2, .runIteration {} 3]
    (Simulation.create _ passerModel)

/-- The run ends with the error although its one deferred event has been cancelled. -/
theorem cancelled_deferred_fails :
    Reachable passerModel bufferingConfig (fun _ _ => True) passerRun ∧
      FailsForDeferred passerModel bufferingConfig {} 4 passerRun
        (exec (runIteration passerModel bufferingConfig {} 4) passerRun).2 ∧
      ∀ ev ∈ (exec (runIteration passerModel bufferingConfig {} 4) passerRun).2.deferred,
        (exec (runIteration passerModel bufferingConfig {} 4) passerRun).2.Annulled ev := by
  refine ⟨Reachable.hostRun .create (obeys_true _ _), ⟨?_, Prod.ext ?_ rfl⟩, ?_⟩
  all_goals decide +kernel

end WarpSim

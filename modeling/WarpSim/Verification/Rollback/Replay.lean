import WarpSim.Verification.Conservation
import WarpSim.Verification.Digest
import WarpSim.Verification.Resting
import WarpSim.Verification.Rollback.Restoring

/-! # Every LP is where its records have led it

Stragglers and anti-messages undo what an LP has executed too early. Whatever the order in which events
arrive, the state of the LP is the one that its handlers, run one after the other on the records in place,
have led to. -/

namespace WarpSim

variable {Q : EventQueue} {σ : Type} {model : Model σ} {cfg : SimulationConfig}

open Prog Simulation

/-! ## Running the records one after the other -/

/-- An anti-message does nothing to the state, and any other event is handled. -/
inductive Replays (lp : LogicalProcess σ) (rec : ProcessedRecord) (y z : σ) : Prop where
  | anti : rec.ev.isAnti = true → z = y → Replays lp rec y z
  | handled (c : LPContext σ) (calls) : rec.ev.isAnti = false →
      Handler.Run lp (lp.onEvent y rec.ev) (newRecord rec.ev c) calls z rec → Replays lp rec y z

/-! ## Where the state comes from -/

/-- A send is noted among the sends. -/
theorem send_hist (cfg : SimulationConfig) (cause : SendCause) (asked : Event) (s : Simulation Q σ) :
    ∃ more w, (exec (send cause cfg asked) s).2.hist =
      { s.hist with sends := s.hist.sends ++ more, wrapped := w } := by
  have hvalid := quiet_validate cfg s
  have hout := send_outcome cfg cause asked s
  generalize validateInvariants cfg s = t at hvalid hout
  generalize exec (send cause cfg asked) s = res at hout ⊢
  obtain ⟨r, s'⟩ := res
  dsimp only at hout ⊢
  cases hout with
  | sent _ _ hquiet =>
      rw [hquiet, posted_eq, hvalid]
      exact ⟨_, _, rfl⟩
  | unlogged _ _ _ hquiet =>
      rw [hquiet, posted_eq, hvalid]
      exact ⟨_, _, rfl⟩
  | refused _ _ hquiet =>
      rw [hquiet, hvalid]
      exact ⟨[], _, by rw [List.append_nil]; rfl⟩

/-- A migration has been applied at the LP. -/
def MigrationStep.Into (i : LPId) : MigrationStep → Prop
  | .arrived _ => False
  | .applied mig _ _ => mig.newOwner = i

instance (i : LPId) : DecidablePred (MigrationStep.Into i)
  | .arrived _ => isFalse id
  | .applied mig _ _ => inferInstanceAs (Decidable (mig.newOwner = i))

/-- The LP is in the state, or a migration has been applied at it. -/
def Rests (i : LPId) (state : σ) (s : Simulation Q σ) : Prop :=
  (∃ step ∈ s.hist.migrations, step.Into i) ∨ (s.ctx i).lp = state

theorem Rests.keep {i : LPId} {state : σ} {s s' : Simulation Q σ} (h : Rests i state s)
    (hlp : (s'.ctx i).lp = (s.ctx i).lp) (hmig : s'.hist.migrations = s.hist.migrations) : Rests i state s' :=
  h.imp (fun h => hmig ▸ h) fun h => hlp.trans h

theorem rests_pruneToGvt (cfg : SimulationConfig) {i : LPId} {state : σ} {s : Simulation Q σ} (gvt : TimeStamp) (h : Rests i state s) :
    Rests i state (pruneToGvt cfg gvt s) :=
  h.keep (prune_proj cfg (·.lp) (fun _ _ => rfl) gvt s i) rfl

theorem restClosed_rests (i : LPId) (state : σ) : RestClosed model cfg (Rests (Q := Q) i state) where
  quiet hq h := by
    rw [hq]
    exact h
  receive srcRank ev h := by
    rw [receiveEvent_eq]
    exact h
  acknowledge key h := by
    rw [receiveAck_eq]
    exact h
  arrive mig h := by
    refine h.imp (fun ⟨step, hstep, hinto⟩ => ⟨step, List.mem_append_left _ hstep, hinto⟩) fun h => h
  migrate {s mig rest} _ h := by
    by_cases hi : i = mig.newOwner
    · exact Or.inl ⟨_, List.mem_append_right _ (List.mem_singleton_self _), hi.symm⟩
    · refine h.imp (fun ⟨step, hstep, hinto⟩ => ⟨step, List.mem_append_left _ hstep, hinto⟩) fun h => ?_
      exact (congrArg LPContext.lp (setLp_of_ne { s with pendingMigrations := rest } _ hi)).trans h
  misplace _ h := h
  notify {s} asked _ h := by
    obtain ⟨more, w, hhist⟩ := send_hist cfg .notification asked s
    exact h.keep ((send_frame cfg .notification asked s).work i).lp (by rw [hhist])
  peek h := h
  advance _ h := rests_pruneToGvt cfg _ h
  prune h := rests_pruneToGvt cfg _ h
  flip h := h
  reset h := h
  finish h := rests_pruneToGvt cfg maxStamp h

/-! ## Starting -/

theorem setLp_ctx_lp (id i : LPId) (state : σ) (s : Simulation Q σ) :
    ((setLp id state s).ctx i).lp = if i = id then state else (s.ctx i).lp := by
  split
  · next hi => rw [hi, setLp_self]
  · next hi => rw [setLp_of_ne s state hi]

theorem runStarter_lp (cfg : SimulationConfig) (id i : LPId) (starter : Starter σ) (s : Simulation Q σ) :
    if i = id then starter.Ends ((exec (runStarter cfg id starter) s).2.ctx i).lp
    else ((exec (runStarter cfg id starter) s).2.ctx i).lp = (s.ctx i).lp := by
  induction starter generalizing s with
  | done state =>
      change if i = id then Starter.Ends _ ((setLp id state s).ctx i).lp else ((setLp id state s).ctx i).lp = _
      rw [setLp_ctx_lp]
      split
      · exact .done state
      · rfl
  | throw state what =>
      change if i = id then Starter.Ends _ ((setLp id state s).ctx i).lp else ((setLp id state s).ctx i).lp = _
      rw [setLp_ctx_lp]
      split
      · exact .throw state what
      · rfl
  | send asked next ih =>
      have hsend := (send_frame cfg (.start id) asked s).work i
      unfold runStarter
      rw [exec_observe_bind]
      generalize exec (send (.start id) cfg asked) s = res at hsend ⊢
      obtain ⟨r, t⟩ := res
      have hnext := ih (exceptionOf r) t
      by_cases hi : i = id
      · rw [if_pos hi] at hnext ⊢
        exact .send _ hnext
      · rw [if_neg hi] at hnext ⊢
        exact hnext.trans hsend.lp

/-- `on_start` is run once at most at every LP. -/
theorem startAll_lp (model : Model σ) (cfg : SimulationConfig) {ids : List LPId} (hids : ids.Nodup) (i : LPId)
    (s : Simulation Q σ) : ((exec (startAll model cfg ids) s).2.ctx i).lp = (s.ctx i).lp ∨
      i ∈ ids ∧ ((model i).onStart (s.ctx i).lp).Ends ((exec (startAll model cfg ids) s).2.ctx i).lp := by
  induction ids generalizing s with
  | nil => exact Or.inl rfl
  | cons id ids ih =>
      obtain ⟨hid, hrest⟩ := List.nodup_cons.mp hids
      have hone := runStarter_lp cfg id i ((model id).onStart (s.ctx id).lp) s
      unfold startAll
      rw [exec_get_bind, exec_bind]
      generalize exec (runStarter cfg id _) s = res at hone ⊢
      obtain ⟨what | _, t⟩ := res
      · by_cases hi : i = id
        · rw [if_pos hi] at hone
          exact Or.inr ⟨hi ▸ List.mem_cons_self, hi ▸ hone⟩
        · rw [if_neg hi] at hone
          exact Or.inl hone
      · have hrest := ih hrest t
        by_cases hi : i = id
        · rw [if_pos hi] at hone
          have hlp := hrest.resolve_right fun h => hid (hi ▸ h.1)
          refine Or.inr ⟨hi ▸ List.mem_cons_self, ?_⟩
          dsimp only
          rw [hlp]
          exact hi ▸ hone
        · rw [if_neg hi] at hone
          rcases hrest with hsame | ⟨hmem, hends⟩
          · exact Or.inl (hsame.trans hone)
          · exact Or.inr ⟨List.mem_cons_of_mem _ hmem, hone ▸ hends⟩

/-! ## What the records have led to -/

section

variable {lp : LogicalProcess σ} {ι β : Type} [DecidableEq ι] {mode : SnapshotMode lp ι β}

/-- The record leads from one state to another, and takes the LP back. -/
def SnapshotMode.Leads (mode : SnapshotMode lp ι β) (rec : ProcessedRecord) (y z : σ) : Prop :=
  Replays lp rec y z ∧ mode.Undoes rec y z

/-- The records in place have led the LP to its state. -/
def SnapshotMode.Led (mode : SnapshotMode lp ι β) (c : LPContext σ) : Prop :=
  ∃ start, lp.Begins start ∧ mode.parts.Valid start ∧ Trail mode.Leads start c.kept c.lp

variable {c c' : LPContext σ}

theorem SnapshotMode.Led.valid (h : mode.Led c) : mode.parts.Valid c.lp := by
  obtain ⟨start, -, hvalid, htrail⟩ := h
  exact htrail.preserves (fun _ _ _ hr => hr.2.valid) hvalid

theorem SnapshotMode.Led.keep (h : mode.Led c) (hkept : c'.kept = c.kept) (hlp : c'.lp = c.lp) : mode.Led c' := by
  obtain ⟨start, hstart, hvalid, htrail⟩ := h
  exact ⟨start, hstart, hvalid, by rwa [hkept, hlp]⟩

theorem SnapshotMode.Led.push (h : mode.Led c) (rec : ProcessedRecord) (hrec : mode.Leads rec c.lp c'.lp)
    (hkept : c'.kept = c.kept ++ [rec]) : mode.Led c' := by
  obtain ⟨start, hstart, hvalid, htrail⟩ := h
  refine ⟨start, hstart, hvalid, ?_⟩
  rw [hkept]
  exact htrail.snoc hrec

/-- A rollback takes the LP back to where it was before the records it undoes, and so it does if it
restores the entities in another order. -/
theorem SnapshotMode.Led.before (h : mode.Led c) (target : TimeStamp) :
    ∃ start y, lp.Begins start ∧ mode.parts.Valid start ∧
      Trail mode.Leads start (c.fossils ++ keptRecords target c.processed) y ∧
      Trail mode.Leads y (undoneRecords target c.processed) c.lp ∧
        ∀ records, List.Forall₂ Shuffled (undoneRecords target c.processed) records →
          restoreState lp records c.lp = y := by
  obtain ⟨start, hstart, hvalid, htrail⟩ := h
  have hall : c.kept = c.fossils ++ keptRecords target c.processed ++ undoneRecords target c.processed := by
    rw [List.append_assoc, keptRecords_append_undoneRecords]
    rfl
  rw [hall, Trail.append_iff] at htrail
  obtain ⟨y, hkept, hundone⟩ := htrail
  have hy : mode.parts.Valid y := hkept.preserves (fun _ _ _ hr => hr.2.valid) hvalid
  exact ⟨start, y, hstart, hvalid, hkept, hundone, fun records =>
    restoreState_shuffled (hundone.mono fun _ _ _ hr => hr.2) hy⟩

theorem shuffled_refl (records : List ProcessedRecord) : List.Forall₂ Shuffled records records :=
  List.forall₂_same.mpr fun rec _ => ⟨rec.preEntityState, .refl _, rfl⟩

theorem SnapshotMode.Led.rewind (h : mode.Led c) (target : TimeStamp) : mode.Led (c.rewind lp target) := by
  obtain ⟨start, y, hstart, hvalid, hkept, -, hrestore⟩ := h.before target
  refine ⟨start, hstart, hvalid, ?_⟩
  rw [rewind_lp, hrestore _ (shuffled_refl _), LPContext.rewind_eq]
  exact hkept

end

/-! ## Runs -/

section

variable {i : LPId} {ι β : Type} [DecidableEq ι] {mode : SnapshotMode (model i) ι β} {Admits : Event → Prop}
  {P : LPContext σ → Prop}

theorem SnapshotMode.filling_newRecord (mode : SnapshotMode (model i) ι β) (ev : Event) (c : LPContext σ)
    (start : σ) : mode.Filling start [] (newRecord ev c) := by
  obtain ⟨hlog, hfits⟩ := mode.empty (newRecord ev c) rfl rfl
  exact ⟨hfits, by simp [hlog], by simp [hlog]⟩

theorem SnapshotMode.leads_antiRecord (mode : SnapshotMode (model i) ι β) {ev : Event} (hanti : ev.isAnti = true)
    (s : Simulation Q σ) (y : σ) : mode.Leads (antiRecord ev s) y y := by
  have hempty : (antiRecord ev s).hasLpSnapshot = false ∧ (antiRecord ev s).preEntityState = [] := by
    unfold antiRecord
    split <;> exact ⟨rfl, rfl⟩
  obtain ⟨hlog, hfits⟩ := mode.empty _ hempty.1 hempty.2
  refine ⟨.anti ?_ rfl, hfits, ?_, fun hvalid => hvalid⟩
  · rw [(antiRecord_fits ev s).1]
    exact hanti
  · rw [hlog]
    exact .refl y

/-- What a dispatch does to the records and the state of an LP. -/
inductive SnapshotMode.Dispatched (mode : SnapshotMode (model i) ι β) (c c' : LPContext σ) : Prop where
  | stays : c'.kept = c.kept → c'.undone = c.undone → c'.executed = c.executed → c'.lp = c.lp → mode.Dispatched c c'
  | rewinds (target) : SameWork (c.rewind (model i) target) c' → mode.Dispatched c c'
  | handles (rec) : rec.ev.isAnti = false → mode.Leads rec c.lp c'.lp → c'.kept = c.kept ++ [rec] →
      c'.undone = c.undone → c'.executed = c.executed ++ [rec] → mode.Dispatched c c'
  /-- The LP may have been rolled back for the anti-message before. -/
  | annuls (rec) (b : LPContext σ) : (SameWork c b ∨ ∃ target, SameWork (c.rewind (model i) target) b) →
      rec.ev.isAnti = true → mode.Leads rec b.lp c'.lp → c'.lp = b.lp → c'.kept = b.kept ++ [rec] →
      c'.undone = b.undone → c'.executed = b.executed ++ [rec] → mode.Dispatched c c'

theorem SnapshotMode.Dispatched.same (mode : SnapshotMode (model i) ι β) {c c' : LPContext σ} (h : SameWork c c') :
    mode.Dispatched c c' :=
  .stays h.books.kept h.undone h.executed h.lp

theorem RolledBack.work_or {id : LPId} {target : TimeStamp} {s t : Simulation Q σ} {more : List SendRecord}
    (hback : RolledBack model cfg id target s t more) (i : LPId) :
    SameWork (s.ctx i) (t.ctx i) ∨ ∃ target, SameWork ((s.ctx i).rewind (model i) target) (t.ctx i) := by
  by_cases hi : i = id
  · subst hi
    exact Or.inr ⟨target, hback.work⟩
  · rw [hback.others i hi]
    exact Or.inl (.refl _)

/-- The dispatch of an event. -/
theorem DispatchStep.dispatched {ev : Event} {s t : Simulation Q σ} (hstep : DispatchStep model cfg ev s t)
    (hkeeps : mode.Kept Admits) (hadmits : ev.dst = i → Admits ev)
    (hthrows : ∀ state ev, ((model i).onEvent state ev).ThrowsUnchanged state)
    (hvalid : mode.parts.Valid (s.ctx i).lp) : mode.Dispatched (s.ctx i) (t.ctx i) := by
  cases hstep with
  | nothing hsame => exact .same mode (hsame.ctx ▸ .refl _)
  | straggler u v more _ _ hu hback hv =>
      rw [hv.ctx]
      rcases hback.work_or i with hwork | ⟨target, hwork⟩
      · exact .same mode (hu.ctx ▸ hwork)
      · exact .rewinds target (hu.ctx ▸ hwork)
  | annulled u v more hanti _ _ hu hcancel hv =>
      have hbefore : SameWork (s.ctx i) (v.ctx i) ∨
          ∃ target, SameWork ((s.ctx i).rewind (model i) target) (v.ctx i) := by
        cases hcancel with
        | pending _ hsame =>
            rw [hsame.ctx, hu.ctx]
            exact Or.inl (.refl _)
        | processed r _ hback => exact hu.ctx ▸ hback.work_or i
      rw [hv.ctx, pushProcessed]
      by_cases hi : i = ev.dst
      · subst hi
        rw [modifyCtx_self, modifyCtx_self]
        refine .annuls (antiRecord ev u) (v.ctx ev.dst) hbefore ?_ (mode.leads_antiRecord hanti u _) rfl ?_ rfl rfl
        · rw [(antiRecord_fits ev u).1]
          exact hanti
        · simp [LPContext.kept]
      · rw [modifyCtx_of_ne _ _ hi, modifyCtx_of_ne _ _ hi]
        rcases hbefore with hwork | ⟨target, hwork⟩
        · exact .same mode hwork
        · exact .rewinds target hwork
  | executed u w rec hanti _ _ hu hrun hw =>
      have hsame := runHandler_same model cfg ev.dst ((model ev.dst).onEvent (u.ctx ev.dst).lp ev)
        (newRecord ev (u.ctx ev.dst)) (entered ev u)
      rw [hrun] at hsame
      rw [hw.ctx, pushProcessed]
      by_cases hi : i = ev.dst
      · subst hi
        rw [← hu.ctx] at hvalid
        have hexit := runHandler_undoes cfg ev.dst mode (u.ctx ev.dst).lp _ (hkeeps.asks _ ev hvalid (hadmits rfl))
          (mode.filling_newRecord ev (u.ctx ev.dst) _) (entered ev u)
        rw [hrun] at hexit
        obtain ⟨hundoes, calls, hcalls⟩ := hexit
        have hev : rec.ev = ev := hcalls.filled.ev
        have hself := hsame.self
        rw [entered_self, hu.ctx] at hself
        have hkept : (w.ctx ev.dst).kept = (s.ctx ev.dst).kept := hself.books.kept
        rw [modifyCtx_self, left_self]
        refine .handles rec (hev ▸ hanti) ⟨.handled (u.ctx ev.dst) calls (hev ▸ hanti) ?_, ?_⟩ ?_ hself.undone ?_
        · rw [hev, ← hu.ctx]
          exact hcalls
        · rw [← hu.ctx]
          exact hundoes
        · rw [← hkept]
          simp [LPContext.kept]
        · exact congrArg (· ++ [rec]) hself.executed
      · have hother := hsame.others i hi
        rw [modifyCtx_of_ne _ _ hi, left_of_ne w hi]
        rw [entered_of_ne u hi, hu.ctx] at hother
        exact .same mode hother
  | thrown u w what vt execTs hanti _ _ hu hrun hw =>
      have hsame := runHandler_same model cfg ev.dst ((model ev.dst).onEvent (u.ctx ev.dst).lp ev)
        (newRecord ev (u.ctx ev.dst)) (entered ev u)
      rw [hrun] at hsame
      rw [hw.ctx]
      by_cases hi : i = ev.dst
      · subst hi
        rw [← hu.ctx] at hvalid
        have hexit := runHandler_undoes cfg ev.dst mode (u.ctx ev.dst).lp _ (hkeeps.asks _ ev hvalid (hadmits rfl))
          (mode.filling_newRecord ev (u.ctx ev.dst) _) (entered ev u)
        rw [hrun] at hexit
        have hself := hsame.self
        rw [entered_self, hu.ctx] at hself
        have hkept : (w.ctx ev.dst).kept = (s.ctx ev.dst).kept := hself.books.kept
        rw [modifyCtx_self, left_self]
        refine .stays hkept hself.undone hself.executed ?_
        rw [← hu.ctx]
        exact hexit (hthrows _ _)
      · have hother := hsame.others i hi
        rw [modifyCtx_of_ne _ _ hi, left_of_ne w hi]
        rw [entered_of_ne u hi, hu.ctx] at hother
        exact .same mode hother

/-- A property of an LP that its records and its state carry along together. -/
structure SnapshotMode.Carries (mode : SnapshotMode (model i) ι β) (P : LPContext σ → Prop) : Prop where
  led : ∀ {c}, P c → mode.Led c
  keep : ∀ {c c'}, P c → c'.kept = c.kept → c'.undone = c.undone → c'.lp = c.lp → P c'
  push : ∀ {c c'} rec, P c → mode.Leads rec c.lp c'.lp → c'.kept = c.kept ++ [rec] → c'.undone = c.undone → P c'
  rewind : ∀ {c} target, P c → P (c.rewind (model i) target)

theorem SnapshotMode.carries_led (mode : SnapshotMode (model i) ι β) : mode.Carries mode.Led where
  led h := h
  keep h hkept _ hlp := h.keep hkept hlp
  push rec h hrec hkept _ := h.push rec hrec hkept
  rewind target h := h.rewind target

theorem SnapshotMode.Carries.dispatched {c c' : LPContext σ} (hP : mode.Carries P) (h : P c) (hdispatched : mode.Dispatched c c') :
    P c' := by
  have hsame : ∀ {b b' : LPContext σ}, P b → SameWork b b' → P b' :=
    fun h hwork => hP.keep h hwork.books.kept hwork.undone hwork.lp
  cases hdispatched with
  | stays hkept hundone _ hlp => exact hP.keep h hkept hundone hlp
  | rewinds target hwork => exact hsame (hP.rewind target h) hwork
  | handles rec _ hleads hkept hundone _ => exact hP.push rec h hleads hkept hundone
  | annuls rec b hbefore _ hleads _ hkept hundone _ =>
      have hb : P b := hbefore.elim (hsame h) fun ⟨target, hwork⟩ => hsame (hP.rewind target h) hwork
      exact hP.push rec hb hleads hkept hundone

/-- The phases that give the LP its first state. -/
def Phase.Sets (i : LPId) (s : Simulation Q σ) : Phase → Prop
  | .addLp id => id = i ∧ i ∉ s.lpIds
  | .start => s.started = false
  | _ => False

theorem Phase.start_of_started {s : Simulation Q σ} (h : s.started = true) : Phase.start.after model cfg s = s := by
  change (exec (startIfNeeded model cfg) s).2 = s
  unfold startIfNeeded
  rw [exec_get_bind, exec_ite, if_pos h]
  rfl

/-- The other phases leave the state of the LP alone, unless something is dispatched or migrates to it. -/
theorem Phase.after_lp {p : Phase} {s : Simulation Q σ} (hne : p ≠ .dispatch) (hsets : ¬ p.Sets i s)
    (hmig : ∀ step ∈ (p.after model cfg s).hist.migrations, ¬ step.Into i) :
    ((p.after model cfg s).ctx i).lp = (s.ctx i).lp := by
  have hrest : p.IsRest → ((p.after model cfg s).ctx i).lp = (s.ctx i).lp := by
    intro hrest
    have hrests : Rests i (s.ctx i).lp (p.after model cfg s) :=
      (restClosed_rests i (s.ctx i).lp).after hrest (Or.inr rfl)
    exact hrests.resolve_left fun ⟨step, hstep, hinto⟩ => hmig step hstep hinto
  cases p with
  | addLp id =>
      change ((exec (WarpSim.addLp model id) s).2.ctx i).lp = _
      unfold WarpSim.addLp
      rw [exec_get_bind, exec_ite]
      split
      · rfl
      · next hid =>
        have hi : i ≠ id := by
          rintro rfl
          exact hsets ⟨rfl, hid⟩
        have hctx : Function.update s.ctx id { lp := (model id).init } i = s.ctx i := Function.update_of_ne hi ..
        exact congrArg LPContext.lp hctx
  | schedule ev => rfl
  | send ev =>
      change ((exec (WarpSim.send .host cfg ev >>= fun _ => pure ()) s).2.ctx i).lp = _
      rw [exec_bind_pure_state]
      exact ((send_frame cfg .host ev s).work i).lp
  | start => rw [Phase.start_of_started (Bool.eq_true_of_not_eq_false hsets)]
  | poll polled => exact hrest trivial
  | collect env doCollectives => exact hrest trivial
  | finalize env => exact hrest trivial
  | dispatch => exact absurd rfl hne

/-- From when the LP has its first state, each phase carries the property along. -/
theorem SnapshotMode.Carries.after {p : Phase} {s : Simulation Q σ} (hP : mode.Carries P) (h : P (s.ctx i))
    (hkeeps : mode.Kept Admits) (hadmits : ∀ ev ∈ Q.elems s.pending, ev.dst = i → Admits ev)
    (hthrows : ∀ state ev, ((model i).onEvent state ev).ThrowsUnchanged state) (hsets : ¬ p.Sets i s)
    (hp : p.Ready s) (hbooks : BooksInv s.atRest) (hbase : BaseInv s.atRest) (hlog : Loggable cfg s)
    (hmig : ∀ step ∈ (p.after model cfg s).hist.migrations, ¬ step.Into i) : P ((p.after model cfg s).ctx i) := by
  by_cases hne : p = .dispatch
  · subst hne
    rcases dispatch_step model hlog with hsame | ⟨ev, htop, hstep⟩
    · rw [hsame.ctx]
      exact h
    · have hadmits' := hadmits ev (mem_discardPending (mem_of_top? htop))
      exact hP.dispatched h (hstep.dispatched hkeeps hadmits' hthrows (hP.led h).valid)
  · have hframe : RestFrame (s.ctx i) ((p.after model cfg s).ctx i) := Phase.after_restFrame hne hbooks hbase hp i
    exact hP.keep h hframe.kept hframe.undone (Phase.after_lp hne hsets hmig)

/-- Until the LPs are started the LP is as constructed, and its records have led it where it is. -/
structure ReplayInv (mode : SnapshotMode (model i) ι β) (s : Simulation Q σ) : Prop where
  unstarted : s.started = false → (s.ctx i).lp = (model i).init
  led : mode.Led (s.ctx i)

theorem ReplayInv.start {s : Simulation Q σ} (h : ReplayInv mode s) (hkeeps : mode.Kept Admits) (hids : s.lpIds.Nodup)
    (hbooks : BooksInv s.atRest) (hbase : BaseInv s.atRest) : ReplayInv mode (Phase.start.after model cfg s) := by
  have hframe : RestFrame (s.ctx i) ((Phase.start.after model cfg s).ctx i) :=
    Phase.after_restFrame (fun h => by cases h) hbooks hbase (show Phase.Ready s .start from trivial) i
  have hstarted : (Phase.start.after model cfg s).started = true := (startIfNeeded_moves model cfg hbase).2
  cases hs : s.started with
  | true =>
      rwa [Phase.start_of_started hs]
  | false =>
      refine ⟨fun hnot => absurd (hnot.symm.trans hstarted) (by simp), ?_⟩
      have hlp := startAll_lp model cfg hids i { s with started := true }
      have hafter : Phase.start.after model cfg s =
          (exec (startAll model cfg s.lpIds) { s with started := true }).2 := by
        change (exec (startIfNeeded model cfg) s).2 = _
        unfold startIfNeeded
        rw [exec_get_bind, exec_ite, if_neg (by simp [hs]), exec_modify_bind]
      rw [← hafter] at hlp
      dsimp only at hlp
      rw [h.unstarted hs] at hlp
      have hnone : (s.ctx i).kept = [] := by
        have hperm := (hbooks.ledger i).balanced
        rw [(hbase.started hs).2.2 i] at hperm
        exact (List.append_eq_nil_iff.mp hperm.nil_eq.symm).2
      have hbegins : (model i).Begins ((Phase.start.after model cfg s).ctx i).lp := by
        rcases hlp with hlp | ⟨-, hends⟩
        · rw [hlp]
          exact .constructed
        · exact .started hends
      refine ⟨_, hbegins, hkeeps.begins _ hbegins, ?_⟩
      rw [hframe.kept, hnone]
      exact .nil

/-- Each phase keeps the records and the state of the LP together. -/
theorem ReplayInv.after {p : Phase} {s : Simulation Q σ} (h : ReplayInv mode s) (hkeeps : mode.Kept Admits)
    (hadmits : ∀ ev ∈ Q.elems s.pending, ev.dst = i → Admits ev)
    (hthrows : ∀ state ev, ((model i).onEvent state ev).ThrowsUnchanged state) (hp : p.Ready s)
    (hids : s.lpIds.Nodup) (hbooks : BooksInv s.atRest) (hbase : BaseInv s.atRest) (hlog : Loggable cfg s)
    (hmig : ∀ step ∈ (p.after model cfg s).hist.migrations, ¬ step.Into i) :
    ReplayInv mode (p.after model cfg s) := by
  have hmoves := (Phase.after_moves model cfg hbase hp).1
  have hstarted : s.started = true → (p.after model cfg s).started = true := AllMoves.started_mono hmoves
  by_cases hsets : p.Sets i s
  · cases p with
    | start => exact h.start hkeeps hids hbooks hbase
    | addLp id =>
        obtain ⟨rfl, hid⟩ := hsets
        change ReplayInv mode (exec (WarpSim.addLp model id) s).2
        unfold WarpSim.addLp
        rw [exec_get_bind, exec_ite, if_neg hid, exec_modify]
        refine ⟨fun _ => by simp, (model id).init, .constructed, hkeeps.begins _ .constructed, ?_⟩
        simp only [Function.update_self]
        exact .nil
    | _ => exact hsets.elim
  · refine ⟨fun hnot => ?_, mode.carries_led.after h.led hkeeps hadmits hthrows hsets hp hbooks hbase hlog hmig⟩
    by_cases hne : p = .dispatch
    · subst hne
      exact absurd (hnot.symm.trans (hstarted hp)) (by simp)
    · rw [Phase.after_lp hne hsets hmig]
      refine h.unstarted (Bool.eq_false_iff.mpr fun hs => ?_)
      exact absurd (hnot.symm.trans (hstarted hs)) (by simp)

theorem PhaseRun.lpIds_nodup {allowed : Phase → Simulation Q σ → Prop} {s : Simulation Q σ}
    (h : PhaseRun model cfg allowed (Simulation.create Q model) s) : s.lpIds.Nodup :=
  (AllMoves.digestInv (h.moves baseInv_create) ⟨List.nodup_nil, fun _ => .start⟩).distinct

theorem PhaseRun.replayInv {allowed : Phase → Simulation Q σ → Prop} {s : Simulation Q σ}
    (h : PhaseRun model cfg allowed (Simulation.create Q model) s) (hkeeps : mode.Kept Admits)
    (hadmits : ∀ ev ∈ s.entered cfg, ev.dst = i → Admits ev)
    (hthrows : ∀ state ev, ((model i).onEvent state ev).ThrowsUnchanged state)
    (hmig : ∀ step ∈ s.hist.migrations, ¬ step.Into i) : ReplayInv mode s := by
  induction h with
  | refl => exact ⟨fun _ => rfl, (model i).init, .constructed, hkeeps.begins _ .constructed, .nil⟩
  | @step t p ht hready _ ih =>
      have hmoves := (Phase.after_moves model cfg ht.baseInv hready).1
      have hle := AllMoves.extends hmoves
      have hadmits' : ∀ ev ∈ t.entered cfg, ev.dst = i → Admits ev := fun ev hev =>
        hadmits ev ((entered_sublist hle).subset hev)
      have hpresent := AllMoves.present_eq (ht.moves baseInv_create)
      refine (ih hadmits' fun step hstep => hmig step (hle.migrations.subset hstep)).after hkeeps
        (fun ev hev => hadmits' ev (entered_of_pending hpresent hev)) hthrows hready ht.lpIds_nodup
        ht.booksInv ht.baseInv ht.loggable hmig

end

/-- Whatever has been undone on the way, an LP that keeps the snapshot contract and is not migrated to is in
the state that its handlers lead to on the records in place: those that have been committed, and then those
that have not. The contract is to hold for the events that have come in for the LP. -/
theorem lp_replays {s : Simulation Q σ} (h : OnRun model cfg s) {i : LPId} {Admits : Event → Prop}
    (hcontract : SnapshotContract (model i) Admits) (hadmits : ∀ ev ∈ s.entered cfg, ev.dst = i → Admits ev)
    (hthrows : ∀ state ev, ((model i).onEvent state ev).ThrowsUnchanged state)
    (hmig : ∀ step ∈ s.hist.migrations, ¬ step.Into i) :
    ∃ start, (model i).Begins start ∧ Trail (Replays (model i)) start (s.ctx i).kept (s.ctx i).lp := by
  obtain ⟨ι, β, _, mode, hkeeps⟩ := hcontract.mode
  have hled : mode.Led (s.ctx i) := (h.replayInv hkeeps hadmits hthrows hmig).led
  obtain ⟨start, hstart, -, htrail⟩ := hled
  exact ⟨start, hstart, htrail.mono fun _ _ _ hr => hr.1⟩

/-- From `c` to `c'` a rollback has taken the LP back to the state `y`, from which the records that it undoes
had led on. The order in which the snapshots of entities in a record are loaded does not matter. -/
structure Restored (lp : LogicalProcess σ) (target : TimeStamp) (c c' : LPContext σ) (y : σ) : Prop where
  before : ∃ start, lp.Begins start ∧
    Trail (Replays lp) start (c.fossils ++ keptRecords target c.processed) y
  after : Trail (Replays lp) y (undoneRecords target c.processed) c.lp
  state : c'.lp = y
  processed : c'.processed = keptRecords target c.processed
  anyOrder : ∀ records, List.Forall₂ Shuffled (undoneRecords target c.processed) records →
    restoreState lp records c.lp = y

/-- A rollback of such an LP restores its state, and puts each event that it undoes back into the queue once.
It starts from a state `w` with the contexts and the sends of the state `s`. -/
theorem rollback_restores {s w : Simulation Q σ} (h : OnRun model cfg s) (hw : SameLps s w) {i : LPId}
    (hi : i ∈ s.lpIds) {Admits : Event → Prop} (hcontract : SnapshotContract (model i) Admits)
    (hadmits : ∀ ev ∈ s.entered cfg, ev.dst = i → Admits ev)
    (hthrows : ∀ state ev, ((model i).onEvent state ev).ThrowsUnchanged state)
    (hmig : ∀ step ∈ s.hist.migrations, ¬ step.Into i) (target : TimeStamp) :
    ∃ t y, ∃ more : List SendRecord, exec (rollback model cfg i target) w = (.ok (), t) ∧
      Restored (model i) target (s.ctx i) (t.ctx i) y ∧
      Q.elems t.pending = Q.elems w.pending +
        Multiset.ofList ((undoneRecords target (s.ctx i).processed).map (·.ev)) +
          Multiset.ofList ((more.filter (·.rank = cfg.rank)).map (·.ev)) ∧
      more.map (·.asked) = (cancelledSends target (s.ctx i).sentLog).map (antiOf i) := by
  obtain ⟨ι, β, _, mode, hkeeps⟩ := hcontract.mode
  obtain ⟨t, more, hexec, hback⟩ := exec_rollback_ok model cfg target (hw.lpIds ▸ hi) (hw.ctx ▸ h.loggable i)
  have hled : mode.Led (s.ctx i) := (h.replayInv hkeeps hadmits hthrows hmig).led
  obtain ⟨start, y, hstart, -, hkept, hundone, hrestore⟩ := hled.before target
  have hwork := hback.work
  have hpending := hback.pending
  have hasked := hback.asked
  rw [hw.ctx] at hwork hpending hasked
  refine ⟨t, y, more, hexec, ⟨⟨start, hstart, hkept.mono fun _ _ _ hr => hr.1⟩, hundone.mono fun _ _ _ hr => hr.1,
    ?_, ?_, hrestore⟩, hpending, hasked⟩
  · rw [hwork.lp, rewind_lp]
    exact hrestore _ (shuffled_refl _)
  · rw [hwork.processed, LPContext.rewind_eq]

/-! ## A store of entities -/

/-- An LP that adds up what it is sent for each of its entities. -/
def tally : LogicalProcess (EntityId → UInt8) where
  init _ := 0
  onEvent st ev := .requestWrite st ev.target
    (.done (Function.update st ev.target (st ev.target + ev.payload.kind.toUInt8)))
  saveState _ := []
  loadState st _ := st
  supportsEntitySnapshots := true
  saveEntity st id := [st id]
  loadEntity st id bytes := Function.update st id (bytes.headD 0)

theorem tally_contract : SnapshotContract tally fun _ => True := by
  refine .perEntity (fun _ => True) id rfl (fun _ _ => trivial) ⟨fun _ _ _ _ h => h, fun _ _ _ _ _ => ⟨trivial, rfl⟩⟩
    fun st ev _ _ => ⟨trivial, fun _ _ => rfl, trivial, fun i hi => ?_⟩
  exact Function.update_of_ne (by simpa using hi) ..

theorem tally_throws (st : EntityId → UInt8) (ev : Event) : (tally.onEvent st ev).ThrowsUnchanged st := trivial

def addAt (time : UInt64) (target : EntityId) (kind : UInt32) (uid : EventUid) : Event :=
  { ts := ⟨time, 1⟩, src := 9, dst := 1, target := target, uid := uid, payload := { kind := kind } }

/-- The LP 2 has nothing to do, so that GVT stays where it is. -/
def tallyRun (ops : List HostOp) : Simulation sortedEventQueue (EntityId → UInt8) :=
  hostRun (fun _ => tally) {} ([.addLp 1, .addLp 2, .schedule (addAt 10 7 1 1),
    .schedule (addAt 20 7 2 2), .schedule (addAt 30 8 4 3), .runOne {} true, .runOne {} true, .runOne {} true] ++ ops)
    (Simulation.create _ fun _ => tally)

theorem tallyRun_onRun (ops : List HostOp) : OnRun (fun _ => tally) {} (tallyRun ops) :=
  (Reachable.hostRun .create (obeys_true _ _)).onRun

/-- An event at 15 comes when those at 20 and 30 have been executed. -/
theorem lp_replays_tally :
    ((tallyRun [.schedule (addAt 15 7 8 4), .runOne {} true]).ctx 1).undone.length = 2 ∧
      ∃ start, tally.Begins start ∧ Trail (Replays tally) start
        ((tallyRun [.schedule (addAt 15 7 8 4), .runOne {} true]).ctx 1).kept
        ((tallyRun [.schedule (addAt 15 7 8 4), .runOne {} true]).ctx 1).lp :=
  ⟨by decide +kernel, lp_replays (tallyRun_onRun _) (i := 1) tally_contract (fun _ _ _ => trivial) tally_throws (by decide +kernel)⟩

/-- The events at 20 and 30 are undone. -/
theorem rollback_restores_tally :
    (undoneRecords ⟨15, 1⟩ ((tallyRun []).ctx 1).processed).length = 2 ∧
      ∃ t y, ∃ more : List SendRecord, exec (rollback (fun _ => tally) {} 1 ⟨15, 1⟩) (tallyRun []) = (.ok (), t) ∧
        Restored tally ⟨15, 1⟩ ((tallyRun []).ctx 1) (t.ctx 1) y ∧
        sortedEventQueue.elems t.pending = sortedEventQueue.elems (tallyRun []).pending +
          Multiset.ofList ((undoneRecords ⟨15, 1⟩ ((tallyRun []).ctx 1).processed).map (·.ev)) +
            Multiset.ofList ((more.filter (·.rank = 0)).map (·.ev)) ∧
        more.map (·.asked) = (cancelledSends ⟨15, 1⟩ ((tallyRun []).ctx 1).sentLog).map (antiOf 1) :=
  ⟨by decide +kernel, rollback_restores (tallyRun_onRun []) (SameLps.refl _) (i := 1) (by decide +kernel)
    tally_contract (fun _ _ _ => trivial) tally_throws (by decide +kernel) ⟨15, 1⟩⟩

end WarpSim

import WarpSim.Verification.Bounds
import WarpSim.Verification.Deferral.Table

/-! # Turns of the loop without sends

Where no handler sends and no message comes in from outside, a turn of the loop of `run` takes one
event off the queue and executes it, defers it or rolls its LP back. -/

namespace WarpSim

variable {Q : EventQueue} {σ : Type} {model : Model σ} {cfg : SimulationConfig}

open Prog Simulation

/-! ## What the counters do not touch -/

/-- Other counters, and another record of the runtime checks. -/
def note (counters : Counters) (checks : Bool) (s : Simulation Q σ) : Simulation Q σ :=
  { s with counters := counters, checksPassed := checks }

theorem validate_note (cfg : SimulationConfig) (s : Simulation Q σ) :
    ∃ b, validateInvariants cfg s = note s.counters b s := by
  unfold validateInvariants
  split
  · exact ⟨_, rfl⟩
  · exact ⟨s.checksPassed, rfl⟩

variable (c : Counters) (b : Bool) (s : Simulation Q σ)

@[simp] theorem note_note (c' : Counters) (b' : Bool) : note c b (note c' b' s) = note c b s := rfl

@[simp] theorem modifyCtx_note (id : LPId) (f : LPContext σ → LPContext σ) :
    (note c b s).modifyCtx id f = note c b (s.modifyCtx id f) := rfl

@[simp] theorem enqueue_note (ev : Event) : (note c b s).enqueue ev = note c b (s.enqueue ev) := rfl

@[simp] theorem released_note (ev : Event) : released ev (note c b s) = note c b (released ev s) := by
  rw [released_closed, released_closed]
  rfl

theorem unwound_note (model : Model σ) (id : LPId) (target : TimeStamp) :
    ∃ c', unwound model id target (note c b s) = note c' b (unwound model id target s) := by
  refine ⟨(unwound model id target (note c b s)).counters, ?_⟩
  conv_lhs => rw [unwound_eq]
  conv_rhs => rw [unwound_eq model id target s]
  rfl

/-! ## Handlers that send nothing -/

/-- The handler sends nothing, and throws only for want of an entity, where it may. -/
def Handler.Tame (mayMiss : Prop) : Handler σ → Prop
  | .done _ => True
  | .throw _ what => mayMiss ∧ isMissingEntityError what = true
  | .send _ _ => False
  | .requestWrite _ _ next => next.Tame mayMiss
  | .emitCommitted _ _ next => ∀ r, (next r).Tame mayMiss

/-- No LP sends anything, and none throws but for the want of the entity of an event. -/
structure TameModel (cfg : SimulationConfig) (model : Model σ) : Prop where
  starts : ∀ id st, ∃ st', (model id).onStart st = .done st'
  handles : ∀ id st ev, ((model id).onEvent st ev).Tame
    (ev.target ≠ 0 ∧ ev.payload.kind ≠ cfg.installEventKind)

/-- How a handler that sends nothing ends, and the state of its LP then. -/
def Handler.outcome (lp : LogicalProcess σ) : Handler σ → ProcessedRecord → Except String ProcessedRecord × σ
  | .done state, rec => (.ok rec, state)
  | .throw state what, _ => (.error what, state)
  | .send _ next, rec => (next none).outcome lp rec
  | .requestWrite state entity next, rec => next.outcome lp (WarpSim.requestWrite lp state entity rec)
  | .emitCommitted ts payload next, rec =>
    if ts = rec.ev.ts then (next none).outcome lp { rec with committed := rec.committed ++ [⟨ts, payload⟩] }
    else (next (some "emit_committed: ts must match the current event timestamp")).outcome lp rec

/-- How the handler of the event ends. -/
def outcomeOf (model : Model σ) (ev : Event) (s : Simulation Q σ) : Except String ProcessedRecord × σ :=
  ((model ev.dst).onEvent (s.ctx ev.dst).lp ev).outcome (model ev.dst) (newRecord ev (s.ctx ev.dst))

/-- The record is of the event, or the handler misses an entity. -/
def TameEnd (mayMiss : Prop) (ev : Event) : Except String ProcessedRecord → Prop
  | .ok rec => rec.ev = ev
  | .error what => mayMiss ∧ isMissingEntityError what = true

theorem exec_runHandler_tame {mayMiss : Prop} (model : Model σ) (cfg : SimulationConfig) (id : LPId) (handler : Handler σ)
    (h : handler.Tame mayMiss) (rec : ProcessedRecord) (s : Simulation Q σ) :
    exec (runHandler model cfg id handler rec) s =
        ((handler.outcome (model id) rec).1, setLp id (handler.outcome (model id) rec).2 s) ∧
      TameEnd mayMiss rec.ev (handler.outcome (model id) rec).1 := by
  induction handler generalizing rec with
  | done state => exact ⟨rfl, rfl⟩
  | throw state what => exact ⟨rfl, h⟩
  | send => exact h.elim
  | requestWrite state entity next ih =>
      have hnext := ih h (requestWrite (model id) state entity rec)
      rw [requestWrite_ev] at hnext
      exact hnext
  | emitCommitted ts payload next ih =>
      unfold runHandler Handler.outcome
      split
      · exact ih _ (h _) { rec with committed := rec.committed ++ [⟨ts, payload⟩] }
      · exact ih _ (h _) rec

/-! ## What becomes of an event -/

/-- The event has been executed, which has filled the record and left the LP in the state. -/
def ran (ev : Event) (rec : ProcessedRecord) (st : σ) (s : Simulation Q σ) : Simulation Q σ :=
  pushProcessed ev.dst rec (left ev.dst (setLp ev.dst st (entered ev s)))

def Installs (cfg : SimulationConfig) (ev : Event) : Prop :=
  cfg.enableInstallBeforeUseBuffering = true ∧ ev.target ≠ 0 ∧ ev.payload.kind = cfg.installEventKind

instance (cfg : SimulationConfig) (ev : Event) : Decidable (Installs cfg ev) :=
  inferInstanceAs (Decidable (_ ∧ _ ∧ _))

/-- An install event also sets free what has been waiting for it. -/
def executed (cfg : SimulationConfig) (ev : Event) (rec : ProcessedRecord) (st : σ)
    (s : Simulation Q σ) : Simulation Q σ :=
  if Installs cfg ev then released ev (ran ev rec st s) else ran ev rec st s

/-- The event has been deferred, and its LP is back where it was before. -/
def putOff (ev : Event) (st : σ) (s : Simulation Q σ) : Simulation Q σ :=
  deferTargetedEvent ev ((left ev.dst (setLp ev.dst st (entered ev s))).modifyCtx ev.dst fun c =>
    { c with vt := (s.ctx ev.dst).vt, currentExecTs := (s.ctx ev.dst).vt })

/-- The LP has been rolled back to the time of the straggler, which is pending again. -/
def straggled (model : Model σ) (ev : Event) (s : Simulation Q σ) : Simulation Q σ :=
  (unwound model ev.dst ev.ts s).enqueue ev

theorem exec_executeEvent_ok {ev : Event} {rec : ProcessedRecord} {st : σ} {s : Simulation Q σ}
    (hrun : exec (runHandler model cfg ev.dst ((model ev.dst).onEvent (s.ctx ev.dst).lp ev)
      (newRecord ev (s.ctx ev.dst))) (entered ev s) = (.ok rec, setLp ev.dst st (entered ev s))) :
    ∃ c b, exec (executeEvent model cfg ev (s.ctx ev.dst)) s = (.ok (), note c b (executed cfg ev rec st s)) := by
  unfold executeEvent
  rw [exec_modify_bind, exec_observe_bind, exec_modify_bind]
  change ∃ c b, exec (match (exec (runHandler model cfg ev.dst _ _) (entered ev s)).1 with
    | .ok rec => _ | .error what => _) (left ev.dst (exec (runHandler model cfg ev.dst _ _) (entered ev s)).2) = _
  rw [hrun]
  dsimp only
  rw [exec_modify_bind, exec_ite]
  unfold executed
  split
  · next hinstall =>
    rw [if_pos (show Installs cfg ev from hinstall), exec_modify_bind, exec_modify_bind]
    obtain ⟨b, hb⟩ := validate_note cfg (note _ _ (released ev (ran ev rec st s)))
    exact ⟨_, b, congrArg (Prod.mk _) hb⟩
  · next hinstall =>
    rw [if_neg (show ¬ Installs cfg ev from hinstall), exec_modify_bind]
    obtain ⟨b, hb⟩ := validate_note cfg (note _ _ (ran ev rec st s))
    exact ⟨_, b, congrArg (Prod.mk _) hb⟩

theorem exec_executeEvent_missing {ev : Event} {what : String} {st : σ} {s : Simulation Q σ}
    (hbuf : cfg.enableInstallBeforeUseBuffering = true) (htarget : ev.target ≠ 0)
    (hkind : ev.payload.kind ≠ cfg.installEventKind) (hwhat : isMissingEntityError what = true)
    (hrun : exec (runHandler model cfg ev.dst ((model ev.dst).onEvent (s.ctx ev.dst).lp ev)
      (newRecord ev (s.ctx ev.dst))) (entered ev s) = (.error what, setLp ev.dst st (entered ev s))) :
    ∃ c b, exec (executeEvent model cfg ev (s.ctx ev.dst)) s = (.ok (), note c b (putOff ev st s)) := by
  unfold executeEvent
  rw [exec_modify_bind, exec_observe_bind, exec_modify_bind]
  change ∃ c b, exec (match (exec (runHandler model cfg ev.dst _ _) (entered ev s)).1 with
    | .ok rec => _ | .error what => _) (left ev.dst (exec (runHandler model cfg ev.dst _ _) (entered ev s)).2) = _
  rw [hrun]
  dsimp only
  rw [exec_ite, if_pos ⟨hbuf, htarget, hkind, hwhat⟩, exec_modify_bind, exec_modify_bind]
  obtain ⟨b, hb⟩ := validate_note cfg (putOff ev st s)
  exact ⟨_, b, congrArg (Prod.mk _) hb⟩

theorem exec_rollback (model : Model σ) (cfg : SimulationConfig) {id : LPId} (target : TimeStamp) {s : Simulation Q σ}
    (hlog : (s.ctx id).sentLog = []) :
    ∃ c b, exec (rollback model cfg id target) s = (.ok (), note c b (unwound model id target s)) := by
  obtain ⟨b, hb⟩ := validate_note cfg s
  unfold rollback
  rw [exec_modify_bind, exec_modify_bind, exec_modify_bind, exec_modify_bind, exec_get_bind, hb]
  set t := note { s.counters with rollbacksTotal := s.counters.rollbacksTotal + 1 } b s with ht
  obtain ⟨c, hc⟩ := unwound_note { s.counters with
    rollbacksTotal := s.counters.rollbacksTotal + 1 } b s model id target
  change ∃ c b, exec (emitAntis cfg id (cancelledSends target ((unwound model id target t).ctx id).sentLog)
    >>= fun _ => modify (validateInvariants cfg)) (unwound model id target t) = _
  have hnone : ((unwound model id target t).ctx id).sentLog = [] := by
    rw [unwound_ctx, Function.update_self, LPContext.rewind_eq]
    exact hlog
  rw [hnone, hc]
  obtain ⟨b', hb'⟩ := validate_note cfg (note c b (unwound model id target s))
  exact ⟨_, b', congrArg (Prod.mk _) hb'⟩

/-- What the dispatch of a positive event makes of a simulation. -/
inductive Dealt (model : Model σ) (cfg : SimulationConfig) (ev : Event) (s : Simulation Q σ) :
    Simulation Q σ → Prop where
  | executed {rec} : ¬ ev.ts < (s.ctx ev.dst).vt → rec.ev = ev → (outcomeOf model ev s).1 = .ok rec →
      Dealt model cfg ev s (executed cfg ev rec (outcomeOf model ev s).2 s)
  | putOff {what} : ¬ ev.ts < (s.ctx ev.dst).vt → ¬ Installs cfg ev → (outcomeOf model ev s).1 = .error what →
      Dealt model cfg ev s (putOff ev (outcomeOf model ev s).2 s)
  | straggled : ev.ts < (s.ctx ev.dst).vt → Dealt model cfg ev s (straggled model ev s)

theorem exec_dispatchPositive (hmodel : TameModel cfg model)
    (hbuf : cfg.enableInstallBeforeUseBuffering = true) {ev : Event} {s : Simulation Q σ}
    (hdst : ev.dst ∈ s.lpIds) (hlog : (s.ctx ev.dst).sentLog = []) :
    ∃ c b t, exec (dispatchPositive model cfg ev) s = (.ok (), note c b t) ∧ Dealt model cfg ev s t := by
  unfold dispatchPositive
  rw [exec_lookupCtx_bind, if_pos hdst, exec_ite]
  split
  · next hlt =>
    obtain ⟨c, b, hroll⟩ := exec_rollback model cfg ev.ts (s := countStraggler s) hlog
    obtain ⟨c', hc'⟩ := unwound_note (countStraggler s).counters s.checksPassed s model ev.dst ev.ts
    have hstate : unwound model ev.dst ev.ts (countStraggler s) =
        note c' s.checksPassed (unwound model ev.dst ev.ts s) := hc'
    rw [exec_modify_bind, exec_bind_of_ok hroll, exec_modify_bind, hstate]
    obtain ⟨b', hb'⟩ := validate_note cfg (note c b (straggled model ev s))
    exact ⟨_, b', straggled model ev s, congrArg (Prod.mk _) hb', .straggled hlt⟩
  · next hlt =>
    obtain ⟨hrun, hend⟩ := exec_runHandler_tame model cfg ev.dst _
      (hmodel.handles ev.dst (s.ctx ev.dst).lp ev) (newRecord ev (s.ctx ev.dst)) (entered ev s)
    change _ = ((outcomeOf model ev s).1, setLp ev.dst (outcomeOf model ev s).2 (entered ev s)) at hrun
    change TameEnd _ ev (outcomeOf model ev s).1 at hend
    cases hout : (outcomeOf model ev s).1 with
    | ok rec =>
        rw [hout] at hrun hend
        obtain ⟨c, b, hexec⟩ := exec_executeEvent_ok hrun
        exact ⟨c, b, _, hexec, .executed hlt hend hout⟩
    | error what =>
        rw [hout] at hrun hend
        obtain ⟨⟨htarget, hkind⟩, hwhat⟩ := hend
        obtain ⟨c, b, hexec⟩ := exec_executeEvent_missing hbuf htarget hkind hwhat hrun
        exact ⟨c, b, _, hexec, .putOff hlt (fun h => hkind h.2.2) hout⟩

theorem Dealt.of_note {ev : Event} {c : Counters} {b : Bool} {s t : Simulation Q σ}
    (h : Dealt model cfg ev (note c b s) t) : ∃ c' t', t = note c' b t' ∧ Dealt model cfg ev s t' := by
  have hsame : outcomeOf model ev (note c b s) = outcomeOf model ev s := rfl
  cases h with
  | @executed rec hlt hev hout =>
      rw [hsame] at hout ⊢
      refine ⟨c, WarpSim.executed cfg ev rec (outcomeOf model ev s).2 s, ?_, .executed hlt hev hout⟩
      have hran : ran ev rec (outcomeOf model ev s).2 (note c b s) =
          note c b (ran ev rec (outcomeOf model ev s).2 s) := rfl
      unfold WarpSim.executed
      split
      · rw [hran, released_note]
      · exact hran
  | @putOff what hlt hinstall hout =>
      rw [hsame] at hout ⊢
      exact ⟨c, WarpSim.putOff ev (outcomeOf model ev s).2 s, rfl, .putOff hlt hinstall hout⟩
  | straggled hlt =>
      obtain ⟨c', hc'⟩ := unwound_note c b s model ev.dst ev.ts
      refine ⟨c', WarpSim.straggled model ev s, ?_, .straggled hlt⟩
      unfold WarpSim.straggled
      rw [hc']
      rfl

/-- Only positive events for the LPs of the kernel are about, nothing has been sent, and nothing
else is waiting. -/
structure Alone (s : Simulation Q σ) : Prop where
  pending : ∀ ev ∈ Q.elems s.pending, ev.isAnti = false ∧ ev.dst ∈ s.lpIds
  deferred : ∀ ev ∈ s.deferred, ev.isAnti = false ∧ ev.dst ∈ s.lpIds
  processed : ∀ id, ∀ rec ∈ (s.ctx id).processed, rec.ev.isAnti = false ∧ rec.ev.dst = id ∧ id ∈ s.lpIds
  cancelled : ∀ key, s.cancelledByUid key = none
  logs : ∀ id, (s.ctx id).sentLog = []
  migrations : s.pendingMigrations = []
  directories : s.directoryLps = []
  inflight : s.inflightByUid = []

theorem Alone.discardPending {s : Simulation Q σ} (h : Alone s) {skip : Event → Bool}
    (hskip : ∀ ev, skip ev = true → s.tombstoned ev = true) : discardPending skip s = s := by
  have hnone : ∀ ev, skip ev = false := by
    intro ev
    by_contra hev
    have htomb := hskip ev (by simpa using hev)
    simp [tombstoned, h.cancelled] at htomb
  have hstay : Q.discardWhile skip (Q.size s.pending) s.pending = ([], s.pending) := by
    cases Q.size s.pending with
    | zero => rfl
    | succ n =>
        unfold PriorityQueue.discardWhile
        split
        · rfl
        · simp [hnone]
  unfold WarpSim.discardPending
  rw [hstay]
  simp

/-- The event at the front of the queue is taken off it. -/
def popped (ev : Event) (s : Simulation Q σ) : Simulation Q σ :=
  recordDispatch ev { s with pending := Q.pop s.pending }

theorem exec_dispatchNext (hmodel : TameModel cfg model) (hbuf : cfg.enableInstallBeforeUseBuffering = true)
    {s : Simulation Q σ} (h : Alone s) :
    Q.top? s.pending = none ∧ exec (dispatchNext model cfg) s = (.ok false, s) ∨
      ∃ ev c b t, Q.top? s.pending = some ev ∧ exec (dispatchNext model cfg) s = (.ok true, note c b t) ∧
        Dealt model cfg ev (popped ev s) t := by
  have hscan : popScan s = s := h.discardPending fun ev hev => (Bool.and_eq_true_iff.mp hev).2
  unfold dispatchNext
  rw [exec_bind, exec_popNext, hscan]
  cases htop : Q.top? s.pending with
  | none => exact Or.inl ⟨rfl, rfl⟩
  | some ev =>
      right
      have hmem : ev ∈ Q.elems s.pending := by
        rw [Q.elems_pop _ _ htop]
        exact Multiset.mem_cons_self _ _
      obtain ⟨hanti, hdst⟩ := h.pending ev hmem
      obtain ⟨b, hb⟩ := validate_note cfg (popped ev s)
      set noted := note (popped ev s).counters b (popped ev s)
      have hdst' : ev.dst ∈ noted.lpIds := hdst
      obtain ⟨c, b', t, hdisp, hdealt⟩ := exec_dispatchPositive hmodel hbuf hdst' (h.logs ev.dst)
      obtain ⟨c', t', rfl, hdealt'⟩ := hdealt.of_note
      refine ⟨ev, c, b', t', rfl, ?_, hdealt'⟩
      have hone : exec (dispatch model cfg ev) { s with pending := Q.pop s.pending } =
          (.ok (), note c b' (note c' b t')) := by
        unfold dispatch
        rw [exec_modify_bind, exec_modify_bind, exec_ite, if_neg (by simp [hanti])]
        change exec (dispatchPositive model cfg ev) (validateInvariants cfg (popped ev s)) = _
        rw [hb]
        exact hdisp
      dsimp only
      rw [exec_observe_bind, hone]
      rfl

/-! ## Fossil collection on one rank -/

/-- There are no other ranks and no reductions. -/
structure SingleRank (cfg : SimulationConfig) : Prop where
  ranks : cfg.lpToRank = none
  reduceMin : cfg.gvtReduceMin = false
  reduceSum : cfg.gvtReduceSum = false
  anyWork : cfg.anyRankHasWork = false

/-- Fossil collection leaves alone what the loop works on. It takes GVT no further than the pending
events, and commits only what lies before. -/
structure Collected (s t : Simulation Q σ) : Prop where
  started : t.started = s.started
  lpIds : t.lpIds = s.lpIds
  pending : t.pending = s.pending
  deferred : t.deferredTargeted = s.deferredTargeted
  migrations : t.pendingMigrations = s.pendingMigrations
  directories : t.directoryLps = s.directoryLps
  inflight : t.inflightByUid = s.inflightByUid
  releases : t.hist.releases = s.hist.releases
  cancelled : ∀ key, s.cancelledByUid key = none → t.cancelledByUid key = none
  gvt : s.lastGvt ≤ t.lastGvt
  bound : t.lastGvt = s.lastGvt ∨ ∀ ev ∈ Q.elems s.pending, t.lastGvt ≤ ev.ts
  lp : ∀ id, (t.ctx id).lp = (s.ctx id).lp
  vt : ∀ id, (t.ctx id).vt = (s.ctx id).vt
  logs : ∀ id, (s.ctx id).sentLog = [] → (t.ctx id).sentLog = []
  processed : ∀ id, (t.ctx id).processed ⊆ (s.ctx id).processed
  survive : ∀ id, (∀ rec ∈ (s.ctx id).processed, t.lastGvt ≤ rec.ev.ts) →
    (t.ctx id).processed = (s.ctx id).processed

theorem collected_of_rest {s t : Simulation Q σ} (h : t = { s with
    lastDirectoryGcGvt := t.lastDirectoryGcGvt
    counters := t.counters
    checksPassed := t.checksPassed }) : Collected s t := by
  rw [h]
  exact ⟨rfl, rfl, rfl, rfl, rfl, rfl, rfl, rfl, fun _ h => h, le_refl _, Or.inl rfl, fun _ => rfl,
    fun _ => rfl, fun _ h => h, fun _ => List.Subset.refl _, fun _ _ => rfl⟩

theorem Collected.trans {s t u : Simulation Q σ} (h : Collected s t) (h' : Collected t u) :
    Collected s u where
  started := h'.started.trans h.started
  lpIds := h'.lpIds.trans h.lpIds
  pending := h'.pending.trans h.pending
  deferred := h'.deferred.trans h.deferred
  migrations := h'.migrations.trans h.migrations
  directories := h'.directories.trans h.directories
  inflight := h'.inflight.trans h.inflight
  releases := h'.releases.trans h.releases
  cancelled key hkey := h'.cancelled key (h.cancelled key hkey)
  gvt := h.gvt.trans h'.gvt
  bound := by
    rcases h'.bound with heq | hle
    · rw [heq]
      exact h.bound
    · rw [h.pending] at hle
      exact Or.inr hle
  lp id := (h'.lp id).trans (h.lp id)
  vt id := (h'.vt id).trans (h.vt id)
  logs id hid := h'.logs id (h.logs id hid)
  processed id := List.Subset.trans (h'.processed id) (h.processed id)
  survive id hid := by
    have hfirst := h.survive id fun rec hrec => h'.gvt.trans (hid rec hrec)
    rw [h'.survive id (by rw [hfirst]; exact hid), hfirst]

theorem collected_validate (cfg : SimulationConfig) (s : Simulation Q σ) :
    Collected s (validateInvariants cfg s) := by
  obtain ⟨b, hb⟩ := validate_note cfg s
  rw [hb]
  exact collected_of_rest rfl

theorem dropWhile_eq_self {l : List ProcessedRecord} {gvt : TimeStamp}
    (h : ∀ rec ∈ l, gvt ≤ rec.ev.ts) : (l.dropWhile fun rec => rec.ev.ts < gvt) = l := by
  cases l with
  | nil => rfl
  | cons rec l =>
      rw [List.dropWhile_cons_of_neg]
      simpa using h rec List.mem_cons_self

variable (cfg) in
/-- Committing what lies before a time not after GVT. -/
theorem collected_prune {gvt : TimeStamp} {s : Simulation Q σ} (hle : gvt ≤ s.lastGvt) :
    Collected s (pruneToGvt cfg gvt s) where
  started := rfl
  lpIds := rfl
  pending := rfl
  deferred := rfl
  migrations := rfl
  directories := rfl
  inflight := rfl
  releases := rfl
  cancelled key hkey := by simp [pruneToGvt, hkey]
  gvt := le_refl _
  bound := Or.inl rfl
  lp id := prune_proj cfg (·.lp) (fun _ _ => rfl) gvt s id
  vt id := prune_proj cfg (·.vt) (fun _ _ => rfl) gvt s id
  logs id hid := by
    rw [prune_ctx]
    split
    · simp [LPContext.prune, hid]
    · exact hid
  processed id := by
    rw [prune_ctx]
    split
    · exact (List.dropWhile_sublist _).subset
    · exact List.Subset.refl _
  survive id hid := by
    rw [prune_ctx]
    split
    · exact dropWhile_eq_self fun rec hrec => hle.trans (hid rec hrec)
    · rfl

theorem collected_raiseGvt {gvt : TimeStamp} {s : Simulation Q σ} (hle : s.lastGvt ≤ gvt)
    (hpending : ∀ ev ∈ Q.elems s.pending, gvt ≤ ev.ts) : Collected s (raiseGvt gvt s) :=
  ⟨rfl, rfl, rfl, rfl, rfl, rfl, rfl, rfl, fun _ h => h, hle, Or.inr hpending, fun _ => rfl,
    fun _ => rfl, fun _ h => h, fun _ => List.Subset.refl _, fun _ _ => rfl⟩

theorem exec_applyReadyMigrations {s : Simulation Q σ} (h : s.pendingMigrations = []) :
    exec (applyReadyMigrations model) s = (.ok (), s) := by
  unfold applyReadyMigrations
  rw [exec_get_bind, h]
  rfl

variable (cfg) in
theorem exec_notifyDirectoriesGvt {s : Simulation Q σ} (h : s.directoryLps = []) (gvt : TimeStamp) :
    ∃ t, exec (notifyDirectoriesGvt cfg gvt) s = (.ok (), t) ∧ Collected s t := by
  unfold notifyDirectoriesGvt
  rw [exec_get_bind, exec_ite]
  split
  · exact ⟨s, rfl, collected_of_rest rfl⟩
  · split
    · exact ⟨s, rfl, collected_of_rest rfl⟩
    · next systemSrc _ =>
      rw [exec_ite]
      split
      · rw [h]
        exact ⟨{ s with lastDirectoryGcGvt := gvt }, rfl, collected_of_rest rfl⟩
      · exact ⟨s, rfl, collected_of_rest rfl⟩

theorem Alone.collected {s t : Simulation Q σ} (h : Alone s) (hc : Collected s t) : Alone t where
  pending := by rw [hc.pending, hc.lpIds]; exact h.pending
  deferred := by
    have hdeferred : t.deferred = s.deferred := congrArg (List.flatMap Prod.snd) hc.deferred
    rw [hdeferred, hc.lpIds]
    exact h.deferred
  processed id rec hrec := by
    rw [hc.lpIds]
    exact h.processed id rec (hc.processed id hrec)
  cancelled key := hc.cancelled key (h.cancelled key)
  logs id := hc.logs id (h.logs id)
  migrations := hc.migrations.trans h.migrations
  directories := hc.directories.trans h.directories
  inflight := hc.inflight.trans h.inflight

variable (model cfg) in
theorem exec_adoptGvt {gvt : TimeStamp} {s : Simulation Q σ} (h : Alone s)
    (hpending : ∀ ev ∈ Q.elems s.pending, gvt ≤ ev.ts) :
    ∃ t, exec (adoptGvt model cfg gvt) s = (.ok (), t) ∧ Collected s t := by
  unfold adoptGvt
  rw [exec_get_bind, exec_ite]
  split
  · exact ⟨_, rfl, collected_validate cfg s⟩
  · next hle =>
    have hraised := collected_raiseGvt (not_lt.mp hle) hpending
    have hpruned := hraised.trans (collected_prune cfg (le_refl gvt))
    have halone := h.collected hpruned
    obtain ⟨t, hnotify, hcollected⟩ := exec_notifyDirectoriesGvt cfg halone.directories gvt
    rw [exec_modify_bind, exec_bind_of_ok (exec_applyReadyMigrations halone.migrations),
      exec_bind_of_ok hnotify]
    exact ⟨_, rfl, (hpruned.trans hcollected).trans (collected_validate cfg t)⟩

variable (model) in
theorem exec_fossilCollect (hcfg : SingleRank cfg) (env : Environment) (doGlobalReduction : Bool)
    {s : Simulation Q σ} (h : Alone s) :
    ∃ t, exec (fossilCollect model cfg env doGlobalReduction) s = (.ok (), t) ∧ Collected s t := by
  have hpruned := (collected_validate cfg s).trans
    (collected_prune cfg (le_refl (validateInvariants cfg s).lastGvt))
  have halone := h.collected hpruned
  set s₁ := pruneToGvt cfg (validateInvariants cfg s).lastGvt (validateInvariants cfg s) with hs₁
  have hprune : exec (fossilPrune model cfg) (validateInvariants cfg s) = (.ok (), s₁) := by
    unfold fossilPrune
    rw [exec_modify_bind]
    exact exec_applyReadyMigrations halone.migrations
  unfold fossilCollect
  rw [exec_modify_bind, exec_ite, if_neg (by simp [hcfg.ranks]), exec_bind_of_ok hprune, exec_ite,
    if_neg (by simp [hcfg.ranks]), exec_ite]
  split
  · have hadvance : exec (advanceGvtColored cfg env) s₁ = (.ok (), s₁) := by
      unfold advanceGvtColored
      rw [exec_ite, if_pos (by simp [hcfg.reduceMin])]
      rfl
    obtain ⟨t, hnotify, hcollected⟩ := exec_notifyDirectoriesGvt cfg halone.directories s₁.lastGvt
    unfold afterAdvance
    rw [exec_bind_of_ok hadvance, exec_bind_of_ok (exec_applyReadyMigrations halone.migrations),
      exec_get_bind, exec_bind_of_ok hnotify]
    exact ⟨_, rfl, (hpruned.trans hcollected).trans (collected_validate cfg t)⟩
  · have hscan : peekScan s₁ = s₁ := halone.discardPending fun _ hev => hev
    have hbound : ∀ ev ∈ Q.elems s₁.pending, localBound cfg s₁ ≤ ev.ts := (localBound_le s₁).2.1
    rw [exec_bind_of_ok (exec_computeGvt s₁), hscan]
    simp only [hcfg.reduceMin, Bool.false_eq_true, if_false]
    obtain ⟨t, hadopt, hcollected⟩ := exec_adoptGvt model cfg halone hbound
    exact ⟨t, hadopt, hpruned.trans hcollected⟩

/-! ## Starting -/

/-- `on_start` may have been called, which has changed the states of the LPs. -/
structure Prepared (model : Model σ) (s t : Simulation Q σ) : Prop where
  rest : t = { s with started := t.started, ctx := t.ctx }
  ctx : ∀ id, t.ctx id = { s.ctx id with lp := (t.ctx id).lp }
  lp : ∀ id, (∀ st, (model id).onStart st = .done st) → (t.ctx id).lp = (s.ctx id).lp

theorem Prepared.refl (s : Simulation Q σ) : Prepared model s s := ⟨rfl, fun _ => rfl, fun _ _ => rfl⟩

theorem Prepared.trans {s t u : Simulation Q σ} (h : Prepared model s t) (h' : Prepared model t u) :
    Prepared model s u where
  rest := by rw [h'.rest, h.rest]
  ctx id := by rw [h'.ctx, h.ctx]
  lp id hstart := (h'.lp id hstart).trans (h.lp id hstart)

theorem exec_startAll (hmodel : TameModel cfg model) (ids : List LPId) (s : Simulation Q σ) :
    ∃ t, exec (startAll model cfg ids) s = (.ok (), t) ∧ Prepared model s t := by
  induction ids generalizing s with
  | nil => exact ⟨s, rfl, .refl s⟩
  | cons id ids ih =>
      obtain ⟨st, hst⟩ := hmodel.starts id (s.ctx id).lp
      obtain ⟨t, hexec, hprepared⟩ := ih (setLp id st s)
      have hset : Prepared model s (setLp id st s) := by
        refine ⟨rfl, fun i => ?_, fun i hstart => ?_⟩
        · by_cases hi : i = id
          · subst hi
            rw [setLp_self]
          · rw [setLp_of_ne s st hi]
        · by_cases hi : i = id
          · subst hi
            have hsame : st = (s.ctx i).lp := by simpa using hst.symm.trans (hstart _)
            rw [setLp_self]
            exact hsame
          · rw [setLp_of_ne s st hi]
      refine ⟨t, ?_, hset.trans hprepared⟩
      unfold startAll
      rw [exec_get_bind, hst]
      unfold runStarter
      rw [exec_modify_bind]
      exact hexec

theorem exec_startIfNeeded (hmodel : TameModel cfg model) (s : Simulation Q σ) :
    ∃ t, exec (startIfNeeded model cfg) s = (.ok (), t) ∧ Prepared model s t := by
  unfold startIfNeeded
  rw [exec_get_bind, exec_ite]
  split
  · exact ⟨s, rfl, .refl s⟩
  · obtain ⟨t, hexec, hprepared⟩ := exec_startAll hmodel s.lpIds { s with started := true }
    have hmarked : Prepared model s { s with started := true } := ⟨rfl, fun _ => rfl, fun _ _ => rfl⟩
    rw [exec_modify_bind]
    exact ⟨t, hexec, hmarked.trans hprepared⟩

theorem Alone.prepared {s t : Simulation Q σ} (h : Alone s) (hp : Prepared model s t) : Alone t := by
  obtain ⟨hrest, hctx, -⟩ := hp
  rw [hrest]
  refine ⟨h.pending, h.deferred, fun id rec hrec => ?_, h.cancelled, fun id => ?_, h.migrations, h.directories,
    h.inflight⟩
  · dsimp only at hrec
    rw [hctx] at hrec
    exact h.processed id rec hrec
  · dsimp only
    rw [hctx]
    exact h.logs id

/-! ## A whole turn -/

theorem restoreTombstone_of_positive (records : List ProcessedRecord)
    (h : ∀ rec ∈ records, rec.ev.isAnti = false) (cancelled : UidKey → Option TimeStamp) :
    records.foldl restoreTombstone cancelled = cancelled := by
  induction records generalizing cancelled with
  | nil => rfl
  | cons rec records ih =>
      have hrec : restoreTombstone cancelled rec = cancelled := by
        unfold restoreTombstone
        rw [if_neg (by simp [h rec List.mem_cons_self])]
      rw [List.foldl_cons, hrec]
      exact ih (fun r hr => h r (List.mem_cons_of_mem _ hr)) cancelled

theorem mem_push {q : Q.Carrier} {ev e : Event} (h : e ∈ Q.elems (Q.push q ev)) :
    e = ev ∨ e ∈ Q.elems q := by
  rw [Q.elems_push] at h
  exact Multiset.mem_cons.mp h

/-- The context of an LP after an execution. -/
theorem ran_ctx (ev : Event) (rec : ProcessedRecord) (st : σ) (s : Simulation Q σ) :
    (ran ev rec st s).ctx = Function.update s.ctx ev.dst { s.ctx ev.dst with
      lp := st
      vt := ev.ts
      inEvent := false
      currentExecTs := ev.ts
      processed := (s.ctx ev.dst).processed ++ [rec]
      executed := (s.ctx ev.dst).executed ++ [rec] } := by
  simp [ran, pushProcessed, left, setLp, entered, modifyCtx]

theorem putOff_ctx (ev : Event) (st : σ) (s : Simulation Q σ) :
    (putOff ev st s).ctx = Function.update s.ctx ev.dst { s.ctx ev.dst with
      lp := st
      inEvent := false
      currentExecTs := (s.ctx ev.dst).vt } := by
  simp [putOff, deferTargetedEvent, left, setLp, entered, modifyCtx]

theorem Alone.pop {ev : Event} {s : Simulation Q σ} (h : Alone s) (htop : Q.top? s.pending = some ev) :
    Alone (popped ev s) :=
  ⟨fun e he => h.pending e (mem_pop htop he), h.deferred, h.processed, h.cancelled, h.logs,
    h.migrations, h.directories, h.inflight⟩

theorem Alone.enqueue {ev : Event} {s : Simulation Q σ} (h : Alone s)
    (hev : ev.isAnti = false ∧ ev.dst ∈ s.lpIds) : Alone (s.enqueue ev) := by
  refine ⟨fun e he => ?_, h.deferred, h.processed, h.cancelled, h.logs, h.migrations, h.directories, h.inflight⟩
  rcases mem_push he with rfl | he
  · exact hev
  · exact h.pending e he

theorem Alone.ran {ev : Event} {rec : ProcessedRecord} {s : Simulation Q σ} (h : Alone s) (st : σ)
    (hev : ev.isAnti = false ∧ ev.dst ∈ s.lpIds) (hrec : rec.ev = ev) : Alone (ran ev rec st s) := by
  refine ⟨h.pending, h.deferred, fun id r hr => ?_, h.cancelled, fun id => ?_, h.migrations, h.directories,
    h.inflight⟩
  · rw [ran_ctx] at hr
    rcases mem_update_processed hr with hold | ⟨rfl, hself⟩
    · exact h.processed id r hold
    · rcases mem_append_singleton hself with hold | rfl
      · exact h.processed _ r hold
      · rw [hrec]
        exact ⟨hev.1, rfl, hev.2⟩
  · rw [ran_ctx]
    by_cases hid : id = ev.dst
    · rw [hid, Function.update_self]
      exact h.logs ev.dst
    · rw [Function.update_of_ne hid]
      exact h.logs id

theorem Alone.released {s : Simulation Q σ} (h : Alone s) (ev : Event) : Alone (released ev s) := by
  have hrest := released_eq ev s
  refine ⟨fun e he => ?_, fun e he => ?_, fun id rec hrec => ?_, ?_, ?_, ?_, ?_, ?_⟩
  · rw [hrest]
    exact (mem_released_pending he).elim (h.pending e) (h.deferred e)
  · rw [hrest]
    exact h.deferred e (mem_released_deferred he)
  · rw [hrest] at hrec ⊢
    exact h.processed id rec hrec
  · rw [hrest]; exact h.cancelled
  · rw [hrest]; exact h.logs
  · rw [hrest]; exact h.migrations
  · rw [hrest]; exact h.directories
  · rw [hrest]; exact h.inflight

theorem Alone.putOff {ev : Event} {s : Simulation Q σ} (h : Alone s) (st : σ)
    (hev : ev.isAnti = false ∧ ev.dst ∈ s.lpIds) : Alone (putOff ev st s) := by
  refine ⟨h.pending, fun e he => ?_, fun id r hr => ?_, h.cancelled, fun id => ?_, h.migrations, h.directories,
    h.inflight⟩
  · rcases mem_deferTargetedEvent he with he | rfl
    · exact h.deferred e he
    · exact hev
  · rw [putOff_ctx] at hr
    rcases mem_update_processed hr with hold | ⟨rfl, hself⟩
    · exact h.processed id r hold
    · exact h.processed ev.dst r hself
  · rw [putOff_ctx]
    by_cases hid : id = ev.dst
    · rw [hid, Function.update_self]
      exact h.logs ev.dst
    · rw [Function.update_of_ne hid]
      exact h.logs id

theorem Alone.unwound {s : Simulation Q σ} (h : Alone s) (id : LPId) (target : TimeStamp) :
    Alone (unwound model id target s) := by
  have hpositive : ∀ rec ∈ (undoneRecords target (s.ctx id).processed).reverse, rec.ev.isAnti = false := by
    intro rec hrec
    exact (h.processed id rec ((List.rtakeWhile_suffix _ _).subset (List.mem_reverse.mp hrec))).1
  refine ⟨fun e he => ?_, ?_, fun i rec hrec => ?_, fun key => ?_, fun i => ?_, ?_, ?_, ?_⟩
  · rw [unwound_lpIds]
    rcases mem_unwound_pending he with he | ⟨rec, hrec, rfl⟩
    · exact h.pending e he
    · obtain ⟨hanti, hdst, hid⟩ := h.processed id rec hrec
      exact ⟨hanti, hdst.symm ▸ hid⟩
  · rw [unwound_eq]; exact h.deferred
  · rw [unwound_lpIds]
    exact h.processed i rec (mem_unwound_processed hrec)
  · rw [unwound_eq]
    dsimp only
    rw [restoreTombstone_of_positive _ hpositive]
    exact h.cancelled key
  · rw [unwound_ctx]
    by_cases hi : i = id
    · rw [hi, Function.update_self, LPContext.rewind_eq]
      exact h.logs id
    · rw [Function.update_of_ne hi]
      exact h.logs i
  · rw [unwound_eq]; exact h.migrations
  · rw [unwound_eq]; exact h.directories
  · rw [unwound_eq]; exact h.inflight

theorem Alone.dealt {ev : Event} {s t : Simulation Q σ} (h : Alone s)
    (htop : Q.top? s.pending = some ev) (hd : Dealt model cfg ev (popped ev s) t) : Alone t := by
  have hev := h.pending ev (by rw [Q.elems_pop _ _ htop]; exact Multiset.mem_cons_self _ _)
  have hpop := h.pop htop
  cases hd with
  | executed _ hrec _ =>
      have hran := hpop.ran (outcomeOf model ev (popped ev s)).2 hev hrec
      unfold executed
      split
      · exact hran.released ev
      · exact hran
  | putOff => exact hpop.putOff _ hev
  | straggled =>
      refine (hpop.unwound ev.dst ev.ts).enqueue ⟨hev.1, ?_⟩
      rw [unwound_lpIds]
      exact hev.2

/-- What a turn of the loop deals with: the front of the queue, if there is one. -/
inductive TurnTo (model : Model σ) (cfg : SimulationConfig) (s : Simulation Q σ) :
    Simulation Q σ → Prop where
  | empty : Q.top? s.pending = none → TurnTo model cfg s s
  | front {ev t} : Q.top? s.pending = some ev → Dealt model cfg ev (popped ev s) t → TurnTo model cfg s t

theorem localHasWork_alone (hcfg : SingleRank cfg) {env : Environment} (henv : env.hasPending = false)
    {s : Simulation Q σ} (h : Alone s) (doCollectives : Bool) :
    localHasWork cfg env doCollectives s = decide (Q.elems s.pending ≠ 0) := by
  have hsize : (Q.size s.pending ≠ 0) = (Q.elems s.pending ≠ 0) := by
    rw [Q.size_eq, Ne, Multiset.card_eq_zero]
  unfold localHasWork
  simp [henv, h.inflight, hcfg.reduceSum, hcfg.anyWork, hsize]

theorem exec_runIteration (hmodel : TameModel cfg model) (hcfg : SingleRank cfg)
    (hbuf : cfg.enableInstallBeforeUseBuffering = true) {env : Environment} (hpolled : env.polled = [])
    (henv : env.hasPending = false) (iters : ℕ) {s : Simulation Q σ} (h : Alone s) :
    ∃ s' t u, Prepared model s s' ∧ TurnTo model cfg s' t ∧ Collected t u ∧ Alone u ∧
      exec (runIteration model cfg env iters) s =
        if Q.elems u.pending ≠ 0 then (.ok true, u)
        else exec (finalizeAtEnd model cfg env >>= fun _ => pure false) u := by
  obtain ⟨s', hstart, hprepared⟩ := exec_startIfNeeded hmodel s
  have hs' := h.prepared hprepared
  have hpoll : exec (pollTransport model cfg env.polled) s' = (.ok (), s') := by
    rw [hpolled]
    rfl
  obtain ⟨t, t', moved, hturn, hnext, hnoted⟩ : ∃ t t' moved, TurnTo model cfg s' t ∧
      exec (dispatchNext model cfg) s' = (.ok moved, t') ∧ Collected t t' := by
    rcases exec_dispatchNext hmodel hbuf hs' with ⟨htop, hexec⟩ | ⟨ev, c, b, t, htop, hexec, hdealt⟩
    · exact ⟨s', s', false, .empty htop, hexec, collected_of_rest rfl⟩
    · exact ⟨t, note c b t, true, .front htop hdealt, hexec, collected_of_rest rfl⟩
  have halone : Alone t := by
    cases hturn with
    | empty => exact hs'
    | front htop hdealt => exact hs'.dealt htop hdealt
  obtain ⟨u, hfossil, hcollected⟩ := exec_fossilCollect model hcfg env
    (iters % cfg.period == 0) (halone.collected hnoted)
  have hu := (halone.collected hnoted).collected hcollected
  refine ⟨s', t, u, hprepared, hturn, hnoted.trans hcollected, hu, ?_⟩
  unfold runIteration
  rw [exec_bind_of_ok hstart, exec_bind_of_ok hpoll, exec_bind_of_ok hnext, exec_bind_of_ok hfossil,
    exec_get_bind]
  dsimp only
  rw [exec_ite, if_neg (by simp [hcfg.anyWork]), exec_ite, localHasWork_alone hcfg henv hu]
  simp only [decide_eq_true_eq]
  rfl

end WarpSim

import WarpSim.Verification.Contexts
import WarpSim.Verification.Migration.Cutover

/-! # What a rollback leaves of a migration

A migration changes the state of an LP outside all events. A rollback of the LP to a snapshot taken
before takes the change back. -/

namespace WarpSim

variable {Q : EventQueue} {σ : Type} {sound final : Prop} {model : Model σ} {cfg : SimulationConfig}

open Simulation

/-! ## The contract of the LP -/

/-- The handler may call `request_write` in the state. -/
inductive Handler.Writes : Handler σ → σ → Prop where
  | here (state entity next) : Writes (.requestWrite state entity next) state
  | send {ev next state} (r) : Writes (next r) state → Writes (.send ev next) state
  | write {st entity next state} : Writes next state → Writes (.requestWrite st entity next) state
  | emit {ts payload next state} (r) : Writes (next r) state →
      Writes (.emitCommitted ts payload next) state

/-- The migration gives the LP what `Has` says it has, and nothing that the LP itself does, nor
another migration, nor a snapshot of a state that has it, takes it away. -/
structure Retains (lp : LogicalProcess σ) (mig : Migration) (Has : σ → Prop) : Prop where
  installs : ∀ st, Has (lp.onMigration st mig.entity mig.state)
  migrates : ∀ st entity bytes, entity ≠ mig.entity → Has st → Has (lp.onMigration st entity bytes)
  starts : ∀ st st', Has st → (lp.onStart st).Ends st' → Has st'
  handles : ∀ st ev st', Has st → (lp.onEvent st ev).Ends st' → Has st'
  writes : ∀ st ev st', Has st → (lp.onEvent st ev).Writes st' → Has st'
  loads : ∀ saved st, Has saved → Has (lp.loadState st (lp.saveState saved))
  reloads : ∀ saved st, Has saved → Has st →
    Has (lp.loadEntity st mig.entity (lp.saveEntity saved mig.entity))
  others : ∀ st entity bytes, entity ≠ mig.entity → Has st → Has (lp.loadEntity st entity bytes)

/-- The record has no snapshot that covers the entity. -/
def ProcessedRecord.Spares (entity : EntityId) (rec : ProcessedRecord) : Prop :=
  rec.hasLpSnapshot = false ∧ entity ∉ rec.preEntityState.map Prod.fst

instance (entity : EntityId) (rec : ProcessedRecord) : Decidable (rec.Spares entity) :=
  inferInstanceAs (Decidable (_ ∧ _))

/-- The snapshots in the record that cover the entity are of states that have it. -/
structure ProcessedRecord.Bears (lp : LogicalProcess σ) (entity : EntityId) (Has : σ → Prop)
    (rec : ProcessedRecord) : Prop where
  state : rec.hasLpSnapshot = true → ∃ saved, Has saved ∧ rec.preLpState = lp.saveState saved
  entity : ∀ bytes, (entity, bytes) ∈ rec.preEntityState →
    ∃ saved, Has saved ∧ bytes = lp.saveEntity saved entity

variable {lp : LogicalProcess σ} {mig : Migration} {Has : σ → Prop}

theorem ProcessedRecord.Spares.bears {entity : EntityId} {rec : ProcessedRecord}
    (h : rec.Spares entity) : rec.Bears lp entity Has := by
  refine ⟨fun hsnap => ?_, fun bytes hmem => ?_⟩
  · exact absurd (h.1.symm.trans hsnap) (by simp)
  · exact absurd (List.mem_map_of_mem hmem) h.2

/-! ## Taking and restoring snapshots -/

theorem ProcessedRecord.Bears.requestWrite {entity id : EntityId} {state : σ} {rec : ProcessedRecord}
    (h : rec.Bears lp entity Has) (hstate : Has state) :
    (WarpSim.requestWrite lp state id rec).Bears lp entity Has := by
  unfold WarpSim.requestWrite
  split
  · exact h
  · split
    · refine ⟨h.state, fun bytes hmem => ?_⟩
      rcases List.mem_append.mp hmem with hmem | hmem
      · exact h.entity bytes hmem
      · cases List.mem_singleton.mp hmem
        exact ⟨state, hstate, rfl⟩
    · split
      · exact h
      · exact ⟨fun _ => ⟨state, hstate, rfl⟩, h.entity⟩

theorem Handler.Run.bears {entity : EntityId} {handler : Handler σ} {rec rec' : ProcessedRecord}
    {calls : List (Event × Except String Event)} {state : σ}
    (hrun : Handler.Run lp handler rec calls state rec') (hwrites : ∀ st, handler.Writes st → Has st)
    (h : rec.Bears lp entity Has) : rec'.Bears lp entity Has := by
  induction hrun with
  | done => exact h
  | send _ ih => exact ih (fun st hst => hwrites st (.send _ hst)) ⟨h.state, h.entity⟩
  | write _ ih =>
      exact ih (fun st hst => hwrites st (.write hst)) (h.requestWrite (hwrites _ (.here _ _ _)))
  | emit _ _ ih => exact ih (fun st hst => hwrites st (.emit _ hst)) ⟨h.state, h.entity⟩
  | emitRefused _ _ ih => exact ih (fun st hst => hwrites st (.emit _ hst)) h

theorem Retains.restoreLpState (h : Retains lp mig Has) {undone : List ProcessedRecord}
    (hbears : ∀ rec ∈ undone, rec.Bears lp mig.entity Has) {state : σ} (hstate : Has state) :
    Has (WarpSim.restoreLpState lp undone state) := by
  unfold WarpSim.restoreLpState
  split
  · next snap hsnap =>
    have hmem := List.mem_of_find?_eq_some hsnap
    have hhas := List.find?_some hsnap
    obtain ⟨saved, hsaved, hbytes⟩ := (hbears snap hmem).state hhas
    rw [hbytes]
    exact h.loads saved state hsaved
  · exact hstate

theorem Retains.restoreEntities (h : Retains lp mig Has) (entries : List (EntityId × ByteBuffer))
    (hentries : ∀ bytes, (mig.entity, bytes) ∈ entries →
      ∃ saved, Has saved ∧ bytes = lp.saveEntity saved mig.entity)
    (restored : List EntityId) {state : σ} (hstate : Has state) :
    Has (WarpSim.restoreEntities lp entries restored state) := by
  induction entries generalizing restored state with
  | nil => exact hstate
  | cons entry rest ih =>
      obtain ⟨id, bytes⟩ := entry
      have hrest := ih fun bytes hmem => hentries bytes (List.mem_cons_of_mem _ hmem)
      unfold WarpSim.restoreEntities
      split
      · exact hrest restored hstate
      · refine hrest _ ?_
        by_cases hid : id = mig.entity
        · subst hid
          obtain ⟨saved, hsaved, rfl⟩ := hentries bytes List.mem_cons_self
          exact h.reloads saved state hsaved hstate
        · exact h.others state id bytes hid hstate

theorem Retains.restoreState (h : Retains lp mig Has) {undone : List ProcessedRecord}
    (hbears : ∀ rec ∈ undone, rec.Bears lp mig.entity Has) {state : σ} (hstate : Has state) :
    Has (WarpSim.restoreState lp undone state) := by
  have hlp := h.restoreLpState hbears hstate
  unfold WarpSim.restoreState
  dsimp only
  split
  · refine h.restoreEntities _ (fun bytes hmem => ?_) [] hlp
    obtain ⟨rec, hrec, hin⟩ := List.mem_flatMap.mp hmem
    exact (hbears rec hrec).entity bytes hin
  · exact hlp

/-! ## The invariant -/

/-- The undone records from before the migration spare the entity. -/
def SparedSince (mig : Migration) (n k : ℕ) (s : Simulation Q σ) : Prop :=
  ∀ rec ∈ (s.ctx mig.newOwner).undone.drop k, rec.serial < n → rec.Spares mig.entity

instance (n k : ℕ) (s : Simulation Q σ) : Decidable (SparedSince mig n k s) :=
  inferInstanceAs (Decidable (∀ rec ∈ (s.ctx mig.newOwner).undone.drop k,
    rec.serial < n → rec.Spares mig.entity))

variable {n k : ℕ}

theorem SparedSince.of_prefix {s s' : Simulation Q σ} (h : SparedSince mig n k s')
    (hle : (s.ctx mig.newOwner).undone <+: (s'.ctx mig.newOwner).undone) : SparedSince mig n k s :=
  fun rec hrec => h rec ((hle.drop k).subset hrec)

theorem newRecord_bears {entity : EntityId} (ev : Event) (c : LPContext σ) :
    (newRecord ev c).Bears lp entity Has :=
  ProcessedRecord.Spares.bears ⟨rfl, by simp [newRecord]⟩

theorem antiRecord_bears {entity : EntityId} (ev : Event) (s : Simulation Q σ) :
    (antiRecord ev s).Bears lp entity Has := by
  refine ProcessedRecord.Spares.bears ?_
  unfold antiRecord
  split
  · exact ⟨rfl, by simp [newRecord]⟩
  · exact ⟨rfl, by simp [newRecord]⟩

/-- The state, and what has been executed and undone, of the new owner. -/
structure OwnerHas (lp : LogicalProcess σ) (mig : Migration) (Has : σ → Prop) (n k : ℕ)
    (c : LPContext σ) : Prop where
  has : Has c.lp
  since : n ≤ c.executed.length
  undone : k ≤ c.undone.length
  records : ∀ rec ∈ c.processed, n ≤ rec.serial → rec.Bears lp mig.entity Has

theorem OwnerHas.setLp {c : LPContext σ} (h : OwnerHas lp mig Has n k c) {state : σ} (hstate : Has state) :
    OwnerHas lp mig Has n k { c with lp := state } :=
  ⟨hstate, h.since, h.undone, h.records⟩

theorem OwnerHas.push {c c' : LPContext σ} (h : OwnerHas lp mig Has n k c) {rec : ProcessedRecord}
    (hrec : rec.Bears lp mig.entity Has) (hlp : c'.lp = c.lp) (hundone : c'.undone = c.undone)
    (hexec : c'.executed = c.executed ++ [rec]) (hproc : c'.processed = c.processed ++ [rec]) :
    OwnerHas lp mig Has n k c' := by
  refine ⟨?_, ?_, ?_, fun r hr hn => ?_⟩
  · rw [hlp]; exact h.has
  · rw [hexec, List.length_append]
    exact h.since.trans (Nat.le_add_right _ _)
  · rw [hundone]; exact h.undone
  · rw [hproc] at hr
    rcases mem_append_singleton hr with hr | rfl
    · exact h.records r hr hn
    · exact hrec

/-- A rollback restores a state that has what the migration gave. -/
theorem OwnerHas.rewind {c : LPContext σ} (hret : Retains lp mig Has) (h : OwnerHas lp mig Has n k c)
    {target : TimeStamp}
    (hspared : ∀ rec ∈ (c.rewind lp target).undone.drop k, rec.serial < n → rec.Spares mig.entity) :
    OwnerHas lp mig Has n k (c.rewind lp target) := by
  have hundone : (c.rewind lp target).undone = c.undone ++ undoneRecords target c.processed := by
    rw [LPContext.rewind_eq]
  have hbears : ∀ rec ∈ undoneRecords target c.processed, rec.Bears lp mig.entity Has := by
    intro rec hrec
    rcases le_or_gt n rec.serial with hn | hn
    · exact h.records rec ((List.rtakeWhile_suffix _ _).subset hrec) hn
    · refine (hspared rec ?_ hn).bears
      rw [hundone, List.drop_append_of_le_length h.undone]
      exact List.mem_append_right _ hrec
  refine ⟨?_, ?_, ?_, fun rec hrec => ?_⟩
  · rw [rewind_lp]
    exact hret.restoreState hbears h.has
  · rw [rewind_executed]
    exact h.since
  · rw [hundone, List.length_append]
    exact h.undone.trans (Nat.le_add_right _ _)
  · rw [LPContext.rewind_eq] at hrec
    exact h.records rec ((List.rdropWhile_prefix _ _).subset hrec)

/-- The new owner has what the migration gave it, and the handlers have had it since. -/
structure RetainedInv (model : Model σ) (mig : Migration) (Has : σ → Prop) (n k : ℕ)
    (x : Situation Q σ) : Prop where
  known : mig.newOwner ∈ x.state.lpIds
  owner : OwnerHas (model mig.newOwner) mig Has n k (x.state.ctx mig.newOwner)
  running : ∀ before ev calls, x.activity = .executing before ev calls → ev.dst = mig.newOwner →
    Has before.lp
  annulling : ∀ rec, x.activity.stage = .undoing rec → rec.Bears (model mig.newOwner) mig.entity Has

/-- A move after the migration, which does not apply another one of the entity. -/
theorem Move.retainedInv (hret : Retains (model mig.newOwner) mig Has) {x y : Situation Q σ}
    (hm : Move model cfg x y) (h : RetainedInv model mig Has n k x)
    (hlast : ∀ m a b, y.state.hist.migrations = x.state.hist.migrations ++ [.applied m a b] →
      m.entity ≠ mig.entity)
    (hspared : SparedSince mig n k y.state) : RetainedInv model mig Has n k y := by
  have hrunning : ∀ before ev calls, x.activity = .executing before ev calls →
      ev.dst = mig.newOwner → Has before.lp := h.running
  refine ⟨hm.lpIds_subset h.known, ?_, fun before ev calls hy hdst => ?_, fun rec hy => ?_⟩
  · have howner := h.owner
    unfold SparedSince at hspared
    cases hm.lpStep mig.newOwner with
    | same hsame =>
        exact ⟨hsame.lp ▸ howner.has, hsame.executed ▸ howner.since, hsame.undone ▸ howner.undone,
          hsame.processed ▸ howner.records⟩
    | registered hid => exact absurd h.known hid
    | prepared state _ hends hy =>
        rw [hy]
        exact howner.setLp (hret.starts _ _ howner.has hends)
    | migrated m hm hlog hy =>
        rw [hy]
        exact howner.setLp (hret.migrates _ _ _ (hlast m _ _ hlog) howner.has)
    | entered ev hdst hact hy =>
        rw [hy]
        exact ⟨howner.has, howner.since, howner.undone, howner.records⟩
    | stored before ev calls state hdst hact hends hy =>
        rw [hy]
        exact howner.setLp (hret.handles _ _ _ (hrunning _ _ _ hact hdst) hends)
    | finished before ev calls rec hdst hact hrun hy =>
        rw [hy]
        refine howner.push (hrun.bears (fun st hst => ?_) (newRecord_bears ev before)) rfl rfl rfl rfl
        exact hret.writes _ ev st (hrunning _ _ _ hact hdst) hst
    | deferred before ev calls hdst hact hy =>
        rw [hy]
        exact ⟨howner.has, howner.since, howner.undone, howner.records⟩
    | aborted before ev calls hdst hact hy =>
        rw [hy]
        exact ⟨howner.has, howner.since, howner.undone, howner.records⟩
    | settled rec hdst hact hy =>
        rw [hy]
        exact howner.push (h.annulling rec (by rw [hact]; rfl)) rfl rfl rfl rfl
    | rewound target hy =>
        rw [hy] at hspared ⊢
        exact howner.rewind hret hspared
  · rcases hm.executing_cases hy with ⟨calls', hx⟩ | rfl
    · exact hrunning before ev calls' hx hdst
    · rw [hdst]
      exact h.owner.has
  · rcases hm.undoing_cases hy with hx | ⟨ev, rfl⟩
    · exact h.annulling rec hx
    · exact antiRecord_bears ev _

theorem GvtMove.retainedInv {x y : Situation Q σ} (hm : GvtMove sound final cfg x y)
    (h : RetainedInv model mig Has n k x) : RetainedInv model mig Has n k y := by
  have hidle := hm.activity_eq
  refine ⟨?_, ?_, fun before ev calls hy => ?_, fun rec hy => ?_⟩
  · cases hm <;> exact h.known
  · have howner := h.owner
    rcases hm.ctx_cases mig.newOwner with hctx | ⟨gvt, hctx⟩
    · rw [hctx]
      exact howner
    · rw [hctx]
      exact ⟨howner.has, howner.since, howner.undone,
        fun rec hrec => howner.records rec ((List.dropWhile_sublist _).subset hrec)⟩
  · rw [hidle] at hy
    cases hy
  · rw [hidle] at hy
    cases hy

/-! ## Runs -/

/-- The move that applies a migration. -/
theorem Move.applied_eq {x y : Situation Q σ} (h : Move model cfg x y)
    (hlog : y.state.hist.migrations = x.state.hist.migrations ++ [.applied mig n k]) :
    mig.newOwner ∈ x.state.lpIds ∧ n = (x.state.ctx mig.newOwner).executed.length ∧
      k = (x.state.ctx mig.newOwner).undone.length ∧
      ∃ rest, y = ⟨.idle, [], takeOver model mig { x.state with pendingMigrations := rest }⟩ := by
  have hne : ∀ log : List MigrationStep, log ≠ log ++ [.applied mig n k] := fun log => by simp
  cases h with
  | quiet hq => rw [hq] at hlog; exact absurd hlog (hne _)
  | receive => rw [receiveEvent_eq] at hlog; exact absurd hlog (hne _)
  | acknowledge => rw [receiveAck_eq] at hlog; exact absurd hlog (hne _)
  | sent => rw [posted_eq] at hlog; exact absurd hlog (hne _)
  | unlogged => rw [posted_eq] at hlog; exact absurd hlog (hne _)
  | straggle => rw [unwound_eq] at hlog; exact absurd hlog (hne _)
  | matched => rw [unwound_eq] at hlog; exact absurd hlog (hne _)
  | release => rw [released_eq] at hlog; exact absurd hlog (hne _)
  | annul => rw [posted_eq] at hlog; exact absurd hlog (hne _)
  | queueMigration => exact absurd (List.append_cancel_left hlog) (by simp)
  | migrate _ _ hknown =>
      have hstep := List.append_cancel_left hlog
      rw [List.cons.injEq, MigrationStep.applied.injEq] at hstep
      obtain ⟨⟨rfl, rfl, rfl⟩, -⟩ := hstep
      exact ⟨hknown, rfl, rfl, _, rfl⟩
  | _ => exact absurd hlog (hne _)

theorem retainedInv_takeOver (hret : Retains (model mig.newOwner) mig Has) {s : Simulation Q σ}
    {rest : List Migration} (hl : LedgerInv mig.newOwner (s.ctx mig.newOwner)) (hknown : mig.newOwner ∈ s.lpIds) :
    RetainedInv model mig Has (s.ctx mig.newOwner).executed.length (s.ctx mig.newOwner).undone.length
      ⟨.idle, [], takeOver model mig { s with pendingMigrations := rest }⟩ := by
  have hctx : (takeOver model mig { s with pendingMigrations := rest }).ctx mig.newOwner =
      { s.ctx mig.newOwner with
        lp := (model mig.newOwner).onMigration (s.ctx mig.newOwner).lp mig.entity mig.state } :=
    setLp_self ..
  refine ⟨hknown, ?_, nofun, nofun⟩
  dsimp only
  rw [hctx]
  refine ⟨hret.installs _, le_refl _, le_refl _, fun rec hrec hn => ?_⟩
  have hserial : rec.serial ∈ (s.ctx mig.newOwner).executed.map (·.serial) :=
    List.mem_map_of_mem (hl.processed_sub hrec)
  rw [hl.serials, List.mem_range] at hserial
  exact absurd hserial (not_lt.mpr hn)

theorem MigrationCase.log_cases {s s' : Simulation Q σ} (h : MigrationCase s s') :
    s'.hist.migrations = s.hist.migrations ∨
      ∃ step, s'.hist.migrations = s.hist.migrations ++ [step] := by
  cases h with
  | same hs => exact Or.inl hs.log
  | arrived mig hs => exact Or.inr ⟨_, hs.log⟩
  | applied mig rest _ hs => exact Or.inr ⟨_, hs.log⟩
  | dropped mig rest _ hs => exact Or.inl hs.log

/-- From the move that applies a migration on, its new owner has what it gave. -/
theorem AllMoves.retainedInv (hret : Retains (model mig.newOwner) mig Has) {y : Situation Q σ}
    (h : AllMoves sound final model cfg (Simulation.create Q model).atRest y)
    {before after : List MigrationStep} {n k : ℕ}
    (hlog : y.state.hist.migrations = before ++ .applied mig n k :: after)
    (hlast : applied mig.entity after = []) (hspared : SparedSince mig n k y.state) :
    RetainedInv model mig Has n k y := by
  induction h generalizing before after n k with
  | refl => exact absurd hlog (by simp [atRest, Simulation.create])
  | @tail x y hmoves hm ih =>
      have hbooks := AllMoves.booksInv hmoves booksInv_create
      rcases hm with hm | hm
      · have hbefore : SparedSince mig n k x.state := hspared.of_prefix (hm.undone_prefix hbooks _)
        rcases hm.migrationCase.log_cases with hsame | ⟨step, hstep⟩
        · refine hm.retainedInv hret (ih (hsame ▸ hlog) hlast hbefore) (fun m a b hm => ?_) hspared
          rw [hsame] at hm
          exact absurd hm (by simp)
        · rw [hstep] at hlog
          rcases List.eq_nil_or_concat after with rfl | ⟨after, turn', rfl⟩
          · obtain ⟨hx, hlast'⟩ := List.append_inj' hlog rfl
            rw [List.singleton_inj.mp hlast'] at hstep
            obtain ⟨hknown, rfl, rfl, rest, rfl⟩ := hm.applied_eq hstep
            exact retainedInv_takeOver hret (hbooks.ledger _) hknown
          · rw [List.concat_eq_append, ← List.cons_append, ← List.append_assoc] at hlog
            obtain ⟨hx, hlast'⟩ := List.append_inj' hlog rfl
            rw [List.concat_eq_append, applied_append] at hlast
            obtain ⟨hafter, hnew⟩ := List.append_eq_nil_iff.mp hlast
            refine hm.retainedInv hret (ih hx hafter hbefore) (fun m a b hm => ?_) hspared
            rw [hstep] at hm
            rw [← List.singleton_inj.mp hlast', List.append_cancel_left hm] at hnew
            intro hentity
            rw [applied_applied, if_pos hentity] at hnew
            cases hnew
      · have hsame := hm.sameMigrations.log
        have hbefore : SparedSince mig n k x.state := hspared.of_prefix (by rw [hm.undone_eq])
        exact hm.retainedInv (ih (hsame ▸ hlog) hlast hbefore)

/-- The new owner keeps what the last migration of an entity gave it, if the rollbacks since then have
undone no record from before with a snapshot that covers the entity. -/
theorem migration_retained {allowed : Simulation Q σ → HostOp → Prop} {s : Simulation Q σ}
    (h : Reachable model cfg allowed s) {mig : Migration} {Has : σ → Prop}
    (hret : Retains (model mig.newOwner) mig Has) {before after : List MigrationStep} {n k : ℕ}
    (hlog : s.hist.migrations = before ++ .applied mig n k :: after)
    (hlast : applied mig.entity after = []) (hspared : SparedSince mig n k s) :
    Has (s.ctx mig.newOwner).lp ∧ s.entityOwner mig.entity = some mig.newOwner := by
  have hmoves : AllMoves False True model cfg (Simulation.create Q model).atRest s.atRest :=
    h.moves fun hfalse => hfalse.elim
  have hinv : RetainedInv model mig Has n k s.atRest := AllMoves.retainedInv hret hmoves hlog hlast hspared
  have howner : OwnerInv mig.entity s := hmoves.ownerInv ownerInv_create
  refine ⟨hinv.owner.has, ?_⟩
  rw [howner.owner, hlog, ownerAfter, ← List.singleton_append, applied_append, applied_append, hlast]
  simp

/-- An LP that knows whether it holds an entity. -/
def holder : LogicalProcess Bool where
  init := false
  onEvent held _ := .requestWrite held 0 (.done held)
  saveState held := [if held then 1 else 0]
  loadState _ bytes := bytes = [1]
  onMigration _ _ _ := true

theorem holder_retains (mig : Migration) : Retains holder mig (· = true) where
  installs _ := rfl
  migrates _ _ _ _ _ := rfl
  starts _ _ hst hends := by
    cases hends
    exact hst
  handles _ _ _ hst hends := by
    rcases hends with _ | _ | _ | hends
    cases hends
    exact hst
  writes _ _ _ hst hwrites := by
    cases hwrites with
    | here => exact hst
    | write hwrites => cases hwrites
  loads _ _ hsaved := by simp [holder, hsaved]
  reloads _ _ _ hst := hst
  others _ _ _ _ hst := hst

def toHolder : Migration := { entity := 7, newOwner := 1, effectiveTs := ⟨20, 1⟩ }

def tickAt (time : UInt64) (dst : LPId) (uid : EventUid) : Event :=
  { ts := ⟨time, 1⟩, src := 9, dst := dst, uid := uid }

def turn : HostOp := .runOne {} true

/-- Two `holder` LPs, the second of which goes to 20. -/
def holderRun (ops : List HostOp) : Simulation sortedEventQueue Bool :=
  hostRun (fun _ => holder) {} ([.addLp 1, .addLp 2, .schedule (tickAt 20 2 1)] ++ ops)
    (Simulation.create _ fun _ => holder)

theorem reachable_holderRun (ops : List HostOp) :
    Reachable (fun _ => holder) {} (fun _ _ => True) (holderRun ops) :=
  Reachable.hostRun .create (obeys_true _ _)

/-- The first LP gets the entity before it goes beyond GVT, and is rolled back from there. -/
def beforeTick : List HostOp :=
  [.schedule (tickAt 20 1 2), turn, turn, arrive toHolder, .schedule (tickAt 30 1 3), turn,
    .schedule (tickAt 25 1 4), turn]

theorem migration_retained_beforeTick :
    ((holderRun beforeTick).ctx 1).lp = true ∧ (holderRun beforeTick).entityOwner 7 = some 1 := by
  have hlog : (holderRun beforeTick).hist.migrations =
      [.arrived toHolder] ++ .applied toHolder 1 0 :: [] := by decide +kernel
  have hkept := migration_retained (reachable_holderRun beforeTick) (holder_retains toHolder) hlog rfl
    (by decide +kernel)
  exact hkept

/-- The first LP gets the entity when it has gone beyond GVT, and is rolled back to a snapshot from
before. -/
def afterTick : List HostOp :=
  [.schedule (tickAt 30 1 3), turn, turn, arrive toHolder, .schedule (tickAt 25 1 4), turn]

theorem migration_rolled_back :
    ∃ s : Simulation sortedEventQueue Bool,
      Reachable (fun _ => holder) {} (fun _ _ => True) s ∧ Timely s.hist ∧
        Retains holder toHolder (· = true) ∧ applied 7 s.hist.migrations = [toHolder] ∧
        s.entityOwner 7 = some 1 ∧ (s.ctx 1).lp ≠ true := by
  refine ⟨_, reachable_holderRun afterTick, ⟨?_, ?_⟩, holder_retains toHolder, ?_⟩
  all_goals decide +kernel

end WarpSim

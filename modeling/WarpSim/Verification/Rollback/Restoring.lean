import WarpSim.Library.UndoLog
import WarpSim.Verification.Rollback.Antis

/-! # Restoring the state of an LP

A handler asks for a snapshot before it changes the state of its LP, so that the snapshots in the undone
records, each part from the oldest record that has it, take the state back. -/

namespace WarpSim

variable {Q : EventQueue} {σ : Type} {model : Model σ} {cfg : SimulationConfig}

open Prog Simulation

/-! ## The contract -/

section

variable {ι β : Type} [DecidableEq ι] (Valid : σ → Prop) (view : σ → ι → β) (part : EntityId → ι)

/-- The handler calls `request_write` for a part of the state before it changes it, and keeps the state valid. The
parts in the list have been asked for, and `start` is the state the handler was given. -/
def Handler.Requests (start : σ) : List ι → Handler σ → Prop
  | asked, .done state => Valid state ∧ ∀ i, i ∉ asked → view state i = view start i
  | asked, .throw state _ => ∀ i, i ∉ asked → view state i = view start i
  | asked, .send _ next => ∀ r, (next r).Requests start asked
  | asked, .requestWrite state id next =>
    Valid state ∧ (∀ i, i ∉ asked → view state i = view start i) ∧ next.Requests start (part id :: asked)
  | asked, .emitCommitted _ _ next => ∀ r, (next r).Requests start asked

end

/-- The LP has been constructed, or its `on_start` has been run. -/
inductive LogicalProcess.Begins (lp : LogicalProcess σ) : σ → Prop where
  | constructed : lp.Begins lp.init
  | started {state} : (lp.onStart lp.init).Ends state → lp.Begins state

/-- Valid states are known by their entities, and an entity that is loaded in a valid state is as it was saved in
another one, while the others stay as they are. -/
structure Entities (lp : LogicalProcess σ) {β : Type} (Valid : σ → Prop) (view : σ → EntityId → β) : Prop where
  injective : ∀ a b, Valid a → Valid b → view a = view b → a = b
  load : ∀ a b id, Valid a → Valid b → Valid (lp.loadEntity a id (lp.saveEntity b id)) ∧
    view (lp.loadEntity a id (lp.saveEntity b id)) = Function.update (view a) id (view b id)

/-- The snapshot contract, for snapshots of the whole state or of single entities. It is about the valid states,
which the LP does not leave while the events that it handles are admitted. -/
inductive SnapshotContract (lp : LogicalProcess σ) (Admits : Event → Prop) : Prop where
  | whole (Valid : σ → Prop) : lp.supportsEntitySnapshots = false → (∀ state, lp.Begins state → Valid state) →
      (∀ a b, Valid a → Valid b → lp.loadState a (lp.saveState b) = b) →
      (∀ state ev, Valid state → Admits ev →
        (lp.onEvent state ev).Requests Valid (fun state (_ : Unit) => state) (fun _ => ()) state []) →
      SnapshotContract lp Admits
  | perEntity {β : Type} (Valid : σ → Prop) (view : σ → EntityId → β) : lp.supportsEntitySnapshots = true →
      (∀ state, lp.Begins state → Valid state) → Entities lp Valid view →
      (∀ state ev, Valid state → Admits ev → (lp.onEvent state ev).Requests Valid view id state []) →
      SnapshotContract lp Admits

/-- If the handler throws, it leaves the state as it was. -/
def Handler.ThrowsUnchanged (start : σ) : Handler σ → Prop
  | .done _ => True
  | .throw state _ => state = start
  | .send _ next => ∀ r, (next r).ThrowsUnchanged start
  | .requestWrite _ _ next => next.ThrowsUnchanged start
  | .emitCommitted _ _ next => ∀ r, (next r).ThrowsUnchanged start

/-! ## Where records keep snapshots -/

/-- Where the records of an LP keep the snapshots of the parts of its state. -/
structure SnapshotMode (lp : LogicalProcess σ) (ι β : Type) [DecidableEq ι] where
  parts : Parts σ ι β ByteBuffer
  part : EntityId → ι
  log : ProcessedRecord → List (ι × ByteBuffer)
  Fits : ProcessedRecord → Prop
  congr : ∀ {rec rec' : ProcessedRecord}, rec'.hasLpSnapshot = rec.hasLpSnapshot →
    rec'.preLpState = rec.preLpState → rec'.preEntityState = rec.preEntityState →
    log rec' = log rec ∧ (Fits rec → Fits rec')
  empty : ∀ rec : ProcessedRecord, rec.hasLpSnapshot = false → rec.preEntityState = [] → log rec = [] ∧ Fits rec
  write : ∀ state id rec, Fits rec → Fits (requestWrite lp state id rec) ∧
    log (requestWrite lp state id rec) = if part id ∈ (log rec).map Prod.fst then log rec
      else log rec ++ [(part id, parts.save state (part id))]
  restore_eq : ∀ records, (∀ rec ∈ records, Fits rec) → ∀ state,
    restoreState lp records state = parts.restore (records.flatMap log) [] state
  shuffle : ∀ rec entries, Fits rec → entries.Perm rec.preEntityState →
    Fits { rec with preEntityState := entries } ∧ (log { rec with preEntityState := entries }).Perm (log rec)
  nodup : ∀ rec, Fits rec → ((log rec).map Prod.fst).Nodup

section Modes

variable {lp : LogicalProcess σ}

/-- The snapshots of the whole state in the records. -/
def wholeLog (rec : ProcessedRecord) : List (Unit × ByteBuffer) :=
  if rec.hasLpSnapshot then [((), rec.preLpState)] else []

def wholeParts (lp : LogicalProcess σ) (Valid : σ → Prop)
    (hload : ∀ a b, Valid a → Valid b → lp.loadState a (lp.saveState b) = b) : Parts σ Unit σ ByteBuffer where
  Valid := Valid
  view state _ := state
  save state _ := lp.saveState state
  load state _ bytes := lp.loadState state bytes
  view_injective _ _ _ _ h := congrFun h ()
  view_load a b i ha hb := by
    funext j
    simp [hload a b ha hb]
  valid_load a b i ha hb := (hload a b ha hb).symm ▸ hb

theorem wholeParts_restore {Valid : σ → Prop}
    (hload : ∀ a b, Valid a → Valid b → lp.loadState a (lp.saveState b) = b)
    (records : List ProcessedRecord) (state : σ) :
    (wholeParts lp Valid hload).restore (records.flatMap wholeLog) [] state = restoreLpState lp records state := by
  have hdone : ∀ (log : List (Unit × ByteBuffer)) state,
      (wholeParts lp Valid hload).restore log [()] state = state := by
    intro log state
    induction log with
    | nil => rfl
    | cons entry log ih => simpa [Parts.restore] using ih
  unfold restoreLpState
  induction records with
  | nil => rfl
  | cons rec records ih =>
      cases hsnap : rec.hasLpSnapshot with
      | true =>
          simp [wholeLog, hsnap, Parts.restore, hdone]
          rfl
      | false => simpa [wholeLog, hsnap] using ih

def wholeMode (hmode : lp.supportsEntitySnapshots = false) {Valid : σ → Prop}
    (hload : ∀ a b, Valid a → Valid b → lp.loadState a (lp.saveState b) = b) : SnapshotMode lp Unit σ where
  parts := wholeParts lp Valid hload
  part _ := ()
  log := wholeLog
  Fits rec := rec.preEntityState = []
  congr h₁ h₂ h₃ := by
    refine ⟨?_, fun h => h₃.trans h⟩
    rw [wholeLog, wholeLog, h₁, h₂]
  empty rec h₁ h₂ := ⟨by simp [wholeLog, h₁], h₂⟩
  write state id rec hfits := by
    unfold requestWrite
    rw [hfits, hmode]
    cases hsnap : rec.hasLpSnapshot <;> simp [wholeLog, hsnap, hfits, wholeParts]
  restore_eq records _ state := by
    rw [wholeParts_restore, restoreState, hmode]
    rfl
  shuffle rec entries hfits hperm := by
    rw [hfits] at hperm
    exact ⟨hperm.eq_nil, .refl _⟩
  nodup rec _ := by
    unfold wholeLog
    split <;> simp

def entityParts {β : Type} {Valid : σ → Prop} {view : σ → EntityId → β} (h : Entities lp Valid view) :
    Parts σ EntityId β ByteBuffer where
  Valid := Valid
  view := view
  save := lp.saveEntity
  load := lp.loadEntity
  view_injective := h.injective
  view_load a b id ha hb := (h.load a b id ha hb).2
  valid_load a b id ha hb := (h.load a b id ha hb).1

theorem entityParts_restore {β : Type} {Valid : σ → Prop} {view : σ → EntityId → β} (h : Entities lp Valid view)
    (log : List (EntityId × ByteBuffer)) (done : List EntityId) (state : σ) :
    (entityParts h).restore log done state = restoreEntities lp log done state := by
  induction log generalizing done state with
  | nil => rfl
  | cons entry log ih =>
      unfold Parts.restore restoreEntities
      split
      · exact ih done state
      · exact ih _ _

def entityMode {β : Type} {Valid : σ → Prop} {view : σ → EntityId → β} (hmode : lp.supportsEntitySnapshots = true)
    (h : Entities lp Valid view) : SnapshotMode lp EntityId β where
  parts := entityParts h
  part := id
  log rec := rec.preEntityState
  Fits rec := rec.hasLpSnapshot = false ∧ (rec.preEntityState.map Prod.fst).Nodup
  congr h₁ _ h₃ := ⟨h₃, fun h => ⟨h₁.trans h.1, h₃ ▸ h.2⟩⟩
  empty rec h₁ h₂ := ⟨h₂, h₁, by simp [h₂]⟩
  write state entity rec hfits := by
    unfold requestWrite
    rw [hmode]
    by_cases hmem : entity ∈ rec.preEntityState.map Prod.fst
    · simp only [hmem, if_true, id]
      exact ⟨hfits, trivial⟩
    · simp only [hmem, if_false, if_true, id]
      refine ⟨⟨hfits.1, ?_⟩, rfl⟩
      rw [List.map_append, List.nodup_append]
      exact ⟨hfits.2, by simp, fun a ha b hb heq => hmem (by simp_all)⟩
  restore_eq records hfits state := by
    have hnone : records.find? (·.hasLpSnapshot) = none :=
      List.find?_eq_none.mpr fun rec hrec => by simp [(hfits rec hrec).1]
    rw [entityParts_restore, restoreState, hmode, restoreLpState, hnone]
    rfl
  shuffle rec entries hfits hperm := ⟨⟨hfits.1, (hperm.map Prod.fst).nodup_iff.mpr hfits.2⟩, hperm⟩
  nodup rec hfits := hfits.2

end Modes

/-! ## What a handler leaves in its record -/

/-- The LP keeps the contract with snapshots of this kind. -/
structure SnapshotMode.Kept {lp : LogicalProcess σ} {ι β : Type} [DecidableEq ι] (mode : SnapshotMode lp ι β)
    (Admits : Event → Prop) : Prop where
  begins : ∀ state, lp.Begins state → mode.parts.Valid state
  asks : ∀ state ev, mode.parts.Valid state → Admits ev →
    (lp.onEvent state ev).Requests mode.parts.Valid mode.parts.view mode.part state []

theorem SnapshotContract.mode {lp : LogicalProcess σ} {Admits : Event → Prop} (h : SnapshotContract lp Admits) :
    ∃ (ι β : Type) (_ : DecidableEq ι) (mode : SnapshotMode lp ι β), mode.Kept Admits := by
  cases h with
  | whole Valid hmode hbegins hload hasks => exact ⟨Unit, σ, _, wholeMode hmode hload, hbegins, hasks⟩
  | @perEntity β Valid view hmode hbegins hentities hasks =>
      exact ⟨EntityId, β, _, entityMode hmode hentities, hbegins, hasks⟩

section

variable {lp : LogicalProcess σ} {ι β : Type} [DecidableEq ι] (mode : SnapshotMode lp ι β)

/-- The record of a handler at work has a snapshot of each part that has been asked for, from when the
handler started. -/
structure SnapshotMode.Filling (start : σ) (asked : List ι) (rec : ProcessedRecord) : Prop where
  fits : mode.Fits rec
  keys : ∀ i, i ∈ (mode.log rec).map Prod.fst ↔ i ∈ asked
  saved : ∀ i saved, (mode.log rec).lookup i = some saved → mode.parts.SavedAt start i saved

/-- The record takes the LP back from the state `z` to the state `y`. -/
structure SnapshotMode.Undoes (rec : ProcessedRecord) (y z : σ) : Prop where
  fits : mode.Fits rec
  takesBack : mode.parts.TakesBack y (mode.log rec) z
  valid : mode.parts.Valid y → mode.parts.Valid z

variable {mode} {start : σ} {asked : List ι} {rec : ProcessedRecord}

theorem SnapshotMode.Filling.congr (h : mode.Filling start asked rec) {rec' : ProcessedRecord}
    (h₁ : rec'.hasLpSnapshot = rec.hasLpSnapshot) (h₂ : rec'.preLpState = rec.preLpState)
    (h₃ : rec'.preEntityState = rec.preEntityState) : mode.Filling start asked rec' := by
  obtain ⟨hlog, hfits⟩ := mode.congr h₁ h₂ h₃
  exact ⟨hfits h.fits, hlog ▸ h.keys, hlog ▸ h.saved⟩

theorem SnapshotMode.Filling.write (h : mode.Filling start asked rec) {state : σ} (hvalid : mode.parts.Valid state)
    (hstate : ∀ i, i ∉ asked → mode.parts.view state i = mode.parts.view start i) (id : EntityId) :
    mode.Filling start (mode.part id :: asked) (requestWrite lp state id rec) := by
  obtain ⟨hfits, hlog⟩ := mode.write state id rec h.fits
  by_cases hmem : mode.part id ∈ (mode.log rec).map Prod.fst
  · rw [if_pos hmem] at hlog
    refine ⟨hfits, fun i => ?_, hlog ▸ h.saved⟩
    rw [hlog, h.keys, List.mem_cons]
    refine ⟨Or.inr, fun hi => hi.elim (fun heq => ?_) fun hi => hi⟩
    rw [heq]
    exact (h.keys _).mp hmem
  · rw [if_neg hmem] at hlog
    refine ⟨hfits, fun i => ?_, fun i saved hlookup => ?_⟩
    · rw [hlog, List.map_append, List.mem_append, h.keys]
      simp [or_comm]
    · rw [hlog, List.lookup_append] at hlookup
      cases hold : (mode.log rec).lookup i with
      | some saved' =>
          rw [hold] at hlookup
          obtain rfl : saved' = saved := Option.some.inj hlookup
          exact h.saved i saved' hold
      | none =>
          have hi : i = mode.part id := by
            by_contra hne
            simp [hold, List.lookup_cons, beq_false_of_ne hne] at hlookup
          subst hi
          obtain rfl : mode.parts.save state (mode.part id) = saved := by simpa [hold] using hlookup
          exact ⟨state, hvalid, rfl, hstate _ (mt (h.keys _).mpr hmem)⟩

theorem SnapshotMode.Filling.takesBack (h : mode.Filling start asked rec) {state : σ}
    (hstate : ∀ i, i ∉ asked → mode.parts.view state i = mode.parts.view start i) :
    mode.parts.TakesBack start (mode.log rec) state := by
  intro i
  cases hlookup : (mode.log rec).lookup i with
  | some saved => exact (Parts.mends_of_some hlookup).mpr (h.saved i saved hlookup)
  | none =>
      refine (Parts.mends_of_none hlookup).mpr (hstate i fun hi => ?_)
      obtain ⟨entry, hentry, rfl⟩ := List.mem_map.mp ((h.keys i).mpr hi)
      have hne := List.lookup_eq_none_iff.mp hlookup entry hentry
      simp at hne

end

/-- The work of every LP is as it was, apart from the state of the LP `id`. -/
structure SameButState (id : LPId) (s t : Simulation Q σ) : Prop where
  lpIds : t.lpIds = s.lpIds
  others : ∀ i, i ≠ id → SameWork (s.ctx i) (t.ctx i)
  self : SameWork { s.ctx id with lp := (t.ctx id).lp } (t.ctx id)

theorem sameButState_setLp (id : LPId) (state : σ) (s : Simulation Q σ) : SameButState id s (setLp id state s) := by
  refine ⟨rfl, fun i hi => ?_, ?_⟩
  · rw [setLp_of_ne s state hi]
    exact .refl _
  · rw [setLp_self]
    exact .refl _

theorem SendFrame.sameButState {id : LPId} {s t u : Simulation Q σ} (h : SendFrame s t)
    (h' : SameButState id t u) : SameButState id s u := by
  refine ⟨h'.lpIds.trans h.lpIds, fun i hi => (h.work i).trans (h'.others i hi), ?_⟩
  obtain ⟨-, hvt, hin, hexec, hproc, hexecuted, hundone, hfossils⟩ := h.work id
  have hself := h'.self
  exact ⟨rfl, hself.vt.trans hvt, hself.inEvent.trans hin, hself.currentExecTs.trans hexec,
    hself.processed.trans hproc, hself.executed.trans hexecuted, hself.undone.trans hundone,
    hself.fossils.trans hfossils⟩

/-- A handler changes the state of its own LP only. -/
theorem runHandler_same (model : Model σ) (cfg : SimulationConfig) (id : LPId) (handler : Handler σ)
    (rec : ProcessedRecord) (s : Simulation Q σ) :
    SameButState id s (exec (runHandler model cfg id handler rec) s).2 := by
  induction handler generalizing rec s with
  | done state => exact sameButState_setLp id state s
  | throw state what => exact sameButState_setLp id state s
  | send asked next ih =>
      have hsend := send_frame cfg (.handler id rec.ev.ts) asked s
      unfold runHandler
      rw [exec_observe_bind]
      exact hsend.sameButState (ih _ _ _)
  | requestWrite state entity next ih => exact ih _ s
  | emitCommitted ts payload next ih =>
      unfold runHandler
      split
      · exact ih none _ s
      · exact ih _ rec s

/-- How the handler, which was to fill the record, and the LP with it may end. -/
def SnapshotMode.Exit {lp : LogicalProcess σ} {ι β : Type} [DecidableEq ι] (mode : SnapshotMode lp ι β)
    (start : σ) (handler : Handler σ) (blank : ProcessedRecord) (state : σ) : Except String ProcessedRecord → Prop
  | .ok rec => mode.Undoes rec start state ∧ ∃ calls, Handler.Run lp handler blank calls state rec
  | .error _ => handler.ThrowsUnchanged start → state = start

theorem SnapshotMode.Exit.of_next {lp : LogicalProcess σ} {ι β : Type} [DecidableEq ι] {mode : SnapshotMode lp ι β}
    {start state : σ} {handler next : Handler σ} {blank blank' : ProcessedRecord}
    {r : Except String ProcessedRecord} (h : mode.Exit start next blank' state r)
    (hrun : ∀ calls rec, Handler.Run lp next blank' calls state rec →
      ∃ calls', Handler.Run lp handler blank calls' state rec)
    (hthrows : handler.ThrowsUnchanged start → next.ThrowsUnchanged start) :
    mode.Exit start handler blank state r := by
  cases r with
  | ok rec =>
      obtain ⟨hundoes, calls, hcalls⟩ := h
      exact ⟨hundoes, hrun calls rec hcalls⟩
  | error what => exact fun hstart => h (hthrows hstart)

/-- A handler that keeps the contract fills its record with what takes its LP back. -/
theorem runHandler_undoes {ι β : Type} [DecidableEq ι] (cfg : SimulationConfig) (id : LPId)
    (mode : SnapshotMode (model id) ι β) (start : σ) (handler : Handler σ) {asked : List ι}
    (hasks : handler.Requests mode.parts.Valid mode.parts.view mode.part start asked) {rec : ProcessedRecord}
    (hfill : mode.Filling start asked rec) (s : Simulation Q σ) :
    mode.Exit start handler rec ((exec (runHandler model cfg id handler rec) s).2.ctx id).lp
      (exec (runHandler model cfg id handler rec) s).1 := by
  induction handler generalizing asked rec s with
  | done state =>
      refine ⟨⟨hfill.fits, ?_, fun _ => ?_⟩, [], ?_⟩
      · change mode.parts.TakesBack start (mode.log rec) ((setLp id state s).ctx id).lp
        rw [setLp_self]
        exact hfill.takesBack hasks.2
      · change mode.parts.Valid ((setLp id state s).ctx id).lp
        rw [setLp_self]
        exact hasks.1
      · change Handler.Run (model id) (.done state) rec [] ((setLp id state s).ctx id).lp rec
        rw [setLp_self]
        exact .done state rec
  | throw state what =>
      intro hstate
      change ((setLp id state s).ctx id).lp = start
      rw [setLp_self]
      exact hstate
  | send asked' next ih =>
      unfold runHandler
      rw [exec_observe_bind]
      generalize exec (send (.handler id rec.ev.ts) cfg asked') s = res
      obtain ⟨r, t⟩ := res
      have hfill' : mode.Filling start asked { rec with sent := rec.sent ++ r.toOption.toList } :=
        hfill.congr rfl rfl rfl
      have hexit := ih (exceptionOf r) (hasks _) hfill' t
      exact hexit.of_next (fun _ _ hrun => ⟨_, .send hrun⟩) fun hthrows => hthrows _
  | requestWrite state entity next ih =>
      have hexit := ih hasks.2.2 (hfill.write hasks.1 hasks.2.1 entity) s
      exact hexit.of_next (fun _ _ hrun => ⟨_, .write hrun⟩) fun hthrows => hthrows
  | emitCommitted ts payload next ih =>
      unfold runHandler
      split
      · next hts =>
        have hfill' : mode.Filling start asked { rec with committed := rec.committed ++ [⟨ts, payload⟩] } :=
          hfill.congr rfl rfl rfl
        have hexit := ih none (hasks none) hfill' s
        exact hexit.of_next (fun _ _ hrun => ⟨_, .emit hts hrun⟩) fun hthrows => hthrows _
      · next hts =>
        refine (ih _ (hasks _) hfill s).of_next (fun _ _ hrun => ⟨_, .emitRefused hts hrun⟩) fun hthrows => hthrows _

/-! ## What the records of an LP take back -/

section

variable {lp : LogicalProcess σ} {ι β : Type} [DecidableEq ι] {mode : SnapshotMode lp ι β} {x z : σ}
  {records records' : List ProcessedRecord}

/-- The record with its snapshots of entities in another order. -/
def Shuffled (rec rec' : ProcessedRecord) : Prop :=
  ∃ entries, entries.Perm rec.preEntityState ∧ rec' = { rec with preEntityState := entries }

theorem SnapshotMode.Undoes.shuffled {rec rec' : ProcessedRecord} (h : mode.Undoes rec x z)
    (hshuffled : Shuffled rec rec') : mode.Undoes rec' x z := by
  obtain ⟨entries, hperm, rfl⟩ := hshuffled
  obtain ⟨hfits, hlog⟩ := mode.shuffle rec entries h.fits hperm
  exact ⟨hfits, h.takesBack.perm (mode.nodup rec h.fits) hlog, h.valid⟩

/-- The records restore the state from before the oldest of them. -/
theorem restoreState_undoes (h : Trail mode.Undoes x records z) (hx : mode.parts.Valid x) :
    restoreState lp records z = x := by
  have hfits : ∀ rec ∈ records, mode.Fits rec := by
    induction h with
    | nil => simp
    | snoc _ hr ih =>
        intro rec hrec
        rcases mem_append_singleton hrec with hrec | rfl
        · exact ih rec hrec
        · exact hr.fits
  have hz : mode.parts.Valid z := h.preserves (fun _ _ _ hr => hr.valid) hx
  rw [mode.restore_eq records hfits]
  exact (h.takesBack fun _ _ _ hr => hr.takesBack).restore_eq hx hz

/-- They do so whatever the order is in which the entities of each record are restored. -/
theorem restoreState_shuffled (h : Trail mode.Undoes x records z) (hx : mode.parts.Valid x)
    (hshuffled : List.Forall₂ Shuffled records records') : restoreState lp records' z = x :=
  restoreState_undoes (h.forall₂ (fun _ _ _ _ hs hr => hr.shuffled hs) hshuffled) hx

end

end WarpSim

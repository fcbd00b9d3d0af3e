import WarpSim.Model.Rollback

/-! # Dispatching events -/

namespace WarpSim

variable {Q : EventQueue} {σ : Type}

open Prog Simulation

/-! ## Running a handler -/

def setLp (id : LPId) (state : σ) (s : Simulation Q σ) : Simulation Q σ :=
  s.modifyCtx id fun c => { c with lp := state }

/-- The `what()` of the exception a call ended with. -/
def exceptionOf {α : Type} : Except String α → Option String
  | .ok _ => none
  | .error what => some what

/-- `EventContext::request_write`: snapshot once per entity, or once per event. -/
def requestWrite (lp : LogicalProcess σ) (state : σ) (id : EntityId) (rec : ProcessedRecord) :
    ProcessedRecord :=
  if id ∈ rec.preEntityState.map Prod.fst then rec
  else if lp.supportsEntitySnapshots then
    { rec with preEntityState := rec.preEntityState ++ [(id, lp.saveEntity state id)] }
  else if rec.hasLpSnapshot then rec
  else { rec with hasLpSnapshot := true, preLpState := lp.saveState state }

/-- The calls of a handler on its `EventContext`; the record collects what they leave in it. -/
def runHandler (model : Model σ) (cfg : SimulationConfig) (id : LPId) :
    Handler σ → ProcessedRecord → KernelM Q σ ProcessedRecord
  | .done state, rec => do
    modify (setLp id state)
    return rec
  | .throw state what, _ => do
    modify (setLp id state)
    throw what
  | .send ev next, rec => do
    let r ← observe (send (.handler id rec.ev.ts) cfg ev)
    runHandler model cfg id (next (exceptionOf r))
      { rec with sent := rec.sent ++ r.toOption.toList }
  | .requestWrite state entity next, rec =>
    runHandler model cfg id next (requestWrite (model id) state entity rec)
  | .emitCommitted ts payload next, rec =>
    if ts = rec.ev.ts then
      runHandler model cfg id (next none) { rec with committed := rec.committed ++ [⟨ts, payload⟩] }
    else
      runHandler model cfg id
        (next (some "emit_committed: ts must match the current event timestamp")) rec

/-! ## Install-before-use buffering -/

def isMissingEntityError (what : String) : Bool := "World: unknown EntityId=".isPrefixOf what

def deferredKey (lp : LPId) (entity : EntityId) : UInt64 := (lp.toUInt64 <<< 32) ^^^ entity

/-- `defer_targeted_event_`. -/
def deferTargetedEvent (ev : Event) (s : Simulation Q σ) : Simulation Q σ :=
  let key := deferredKey ev.dst ev.target
  { s with
    deferredTargeted :=
      match s.deferredTargeted.lookup key with
      | none => s.deferredTargeted ++ [(key, [ev])]
      | some _ => s.deferredTargeted.map fun entry =>
          if entry.1 = key then (key, entry.2 ++ [ev]) else entry }

/-- `release_deferred_for_`. -/
def releaseDeferredFor (lp : LPId) (entity : EntityId) (s : Simulation Q σ) : Simulation Q σ :=
  let key := deferredKey lp entity
  match s.deferredTargeted.lookup key with
  | none => s
  | some q =>
    let released := (q.insertionSort fun a b => a.sortKey ≤ b.sortKey).foldl enqueue s
    { released with deferredTargeted := released.deferredTargeted.filter fun entry => entry.1 ≠ key }

def recordRelease (install : Event) (s : Simulation Q σ) : Simulation Q σ :=
  { s with
    hist := { s.hist with
      releases := s.hist.releases ++
        [⟨install, (s.deferredTargeted.lookup (deferredKey install.dst install.target)).getD []⟩] } }

/-! ## `dispatch_` -/

/-- The record of an event about to be processed by the LP with context `c`. -/
def newRecord (ev : Event) (c : LPContext σ) : ProcessedRecord :=
  { ev := ev
    preNextSeqNormal := c.nextSeqNormal
    preNextSeqControl := c.nextSeqControl
    serial := c.executed.length }

def pushProcessed (id : LPId) (rec : ProcessedRecord) (s : Simulation Q σ) : Simulation Q σ :=
  s.modifyCtx id fun c =>
    { c with
      processed := c.processed ++ [rec]
      executed := c.executed ++ [rec] }

def countStraggler (s : Simulation Q σ) : Simulation Q σ :=
  { s with
    counters := { s.counters with rollbacksStraggler := s.counters.rollbacksStraggler + 1 } }

/-- `dispatch_` on an anti-message. -/
def dispatchAnti (model : Model σ) (cfg : SimulationConfig) (ev : Event) : KernelM Q σ Unit := do
  let ctx ← lookupCtx ev.dst
  if ev.ts < ctx.vt then
    modify countStraggler
    rollback model cfg ev.dst ev.ts
    modify fun s => s.enqueue ev
  else
    let s ← get
    let record : ProcessedRecord :=
      match s.cancelledByUid ev.uidKey with
      | some ts => { newRecord ev ctx with cancelHadEntry := true, cancelPrevTs := ts }
      | none => newRecord ev ctx
    cancel model cfg ev
    modify fun s => s.modifyCtx ev.dst fun c => { c with vt := ev.ts }
    modify (pushProcessed ev.dst record)
    modify (validateInvariants cfg)

/-- Hand a positive event to its LP, whose context was `ctx` before. -/
def executeEvent (model : Model σ) (cfg : SimulationConfig) (ev : Event) (ctx : LPContext σ) :
    KernelM Q σ Unit := do
  modify fun s => s.modifyCtx ev.dst fun c =>
    { c with vt := ev.ts, inEvent := true, currentExecTs := ev.ts }
  let r ← observe (runHandler model cfg ev.dst ((model ev.dst).onEvent ctx.lp ev) (newRecord ev ctx))
  modify fun s => s.modifyCtx ev.dst fun c => { c with inEvent := false }
  match r with
  | .ok rec =>
    modify (pushProcessed ev.dst rec)
    if cfg.enableInstallBeforeUseBuffering ∧ ev.target ≠ 0 ∧
        ev.payload.kind = cfg.installEventKind then
      modify fun s => releaseDeferredFor ev.dst ev.target (recordRelease ev s)
    modify fun s => { s with
      counters := { s.counters with totalProcessed := s.counters.totalProcessed + 1 } }
    modify (validateInvariants cfg)
  | .error what =>
    if cfg.enableInstallBeforeUseBuffering ∧ ev.target ≠ 0 ∧
        ev.payload.kind ≠ cfg.installEventKind ∧ isMissingEntityError what then
      -- Do not advance local virtual time; wait for the install.
      modify fun s => s.modifyCtx ev.dst fun c => { c with vt := ctx.vt, currentExecTs := ctx.vt }
      modify (deferTargetedEvent ev)
      modify (validateInvariants cfg)
    else
      throw what

/-- `dispatch_` on a positive event. -/
def dispatchPositive (model : Model σ) (cfg : SimulationConfig) (ev : Event) :
    KernelM Q σ Unit := do
  let ctx ← lookupCtx ev.dst
  if ev.ts < ctx.vt then
    modify countStraggler
    rollback model cfg ev.dst ev.ts
    -- The scheduler selects next among the straggler and what the rollback reintroduced.
    modify fun s => s.enqueue ev
    modify (validateInvariants cfg)
  else
    executeEvent model cfg ev ctx

def recordDispatch (ev : Event) (s : Simulation Q σ) : Simulation Q σ :=
  { s with
    hist := { s.hist with
      dispatched := s.hist.dispatched ++
        [⟨ev, s.lastGvt, (s.ctx ev.dst).processed.getLast?.map (·.ev)⟩] } }

/-- `dispatch_`. -/
def dispatch (model : Model σ) (cfg : SimulationConfig) (ev : Event) : KernelM Q σ Unit := do
  modify (recordDispatch ev)
  modify (validateInvariants cfg)
  if ev.isAnti then dispatchAnti model cfg ev else dispatchPositive model cfg ev

/-! ## The pending queue -/

/-- Drop from the front of the queue what satisfies `skip`. -/
def discardPending (skip : Event → Bool) (s : Simulation Q σ) : Simulation Q σ :=
  let (discarded, rest) := Q.discardWhile skip (Q.size s.pending) s.pending
  { s with
    pending := rest
    hist := { s.hist with dropped := s.hist.dropped ++ discarded } }

/-- `pop_next_`: cancelled positive events are skipped. -/
def popNext : KernelM Q σ (Option Event) := do
  let s ← get
  modify (discardPending fun ev => !ev.isAnti && s.tombstoned ev)
  let s ← get
  match Q.top? s.pending with
  | none => return none
  | some ev =>
    modify fun s => { s with pending := Q.pop s.pending }
    return some ev

/-- `peek_next_pending_ts_`: whatever has a tombstone is skipped. -/
def peekNextPendingTs : KernelM Q σ (Option TimeStamp) := do
  let s ← get
  modify (discardPending s.tombstoned)
  let s ← get
  return (Q.top? s.pending).map (·.ts)

/-- The dispatching part of one turn of the main loop. Returns whether an event was dispatched. -/
def dispatchNext (model : Model σ) (cfg : SimulationConfig) : KernelM Q σ Bool := do
  match ← popNext with
  | none => return false
  | some ev =>
    match ← observe (dispatch model cfg ev) with
    | .ok () => return true
    | .error what =>
      modify fun s => { s with hist := { s.hist with lost := s.hist.lost ++ [ev] } }
      throw what

end WarpSim

import WarpSim.Model.Send

/-! # Rollback and cancellation -/

namespace WarpSim

variable {Q : EventQueue} {σ : Type}

open Prog Simulation

/-! ## Restoring the state of an LP -/

/-- Restore the LP-wide snapshot of the oldest record that has one. -/
def restoreLpState (lp : LogicalProcess σ) (oldestFirst : List ProcessedRecord) (state : σ) : σ :=
  match oldestFirst.find? (·.hasLpSnapshot) with
  | some snap => lp.loadState state snap.preLpState
  | none => state

/-- Load each entity from its first entry in the list. -/
def restoreEntities (lp : LogicalProcess σ) :
    List (EntityId × ByteBuffer) → List EntityId → σ → σ
  | [], _, state => state
  | (id, bytes) :: rest, restored, state =>
    if id ∈ restored then restoreEntities lp rest restored state
    else restoreEntities lp rest (id :: restored) (lp.loadEntity state id bytes)

/-- The two restoring loops of `rollback_`, over the undone records from oldest to newest. -/
def restoreState (lp : LogicalProcess σ) (oldestFirst : List ProcessedRecord) (state : σ) : σ :=
  let state := restoreLpState lp oldestFirst state
  if lp.supportsEntitySnapshots then
    restoreEntities lp (oldestFirst.flatMap (·.preEntityState)) [] state
  else state

/-! ## Undoing records -/

/-- Undo the effect of an anti-message on the cancellation map. -/
def restoreTombstone (cancelled : UidKey → Option TimeStamp) (rec : ProcessedRecord) :
    UidKey → Option TimeStamp :=
  if rec.ev.isAnti then
    Function.update cancelled rec.ev.uidKey
      (if rec.cancelHadEntry then some rec.cancelPrevTs else none)
  else cancelled

/-- Undo one record popped off the back of `processed`. -/
def undoRecord (s : Simulation Q σ) (rec : ProcessedRecord) : Simulation Q σ :=
  { s.enqueue rec.ev with cancelledByUid := restoreTombstone s.cancelledByUid rec }

/-- The records that `rollback_` to `target` leaves in place. -/
def keptRecords (target : TimeStamp) (processed : List ProcessedRecord) : List ProcessedRecord :=
  processed.rdropWhile fun rec => ¬ rec.ev.ts < target

/-- The records that `rollback_` to `target` undoes, oldest first. -/
def undoneRecords (target : TimeStamp) (processed : List ProcessedRecord) : List ProcessedRecord :=
  processed.rtakeWhile fun rec => ¬ rec.ev.ts < target

/-- The first half of `rollback_`: undo the records from the newest to the oldest, then restore
the counters and the state saved by the oldest ones. -/
def undoProcessed (model : Model σ) (id : LPId) (target : TimeStamp) (s : Simulation Q σ) :
    Simulation Q σ :=
  let undone := undoneRecords target (s.ctx id).processed
  let s₁ := undone.reverse.foldl undoRecord s
  let s₂ := s₁.modifyCtx id fun c =>
    { c with
      processed := keptRecords target c.processed
      undone := c.undone ++ undone }
  let s₃ := { s₂ with
    counters := { s₂.counters with
      rollbackUndoneEvents := s₂.counters.rollbackUndoneEvents + undone.length } }
  match undone with
  | [] => s₃
  | oldest :: _ =>
    s₃.modifyCtx id fun c =>
      { c with
        nextSeqNormal := oldest.preNextSeqNormal
        nextSeqControl := oldest.preNextSeqControl
        lp := restoreState (model id) undone c.lp }

/-! ## Anti-messages -/

/-- The anti-message that cancels a logged send of the LP `src`. -/
def antiOf (src : LPId) (sent : SentRecord) : Event :=
  { ts := sent.msgTime, src := src, dst := sent.dst, target := 0, uid := sent.uid, isAnti := true }

/-- The entries of the sent log that `rollback_` to `target` cancels, newest first. -/
def cancelledSends (target : TimeStamp) (sentLog : List SentRecord) : List SentRecord :=
  sentLog.reverse.takeWhile fun sent => ¬ sent.sendTime < target

/-- Send the anti-message of each entry and pop it off the back of the log. -/
def emitAntis (cfg : SimulationConfig) (id : LPId) : List SentRecord → KernelM Q σ Unit
  | [] => return
  | sent :: rest => do
    let _ ← send (.rollback id) cfg (antiOf id sent)
    modify fun s => s.modifyCtx id fun c => { c with sentLog := c.sentLog.dropLast }
    emitAntis cfg id rest

/-- `rollback_`. -/
def rollback (model : Model σ) (cfg : SimulationConfig) (id : LPId) (target : TimeStamp) :
    KernelM Q σ Unit := do
  modify (validateInvariants cfg)
  modify fun s => { s with
    counters := { s.counters with rollbacksTotal := s.counters.rollbacksTotal + 1 }
    hist := { s.hist with rollbacks := s.hist.rollbacks ++ [⟨id, target, s.lastGvt⟩] } }
  modify (undoProcessed model id target)
  modify fun s => s.modifyCtx id fun c => { c with vt := prevStamp target }
  let s ← get
  emitAntis cfg id (cancelledSends target (s.ctx id).sentLog)
  modify (validateInvariants cfg)

/-! ## Cancellation -/

/-- Record the tombstone of an anti-message, keeping the earlier of two stamps. -/
def insertTombstone (anti : Event) (s : Simulation Q σ) : Simulation Q σ :=
  { s with
    cancelledByUid := Function.update s.cancelledByUid anti.uidKey
      (match s.cancelledByUid anti.uidKey with
        | none => some anti.ts
        | some ts => if anti.ts < ts then some anti.ts else some ts) }

/-- Does the record hold the positive event that `anti` cancels? -/
def matchesAnti (anti : Event) (rec : ProcessedRecord) : Bool :=
  !rec.ev.isAnti && rec.ev.src == anti.src && rec.ev.uid == anti.uid

/-- `cancel_`. -/
def cancel (model : Model σ) (cfg : SimulationConfig) (anti : Event) : KernelM Q σ Unit := do
  modify (insertTombstone anti)
  let ctx ← lookupCtx anti.dst
  match ctx.processed.reverse.find? (matchesAnti anti) with
  | some rec =>
    modify fun s => { s with
      counters := { s.counters with
        antiCancelledProcessed := s.counters.antiCancelledProcessed + 1
        rollbacksAnti := s.counters.rollbacksAnti + 1 } }
    rollback model cfg anti.dst rec.ev.ts
  | none =>
    modify fun s => { s with
      counters := { s.counters with
        antiCancelledPending := s.counters.antiCancelledPending + 1 } }

end WarpSim

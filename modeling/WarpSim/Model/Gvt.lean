import WarpSim.Model.Dispatch

/-! # Global virtual time and fossil collection -/

namespace WarpSim

variable {Q : EventQueue} {σ : Type}

open Prog Simulation

/-- What the world outside a kernel answers during one call: the messages `poll` hands over until
it has none left, `has_pending`, and the results of the collective operations. -/
structure Environment where
  polled : List WireMessage := []
  hasPending : Bool := false
  reduceMin : TimeStamp → TimeStamp := id
  /-- `gvtReduceSum` as called by `advance_gvt_colored_`. -/
  advanceSum : Int → Int := id
  /-- `gvtReduceSum` as called by the termination test of `run`. -/
  workSum : Int → Int := id
  anyWork : Bool → Bool := id
  /-- `reduceU64Sum` as called on the sum over events, and on the sum over outputs. -/
  reduceEventSum : UInt64 → UInt64 := id
  reduceOutputSum : UInt64 → UInt64 := id
  /-- `reduceU64Xor` as called on the xor over events, and on the xor over outputs. -/
  reduceEventXor : UInt64 → UInt64 := id
  reduceOutputXor : UInt64 → UInt64 := id

/-! ## The local bound -/

/-- The least virtual time of the LPs. -/
def minVt (s : Simulation Q σ) : TimeStamp :=
  s.lpIds.foldl (fun gvt id => minStamp gvt (s.ctx id).vt) maxStamp

/-- `compute_gvt_`. -/
def computeGvt (cfg : SimulationConfig) : KernelM Q σ TimeStamp := do
  let s ← get
  let gvt := minVt s
  let gvt := match ← peekNextPendingTs with
    | some pendingMin => minStamp gvt pendingMin
    | none => gvt
  if cfg.gvtMode = .ackInflight then
    return s.inflightTs.foldl minStamp gvt
  else
    return gvt

/-! ## Fossil collection -/

/-- The order in which committed outputs reach the sink. -/
def flushLess (a b : CommittedFlushItem) : Bool :=
  if a.ts < b.ts then true
  else if b.ts < a.ts then false
  else if a.lp ≠ b.lp then decide (a.lp < b.lp)
  else if a.eventSrc ≠ b.eventSrc then decide (a.eventSrc < b.eventSrc)
  else if a.eventUid ≠ b.eventUid then decide (a.eventUid < b.eventUid)
  else decide (a.index < b.index)

/-- The order in which committed events reach the sink. -/
def eventFlushLess (a b : CommittedEventFlushItem) : Bool :=
  if a.ts < b.ts then true
  else if b.ts < a.ts then false
  else if a.lp ≠ b.lp then decide (a.lp < b.lp)
  else if a.ev.src ≠ b.ev.src then decide (a.ev.src < b.ev.src)
  else if a.ev.uid ≠ b.ev.uid then decide (a.ev.uid < b.ev.uid)
  else !a.ev.isAnti && b.ev.isAnti

/-- The flush items of one committed record. -/
def flushItems (id : LPId) (rec : ProcessedRecord) : List CommittedFlushItem :=
  rec.committed.zipIdx.map fun (c, i) =>
    { ts := c.ts, lp := id, eventSrc := rec.ev.src, eventUid := rec.ev.uid
      index := UInt32.ofNat i, payload := c.payload, serial := rec.serial }

/-- The digest contribution of one committed record; outputs count only where a sink is set. -/
def digestRecord (cfg : SimulationConfig) (d : DeterminismDigest) (id : LPId)
    (rec : ProcessedRecord) : DeterminismDigest :=
  let d := d.onCommittedEvent id rec.ev
  if cfg.committedSink then
    rec.committed.foldl (fun d c => d.onCommittedOutput id c.ts c.payload) d
  else d

/-- The records of one LP that are committed by pruning to `gvt`. -/
def committedRecords (gvt : TimeStamp) (processed : List ProcessedRecord) : List ProcessedRecord :=
  processed.takeWhile fun rec => rec.ev.ts < gvt

def LPContext.prune (gvt : TimeStamp) (c : LPContext σ) : LPContext σ :=
  { c with
    processed := c.processed.dropWhile fun rec => rec.ev.ts < gvt
    fossils := c.fossils ++ committedRecords gvt c.processed
    sentLog := c.sentLog.dropWhile fun sent => sent.sendTime < gvt }

/-- All records committed by pruning to `gvt`, with their LP. -/
def allCommitted (gvt : TimeStamp) (s : Simulation Q σ) : List (LPId × ProcessedRecord) :=
  s.lpIds.flatMap fun id => (committedRecords gvt (s.ctx id).processed).map (id, ·)

/-- `prune_to_gvt_`. -/
def pruneToGvt (cfg : SimulationConfig) (gvt : TimeStamp) (s : Simulation Q σ) : Simulation Q σ :=
  let committed := allCommitted gvt s
  let flush := committed.flatMap fun (id, rec) => flushItems id rec
  let events := committed.map fun (id, rec) =>
    ({ ts := rec.ev.ts, lp := id, ev := rec.ev } : CommittedEventFlushItem)
  { s with
    ctx := fun id => if id ∈ s.lpIds then (s.ctx id).prune gvt else s.ctx id
    cancelledByUid := fun key => (s.cancelledByUid key).filter fun ts => ¬ ts < gvt
    determinism :=
      if cfg.enableDeterminismOracle then
        committed.foldl (fun d (id, rec) => digestRecord cfg d id rec) s.determinism
      else s.determinism
    committedSinkCalls :=
      if cfg.committedSink then
        s.committedSinkCalls ++ flush.insertionSort fun a b => !flushLess b a
      else s.committedSinkCalls
    committedEventSinkCalls :=
      if cfg.committedEventSink then
        s.committedEventSinkCalls ++ events.insertionSort fun a b => !eventFlushLess b a
      else s.committedEventSinkCalls }

/-! ## Migrations -/

def recordMigration (step : MigrationStep) (s : Simulation Q σ) : Simulation Q σ :=
  { s with hist := { s.hist with migrations := s.hist.migrations ++ [step] } }

/-- `apply_ready_migrations_`, over the pending migrations in `effectiveTs` order. -/
def applyMigrations (model : Model σ) : List Migration → KernelM Q σ Unit
  | [] => return
  | mig :: rest => do
    let s ← get
    if s.lastGvt < mig.effectiveTs then
      return
    else
      modify fun s => { s with pendingMigrations := rest }
      let ctx ← lookupCtx mig.newOwner
      modify (setLp mig.newOwner ((model mig.newOwner).onMigration ctx.lp mig.entity mig.state))
      modify fun s => { s with entityOwner := Function.update s.entityOwner mig.entity mig.newOwner }
      modify (recordMigration (.applied mig ctx.executed.length ctx.undone.length))
      applyMigrations model rest

def applyReadyMigrations (model : Model σ) : KernelM Q σ Unit := do
  let s ← get
  applyMigrations model s.pendingMigrations

/-- Insertion into the queue behind the migrations effective at the same time. -/
def queueMigration (mig : Migration) (s : Simulation Q σ) : Simulation Q σ :=
  { s with
    pendingMigrations :=
      s.pendingMigrations.takeWhile (fun m => ¬ mig.effectiveTs < m.effectiveTs) ++
        mig :: s.pendingMigrations.dropWhile (fun m => ¬ mig.effectiveTs < m.effectiveTs) }

/-- `apply_migration_`. -/
def applyMigration (model : Model σ) (mig : Migration) : KernelM Q σ Unit := do
  modify fun s => recordMigration (.arrived mig) (queueMigration mig s)
  applyReadyMigrations model

/-! ## Directory notifications -/

/-- `bytes_from_trivially_copyable` on a stamp. -/
def stampBytes (ts : TimeStamp) : ByteBuffer := trivialBytes 8 ts.time ++ trivialBytes 8 ts.sequence

/-- The event that tells a directory the current GVT. -/
def gvtNotification (cfg : SimulationConfig) (systemSrc : LPId) (gvt : TimeStamp) (dir : LPId) :
    Event :=
  { ts := gvt, src := systemSrc, dst := dir, target := 0
    payload := { kind := cfg.directoryFossilCollectKind, bytes := stampBytes gvt } }

def sendNotifications (cfg : SimulationConfig) (systemSrc : LPId) (gvt : TimeStamp) :
    List LPId → KernelM Q σ Unit
  | [] => return
  | dir :: rest => do
    let _ ← send .notification cfg (gvtNotification cfg systemSrc gvt dir)
    sendNotifications cfg systemSrc gvt rest

/-- `notify_directories_gvt_`. -/
def notifyDirectoriesGvt (cfg : SimulationConfig) (gvt : TimeStamp) : KernelM Q σ Unit := do
  let s ← get
  if cfg.directoryForEntity.isNone ∨ cfg.directoryFossilCollectKind = 0 then
    return
  else
    match s.systemSrc with
    | none => return
    | some systemSrc =>
      if s.lastDirectoryGcGvt < gvt then
        sendNotifications cfg systemSrc gvt s.directoryLps
        modify fun s => { s with lastDirectoryGcGvt := gvt }
      else
        return

/-! ## `fossil_collect_` -/

/-- Set `m_lastGvt`. -/
def raiseGvt (gvt : TimeStamp) (s : Simulation Q σ) : Simulation Q σ :=
  { s with
    lastGvt := gvt
    hist := { s.hist with
      advances := s.hist.advances ++
        [⟨gvt, s.lpIds.map fun id => (s.ctx id).vt, Q.elems s.pending, s.deferred⟩] } }

/-- The flip of `advance_gvt_colored_` from white to red. -/
def flipToRed (s : Simulation Q σ) : Simulation Q σ :=
  { s with
    gvtRedPhase := true
    gvtColor := s.gvtWhiteColor ^^^ 1
    gvtWhiteSentAtFlip := s.gvtSentByColor s.gvtWhiteColor
    gvtMinRedSentTs := maxStamp }

/-- The reset at the end of a successful round. -/
def resetToWhite (s : Simulation Q σ) : Simulation Q σ :=
  { s with
    gvtRedPhase := false
    gvtWhiteColor := s.gvtWhiteColor ^^^ 1
    gvtColor := s.gvtWhiteColor ^^^ 1
    gvtWhiteSentAtFlip := 0
    gvtMinRedSentTs := maxStamp }

/-- White messages sent before the flip and not yet received here. -/
def whiteDelta (s : Simulation Q σ) : Int :=
  s.gvtWhiteSentAtFlip - s.gvtRecvByColor s.gvtWhiteColor

/-- The bound a rank contributes at the end of a red phase. -/
def computeRedGvt (cfg : SimulationConfig) : KernelM Q σ TimeStamp := do
  let gvt ← computeGvt cfg
  let s ← get
  return minStamp gvt s.gvtMinRedSentTs

/-- What follows the reduction at the end of a red phase. -/
def adoptRedGvt (cfg : SimulationConfig) (gvt : TimeStamp) : KernelM Q σ Unit := do
  let s ← get
  if gvt < s.lastGvt then
    return
  else
    modify fun s => pruneToGvt cfg gvt (raiseGvt gvt s)
    notifyDirectoriesGvt cfg gvt
    modify resetToWhite

/-- `advance_gvt_colored_`. -/
def advanceGvtColored (cfg : SimulationConfig) (env : Environment) : KernelM Q σ Unit := do
  if !cfg.gvtReduceMin || !cfg.gvtReduceSum then
    return
  else
    let s ← get
    if !s.gvtRedPhase then
      modify flipToRed
    else if env.advanceSum (whiteDelta s) ≠ 0 then
      return
    else
      let gvt ← computeRedGvt cfg
      adoptRedGvt cfg (env.reduceMin gvt)

/-- The part of `fossil_collect_` before the first collective operation. -/
def fossilPrune (model : Model σ) (cfg : SimulationConfig) : KernelM Q σ Unit := do
  modify fun s => pruneToGvt cfg s.lastGvt s
  applyReadyMigrations model

/-- What `fossil_collect_` does in `AckInflight` mode with the reduced bound. -/
def adoptGvt (model : Model σ) (cfg : SimulationConfig) (gvt : TimeStamp) : KernelM Q σ Unit := do
  let s ← get
  if gvt < s.lastGvt then
    modify (validateInvariants cfg)
  else
    modify fun s => pruneToGvt cfg gvt (raiseGvt gvt s)
    applyReadyMigrations model
    notifyDirectoriesGvt cfg gvt
    modify (validateInvariants cfg)

/-- What `fossil_collect_` does after `advance_gvt_colored_`. -/
def afterAdvance (model : Model σ) (cfg : SimulationConfig) : KernelM Q σ Unit := do
  applyReadyMigrations model
  let s ← get
  notifyDirectoriesGvt cfg s.lastGvt
  modify (validateInvariants cfg)

/-- `fossil_collect_`. -/
def fossilCollect (model : Model σ) (cfg : SimulationConfig) (env : Environment)
    (doGlobalReduction : Bool) : KernelM Q σ Unit := do
  modify (validateInvariants cfg)
  if cfg.lpToRank.isSome && !cfg.gvtReduceMin then
    return
  else
    fossilPrune model cfg
    if cfg.lpToRank.isSome && !doGlobalReduction then
      modify (validateInvariants cfg)
    else if cfg.gvtMode = .coloredCounters then
      advanceGvtColored cfg env
      afterAdvance model cfg
    else
      let gvt ← computeGvt cfg
      adoptGvt model cfg (if cfg.gvtReduceMin then env.reduceMin gvt else gvt)

end WarpSim

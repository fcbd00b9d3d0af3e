import WarpSim.Library.Triple
import WarpSim.Model.Determinism
import WarpSim.Model.LogicalProcess

/-! # The state of the kernel -/

namespace WarpSim

inductive GvtMode where
  | ackInflight
  | coloredCounters
deriving DecidableEq

/-- `SimulationConfig`. For the callbacks into the outside world (the reductions and the sinks)
it says only whether they are installed: what they answer is part of the `Environment`. -/
structure SimulationConfig where
  rank : RankId := 0
  gvtMode : GvtMode := .ackInflight
  lpToRank : Option (LPId → RankId) := none
  gvtReduceMin : Bool := false
  gvtReduceSum : Bool := false
  anyRankHasWork : Bool := false
  directoryForEntity : Option (EntityId → LPId) := none
  directoryFossilCollectKind : UInt32 := 0
  collectivePeriodIters : ℕ := 1
  committedSink : Bool := false
  committedEventSink : Bool := false
  enableDeterminismOracle : Bool := false
  reduceU64Sum : Bool := false
  reduceU64Xor : Bool := false
  expectedDeterminismDigest : Option DeterminismDigest := none
  isControlEvent : Option (Event → Bool) := none
  enableInstallBeforeUseBuffering : Bool := false
  installEventKind : UInt32 := 42002
  enableInvariantChecks : Bool := false

/-- The rank that hosts an LP. -/
def SimulationConfig.rankOf (cfg : SimulationConfig) (dst : LPId) : RankId :=
  match cfg.lpToRank with
  | some lpToRank => lpToRank dst
  | none => cfg.rank

/-- The number of iterations from one collective epoch to the next. -/
def SimulationConfig.period (cfg : SimulationConfig) : ℕ :=
  if cfg.collectivePeriodIters = 0 then 1 else cfg.collectivePeriodIters

structure Migration where
  entity : EntityId
  newOwner : LPId
  effectiveTs : TimeStamp
  state : ByteBuffer := []
deriving DecidableEq

/-- A wire message with its decoded body. -/
inductive WireMessage where
  | event (srcRank dstRank : RankId) (ev : Event)
  | migration (srcRank dstRank : RankId) (mig : Migration)
  | ack (srcRank dstRank : RankId) (key : InflightKey)
deriving DecidableEq

structure CommittedOutput where
  ts : TimeStamp
  payload : Payload
deriving DecidableEq

structure SentRecord where
  /-- Timestamp of the event being executed when the message was sent. -/
  sendTime : TimeStamp
  /-- Timestamp of the message itself. -/
  msgTime : TimeStamp
  dst : LPId
  uid : EventUid
deriving DecidableEq

/-- A processed event with what rollback needs to undo it. The last two fields are ghosts: the
events this execution sent, and its number among the executions of its LP. -/
structure ProcessedRecord where
  ev : Event
  preNextSeqNormal : UInt64 := 1
  preNextSeqControl : UInt64 := 1
  hasLpSnapshot : Bool := false
  preLpState : ByteBuffer := []
  preEntityState : List (EntityId × ByteBuffer) := []
  committed : List CommittedOutput := []
  cancelHadEntry : Bool := false
  cancelPrevTs : TimeStamp := ⟨0, 0⟩
  sent : List Event := []
  serial : ℕ := 0
deriving DecidableEq

/-- An LP with the kernel's bookkeeping for it. The last three fields are ghosts: all records
ever added to `processed`, those removed by rollback and those removed by fossil collection. -/
structure LPContext (σ : Type) where
  lp : σ
  vt : TimeStamp := ⟨0, 0⟩
  inEvent : Bool := false
  currentExecTs : TimeStamp := ⟨0, 0⟩
  processed : List ProcessedRecord := []
  sentLog : List SentRecord := []
  nextSeqNormal : UInt64 := 1
  nextSeqControl : UInt64 := 1
  nextUid : UInt64 := 1
  executed : List ProcessedRecord := []
  undone : List ProcessedRecord := []
  fossils : List ProcessedRecord := []

structure CommittedEventFlushItem where
  ts : TimeStamp
  lp : LPId
  ev : Event
deriving DecidableEq

/-- The ghost `serial` names the execution that produced the output. -/
structure CommittedFlushItem where
  ts : TimeStamp
  lp : LPId
  eventSrc : LPId
  eventUid : EventUid
  index : UInt32
  payload : Payload
  serial : ℕ
deriving DecidableEq

/-- The monotonic counters reported by `stats()`. -/
structure Counters where
  totalProcessed : ℕ := 0
  rollbacksTotal : ℕ := 0
  rollbacksStraggler : ℕ := 0
  rollbacksAnti : ℕ := 0
  rollbackUndoneEvents : ℕ := 0
  sentEvents : ℕ := 0
  sentAnti : ℕ := 0
  receivedEvents : ℕ := 0
  receivedAnti : ℕ := 0
  antiCancelledPending : ℕ := 0
  antiCancelledProcessed : ℕ := 0

/-- Who called `send`. -/
inductive SendCause where
  | host
  | start (lp : LPId)
  | handler (lp : LPId) (execTs : TimeStamp)
  | notification
  | rollback (lp : LPId)
deriving DecidableEq

/-- A call of `send` that enqueued an event or put it on the wire: the event it was given, the event
as sent, the rank it went to, and `m_lastGvt` and the number of migration steps at the time. -/
structure SendRecord where
  cause : SendCause
  asked : Event
  ev : Event
  rank : RankId
  gvt : TimeStamp
  migrations : ℕ
deriving DecidableEq

/-- An event handed to the kernel from outside, by `schedule` or from a rank by `poll_transport`,
and `m_lastGvt` at the time. -/
structure Delivery where
  ev : Event
  srcRank : Option RankId
  gvt : TimeStamp
deriving DecidableEq

/-- An event handed to `dispatch_`, with `m_lastGvt` and the last event in place at its LP. -/
structure Dispatch where
  ev : Event
  gvt : TimeStamp
  last : Option Event
deriving DecidableEq

/-- A call of `rollback_`, and `m_lastGvt` at the time. -/
structure Rollback where
  lp : LPId
  target : TimeStamp
  gvt : TimeStamp
deriving DecidableEq

/-- An install event that has been executed, and the deferred events it set free. -/
structure Release where
  install : Event
  released : List Event
deriving DecidableEq

/-- A raise of `m_lastGvt`: the virtual times of the LPs, the pending queue and the deferred
events at the time. -/
structure Advance where
  gvt : TimeStamp
  vts : List TimeStamp
  pending : Multiset Event
  deferred : List Event

/-- What happens to a migration: its message arrives, and GVT passes its effective time. By then
the new owner has executed and undone certain numbers of records. -/
inductive MigrationStep where
  | arrived (mig : Migration)
  | applied (mig : Migration) (executed undone : ℕ)
deriving DecidableEq

/-- Ghost history, written by the kernel functions and read by none of them. -/
structure History where
  sends : List SendRecord := []
  delivered : List Delivery := []
  migrations : List MigrationStep := []
  acked : List InflightKey := []
  /-- Everything the queue scans have discarded. -/
  dropped : List Event := []
  /-- Events whose dispatch ended with an exception. -/
  lost : List Event := []
  dispatched : List Dispatch := []
  rollbacks : List Rollback := []
  advances : List Advance := []
  releases : List Release := []
  /-- A per-LP counter has run past `2 ^ 64 - 1`. -/
  wrapped : Bool := false

structure Simulation (Q : EventQueue) (σ : Type) where
  lpIds : List LPId := []
  ctx : LPId → LPContext σ
  systemSrc : Option LPId := none
  started : Bool := false
  pending : Q.Carrier := Q.empty
  cancelledByUid : UidKey → Option TimeStamp := fun _ => none
  pendingMigrations : List Migration := []
  entityOwner : EntityId → Option LPId := fun _ => none
  determinism : DeterminismDigest := {}
  deferredTargeted : List (UInt64 × List Event) := []
  inflightByUid : List (InflightKey × TimeStamp) := []
  inflightTs : List TimeStamp := []
  gvtWhiteColor : UInt8 := 0
  gvtColor : UInt8 := 0
  gvtRedPhase : Bool := false
  gvtSentByColor : UInt8 → Int := fun _ => 0
  gvtRecvByColor : UInt8 → Int := fun _ => 0
  gvtWhiteSentAtFlip : Int := 0
  gvtMinRedSentTs : TimeStamp := maxStamp
  lastGvt : TimeStamp := ⟨0, 0⟩
  directoryLps : List LPId := []
  lastDirectoryGcGvt : TimeStamp := ⟨0, 0⟩
  counters : Counters := {}
  /-- Messages handed to the transport and not yet taken by it. -/
  outbox : List WireMessage := []
  committedSinkCalls : List CommittedFlushItem := []
  committedEventSinkCalls : List CommittedEventFlushItem := []
  hist : History := {}
  /-- Ghost: every check of `validate_invariants_` so far has held. -/
  checksPassed : Bool := true
  /-- Ghost: `run` has left its loop. -/
  finished : Bool := false

/-- The events held back until their entity is installed. -/
def Simulation.deferred {Q : EventQueue} {σ : Type} (s : Simulation Q σ) : List Event :=
  s.deferredTargeted.flatMap Prod.snd

abbrev KernelM (Q : EventQueue) (σ α : Type) := Prog String (Simulation Q σ) α

end WarpSim

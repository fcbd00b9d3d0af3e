import WarpSim.Model.Gvt

/-! # The driving loops -/

namespace WarpSim

variable {Q : EventQueue} {σ : Type}

open Prog Simulation

/-! ## Setting up -/

/-- A simulation without LPs. -/
def Simulation.create (Q : EventQueue) (model : Model σ) : Simulation Q σ :=
  { ctx := fun id => { lp := (model id).init } }

/-- `add_lp`. -/
def addLp (model : Model σ) (id : LPId) : KernelM Q σ Unit := do
  let s ← get
  if id ∈ s.lpIds then
    throw "add_lp: duplicate LPId"
  else
    modify fun s => { s with
      lpIds := s.lpIds ++ [id]
      ctx := Function.update s.ctx id { lp := (model id).init }
      systemSrc := s.systemSrc.or (some id) }

def recordDelivery (srcRank : Option RankId) (ev : Event) (s : Simulation Q σ) : Simulation Q σ :=
  { s with hist := { s.hist with delivered := s.hist.delivered ++ [⟨ev, srcRank, s.lastGvt⟩] } }

/-- `schedule`. -/
def schedule (ev : Event) (s : Simulation Q σ) : Simulation Q σ :=
  (recordDelivery none ev s).enqueue ev

/-- The calls of `on_start` on the simulation. -/
def runStarter (cfg : SimulationConfig) (id : LPId) : Starter σ → KernelM Q σ Unit
  | .done state => modify (setLp id state)
  | .throw state what => do
    modify (setLp id state)
    throw what
  | .send ev next => do
    let r ← observe (send (.start id) cfg ev)
    runStarter cfg id (next (exceptionOf r))

def startAll (model : Model σ) (cfg : SimulationConfig) : List LPId → KernelM Q σ Unit
  | [] => return
  | id :: rest => do
    let s ← get
    runStarter cfg id ((model id).onStart (s.ctx id).lp)
    startAll model cfg rest

/-- `start_if_needed_`. -/
def startIfNeeded (model : Model σ) (cfg : SimulationConfig) : KernelM Q σ Unit := do
  let s ← get
  if s.started then
    return
  else
    modify fun s => { s with started := true }
    startAll model cfg s.lpIds

/-! ## Polling -/

def countReceived (ev : Event) (s : Simulation Q σ) : Simulation Q σ :=
  { s with
    counters :=
      if ev.isAnti then { s.counters with receivedAnti := s.counters.receivedAnti + 1 }
      else { s.counters with receivedEvents := s.counters.receivedEvents + 1 } }

def countRecvByColor (ev : Event) (s : Simulation Q σ) : Simulation Q σ :=
  { s with
    gvtRecvByColor := Function.update s.gvtRecvByColor (ev.gvtColor &&& 1)
      (s.gvtRecvByColor (ev.gvtColor &&& 1) + 1) }

/-- An event taken from the transport: count it, acknowledge it and queue it. -/
def receiveEvent (cfg : SimulationConfig) (srcRank : RankId) (ev : Event) (s : Simulation Q σ) :
    Simulation Q σ :=
  let s := recordDelivery (some srcRank) ev (countReceived ev s)
  if cfg.gvtMode = .coloredCounters then
    (countRecvByColor ev s).enqueue ev
  else
    ((s.transmit (.ack cfg.rank srcRank ev.inflightKey)).trackInflightRecv ev).enqueue ev

/-- An acknowledgement taken from the transport. -/
def receiveAck (key : InflightKey) (s : Simulation Q σ) : Simulation Q σ :=
  { s.clearInflightKey key with hist := { s.hist with acked := s.hist.acked ++ [key] } }

/-- One turn of the loop of `poll_transport_count`. -/
def pollMessage (model : Model σ) (cfg : SimulationConfig) : WireMessage → KernelM Q σ Unit
  | .event srcRank _ ev => modify (receiveEvent cfg srcRank ev)
  | .migration _ _ mig => applyMigration model mig
  | .ack _ _ key =>
    if cfg.gvtMode = .ackInflight then modify (receiveAck key) else return

/-- `poll_transport_count`, on the messages that `poll` hands over. -/
def pollTransport (model : Model σ) (cfg : SimulationConfig) :
    List WireMessage → KernelM Q σ Unit
  | [] => return
  | msg :: rest => do
    pollMessage model cfg msg
    pollTransport model cfg rest

/-! ## Stepping and running -/

/-- `run_one`. Returns whether any progress was made. -/
def runOne (model : Model σ) (cfg : SimulationConfig) (env : Environment) (doCollectives : Bool) :
    KernelM Q σ Bool := do
  startIfNeeded model cfg
  pollTransport model cfg env.polled
  let dispatched ← dispatchNext model cfg
  fossilCollect model cfg env doCollectives
  return !env.polled.isEmpty || dispatched

/-- The digest of all ranks, where reductions are installed. -/
def reduceDigest (cfg : SimulationConfig) (env : Environment) (d : DeterminismDigest) :
    DeterminismDigest :=
  let d := if cfg.reduceU64Sum then
    { d with
      committedEventSum := env.reduceEventSum d.committedEventSum
      committedOutputSum := env.reduceOutputSum d.committedOutputSum } else d
  if cfg.reduceU64Xor then
    { d with
      committedEventXor := env.reduceEventXor d.committedEventXor
      committedOutputXor := env.reduceOutputXor d.committedOutputXor } else d

/-- The `finalize_at_end` of `run`. -/
def finalizeAtEnd (model : Model σ) (cfg : SimulationConfig) (env : Environment) :
    KernelM Q σ Unit := do
  modify fun s => { pruneToGvt cfg maxStamp s with finished := true }
  applyReadyMigrations model
  let s ← get
  if cfg.enableDeterminismOracle ∧ cfg.expectedDeterminismDigest.isSome ∧
      cfg.expectedDeterminismDigest ≠ some (reduceDigest cfg env s.determinism) then
    throw "Determinism oracle failed: digest mismatch"
  else if cfg.enableInstallBeforeUseBuffering ∧ s.deferredTargeted ≠ [] then
    throw "Install-before-use buffering: simulation ended with deferred targeted events still pending (missing install?)"
  else
    return

/-- The sent and not received messages of one rank, over both colors. -/
def colorBalance (s : Simulation Q σ) : Int :=
  (s.gvtSentByColor 0 + s.gvtSentByColor 1) - (s.gvtRecvByColor 0 + s.gvtRecvByColor 1)

/-- The `localHasWork` of `run`. -/
def localHasWork (cfg : SimulationConfig) (env : Environment) (doCollectives : Bool)
    (s : Simulation Q σ) : Bool :=
  let work := decide (Q.size s.pending ≠ 0) || env.hasPending
  if cfg.gvtMode = .ackInflight then
    work || !s.inflightByUid.isEmpty
  else if doCollectives && cfg.gvtReduceSum then
    work || decide (env.workSum (colorBalance s) ≠ 0) || s.gvtRedPhase
  else if cfg.anyRankHasWork then true
  else work

/-- One turn of the loop of `run`, the `iters`-th one. Returns whether the loop goes on. -/
def runIteration (model : Model σ) (cfg : SimulationConfig) (env : Environment) (iters : ℕ) :
    KernelM Q σ Bool := do
  startIfNeeded model cfg
  pollTransport model cfg env.polled
  let _ ← dispatchNext model cfg
  let doCollectives := iters % cfg.period == 0
  fossilCollect model cfg env doCollectives
  let s ← get
  let work := localHasWork cfg env doCollectives s
  if cfg.anyRankHasWork then
    if !doCollectives || env.anyWork work then
      return true
    else
      finalizeAtEnd model cfg env
      return false
  else if work then
    return true
  else
    finalizeAtEnd model cfg env
    return false

/-- The loop of `run`, for as many turns as the first number says, from the turn of the second number
on. Returns whether the loop still goes on. -/
def run (model : Model σ) (cfg : SimulationConfig) (env : ℕ → Environment) : ℕ → ℕ → KernelM Q σ Bool
  | 0, _ => return true
  | turns + 1, iters => do
    if ← runIteration model cfg (env iters) iters then run model cfg env turns (iters + 1)
    else return false

/-- What the program around a kernel can do with it. A call of `run` is the sequence of the turns
of its loop. -/
inductive HostOp where
  | addLp (id : LPId)
  | schedule (ev : Event)
  | send (ev : Event)
  | pollTransport (polled : List WireMessage)
  | runOne (env : Environment) (doCollectives : Bool)
  | runIteration (env : Environment) (iters : ℕ)

/-- One host operation. -/
def hostOp (model : Model σ) (cfg : SimulationConfig) : HostOp → KernelM Q σ Unit
  | .addLp id => addLp model id
  | .schedule ev => modify (schedule ev)
  | .send ev => do
    let _ ← send .host cfg ev
  | .pollTransport polled => pollTransport model cfg polled
  | .runOne env doCollectives => do
    let _ ← runOne model cfg env doCollectives
  | .runIteration env iters => do
    let _ ← runIteration model cfg env iters

end WarpSim

import WarpSim.Model.State

/-! # Sending -/

namespace WarpSim

variable {Q : EventQueue} {σ : Type}

open Prog

namespace Simulation

def modifyCtx (s : Simulation Q σ) (id : LPId) (f : LPContext σ → LPContext σ) : Simulation Q σ :=
  { s with ctx := Function.update s.ctx id (f (s.ctx id)) }

def enqueue (s : Simulation Q σ) (ev : Event) : Simulation Q σ :=
  { s with pending := Q.push s.pending ev }

/-- Hand a message to the transport. -/
def transmit (s : Simulation Q σ) (msg : WireMessage) : Simulation Q σ :=
  { s with outbox := s.outbox ++ [msg] }

/-! ## The runtime invariant checks -/

/-- The per-LP checks of `validate_invariants_`. -/
def contextHolds (c : LPContext σ) : Bool :=
  decide (c.nextSeqNormal ≠ 0) && decide (c.nextSeqControl ≠ 0) && decide (c.nextUid ≠ 0) &&
    decide (c.processed.IsChain (fun a b => ¬ b.ev.ts < a.ev.ts)) &&
    (match c.processed.getLast? with
      | some last => decide (¬ c.vt < last.ev.ts)
      | none => true) &&
    (!c.inEvent || decide (c.currentExecTs = c.vt))

def inflightHolds (cfg : SimulationConfig) (s : Simulation Q σ) : Bool :=
  decide (cfg.gvtMode ≠ .ackInflight) ||
    (decide (s.inflightByUid.length = s.inflightTs.length) &&
      (s.inflightByUid.map Prod.snd).isPerm s.inflightTs)

def tombstoned (s : Simulation Q σ) (ev : Event) : Bool := (s.cancelledByUid ev.uidKey).isSome

/-- A copy of the pending queue pops in non-decreasing order, cancelled events aside. -/
def pendingHolds (s : Simulation Q σ) : Bool :=
  let popped := (Q.drain (Q.size s.pending) s.pending).filter
    fun ev => ev.isAnti || !s.tombstoned ev
  decide (popped.IsChain fun prev ev =>
    ¬ (ev.ts < prev.ts ∨ (ev.ts = prev.ts ∧ ev.src < prev.src) ∨
      (ev.ts = prev.ts ∧ ev.src = prev.src ∧ ev.uid < prev.uid)))

def invariantsHold (cfg : SimulationConfig) (s : Simulation Q σ) : Bool :=
  s.lpIds.all (fun id => contextHolds (s.ctx id)) && inflightHolds cfg s && pendingHolds s

/-- `validate_invariants_`. A failed check is recorded and not thrown. -/
def validateInvariants (cfg : SimulationConfig) (s : Simulation Q σ) : Simulation Q σ :=
  if cfg.enableInvariantChecks then
    { s with checksPassed := s.checksPassed && s.invariantsHold cfg }
  else s

/-! ## Inflight tracking -/

def inflightTs? (s : Simulation Q σ) (key : InflightKey) : Option TimeStamp :=
  s.inflightByUid.lookup key

/-- `track_inflight_send_`: a key that is already in flight keeps its entry. -/
def trackInflightSend (s : Simulation Q σ) (ev : Event) : Simulation Q σ :=
  match s.inflightTs? ev.inflightKey with
  | some _ => s
  | none =>
    { s with
      inflightByUid := (ev.inflightKey, ev.ts) :: s.inflightByUid
      inflightTs := ev.ts :: s.inflightTs }

/-- `clear_inflight_key_`. -/
def clearInflightKey (s : Simulation Q σ) (key : InflightKey) : Simulation Q σ :=
  match s.inflightTs? key with
  | none => s
  | some ts =>
    { s with
      inflightByUid := s.inflightByUid.filter fun entry => entry.1 ≠ key
      inflightTs := s.inflightTs.erase ts }

/-- `track_inflight_recv_`. -/
def trackInflightRecv (s : Simulation Q σ) (ev : Event) : Simulation Q σ :=
  s.clearInflightKey ev.inflightKey

end Simulation

/-! ## `send` -/

open Simulation

/-- Post-increment of a per-LP counter, with the ghost flag for wrap-around. -/
def bumpUid (id : LPId) (s : Simulation Q σ) : Simulation Q σ :=
  { s.modifyCtx id (fun c => { c with nextUid := c.nextUid + 1 }) with
    hist := { s.hist with wrapped := s.hist.wrapped || (s.ctx id).nextUid + 1 == 0 } }

def bumpSeqNormal (id : LPId) (s : Simulation Q σ) : Simulation Q σ :=
  { s.modifyCtx id (fun c => { c with nextSeqNormal := c.nextSeqNormal + 1 }) with
    hist := { s.hist with wrapped := s.hist.wrapped || (s.ctx id).nextSeqNormal + 1 == 0 } }

def bumpSeqControl (id : LPId) (s : Simulation Q σ) : Simulation Q σ :=
  { s.modifyCtx id (fun c => { c with nextSeqControl := c.nextSeqControl + 1 }) with
    hist := { s.hist with wrapped := s.hist.wrapped || (s.ctx id).nextSeqControl + 1 == 0 } }

/-- `ctx_`: the context of a registered LP. -/
def lookupCtx (id : LPId) : KernelM Q σ (LPContext σ) := do
  let s ← get
  if id ∈ s.lpIds then return s.ctx id
  else throw "Unknown LPId"

/-- Assign a `uid` if the caller did not. -/
def assignUid (ev : Event) : KernelM Q σ Event := do
  if ev.uid ≠ 0 then
    return ev
  else
    let ctx ← lookupCtx ev.src
    modify (bumpUid ev.src)
    if ctx.nextUid = 0 then
      throw "Event UID counter overflow for LPId (exhausted 2^64-1 UIDs)"
    else
      return { ev with uid := ctx.nextUid }

/-- Assign a sequence number if the caller did not. With `isControlEvent` the top bit makes
control events order before normal ones of the same time. -/
def assignSequence (cfg : SimulationConfig) (ev : Event) : KernelM Q σ Event := do
  if ev.ts.sequence ≠ 0 then
    return ev
  else
    let ctx ← lookupCtx ev.src
    match cfg.isControlEvent with
    | none =>
      modify (bumpSeqNormal ev.src)
      return { ev with ts := ⟨ev.ts.time, ctx.nextSeqNormal⟩ }
    | some isControlEvent =>
      if isControlEvent ev then
        modify (bumpSeqControl ev.src)
        if ctx.nextSeqControl = 0 then
          throw "Event sequence counter overflow for control events (exhausted 2^64-1 sequences)"
        else
          return { ev with ts := ⟨ev.ts.time, ctx.nextSeqControl⟩ }
      else
        modify (bumpSeqNormal ev.src)
        if ctx.nextSeqNormal = 0 then
          throw "Event sequence counter overflow for normal events (exhausted 2^64-1 sequences)"
        else
          return { ev with ts := ⟨ev.ts.time, ((1 : UInt64) <<< 63) ||| ctx.nextSeqNormal⟩ }

def unsetDst : LPId := -1

/-- Where a targeted event goes: to the entity's directory, or to its known owner. -/
def resolveTarget (cfg : SimulationConfig) (ev : Event) : KernelM Q σ Event := do
  let s ← get
  match cfg.directoryForEntity with
  | some directoryForEntity =>
    let dir := directoryForEntity ev.target
    if dir = 0 then
      throw "send: directoryForEntity returned LPId=0 for target entity"
    else
      modify fun s => { s with directoryLps := s.directoryLps.insert dir }
      return if ev.src ≠ dir then { ev with dst := dir } else ev
  | none =>
    match s.entityOwner ev.target with
    | some owner => return { ev with dst := owner }
    | none => return ev

/-- The entity routing of `send`. -/
def routeTarget (cfg : SimulationConfig) (ev : Event) : KernelM Q σ Event := do
  if ev.target = 0 then
    return ev
  else
    let routed ← resolveTarget cfg ev
    if routed.dst = unsetDst then
      throw "send: event has target!=0 but dst is unset after routing (enable directoryForEntity or ensure an owner is established)"
    else
      return routed

def countSend (ev : Event) (s : Simulation Q σ) : Simulation Q σ :=
  { s with
    counters :=
      if ev.isAnti then { s.counters with sentAnti := s.counters.sentAnti + 1 }
      else { s.counters with sentEvents := s.counters.sentEvents + 1 } }

def sendRecord (cause : SendCause) (asked ev : Event) (rank : RankId) (s : Simulation Q σ) :
    SendRecord :=
  ⟨cause, asked, ev, rank, s.lastGvt, s.hist.migrations.length⟩

def recordSend (cause : SendCause) (asked ev : Event) (rank : RankId) (s : Simulation Q σ) :
    Simulation Q σ :=
  { s with hist := { s.hist with sends := s.hist.sends ++ [sendRecord cause asked ev rank s] } }

/-- Log a positive event for a later anti-message. -/
def logSend (ev : Event) : KernelM Q σ Unit := do
  if ev.isAnti then
    return
  else
    let ctx ← lookupCtx ev.src
    let sendTime := if ctx.inEvent then ctx.currentExecTs else ⟨0, 0⟩
    modify fun s => s.modifyCtx ev.src fun c =>
      { c with sentLog := c.sentLog ++ [⟨sendTime, ev.ts, ev.dst, ev.uid⟩] }

/-- The colored-counters bookkeeping of a remote send. -/
def countColored (ev : Event) (s : Simulation Q σ) : Simulation Q σ :=
  { s with
    gvtSentByColor := Function.update s.gvtSentByColor (s.gvtColor &&& 1)
      (s.gvtSentByColor (s.gvtColor &&& 1) + 1)
    gvtMinRedSentTs :=
      if s.gvtColor ≠ s.gvtWhiteColor then minStamp s.gvtMinRedSentTs ev.ts
      else s.gvtMinRedSentTs }

/-- The two delivery paths of `send`: the own queue, or the transport. -/
def deliver (cause : SendCause) (cfg : SimulationConfig) (asked ev : Event) :
    KernelM Q σ Event := do
  let s ← get
  let dstRank := cfg.rankOf ev.dst
  if dstRank = cfg.rank then
    let ev := if cfg.gvtMode ≠ .ackInflight then { ev with gvtColor := s.gvtColor } else ev
    modify (countSend ev)
    modify fun s => recordSend cause asked ev dstRank (s.enqueue ev)
    modify (validateInvariants cfg)
    logSend ev
    return ev
  else if cfg.gvtMode = .ackInflight then
    modify fun s => s.trackInflightSend ev
    modify (countSend ev)
    modify fun s => recordSend cause asked ev dstRank (s.transmit (.event cfg.rank dstRank ev))
    logSend ev
    modify (validateInvariants cfg)
    return ev
  else
    let ev := { ev with gvtColor := s.gvtColor }
    modify (countColored ev)
    modify (countSend ev)
    modify fun s => recordSend cause asked ev dstRank (s.transmit (.event cfg.rank dstRank ev))
    logSend ev
    modify (validateInvariants cfg)
    return ev

/-- Complete an event before it is delivered. -/
def stamp (cfg : SimulationConfig) (asked : Event) : KernelM Q σ Event := do
  let ev ← assignUid asked
  let ev ← assignSequence cfg ev
  routeTarget cfg ev

/-- `Simulation::send`. The ghost `cause` names the caller; the result is the event as sent. -/
def send (cause : SendCause) (cfg : SimulationConfig) (asked : Event) : KernelM Q σ Event := do
  modify (validateInvariants cfg)
  let ev ← stamp cfg asked
  deliver cause cfg asked ev

end WarpSim

import WarpSim.Model.Run

/-! # The moves of a kernel

A kernel is seen as a machine that makes small moves on the simulation while it takes an event off
the queue and deals with it. Each move changes the simulation by one update of the model. What
holds over all runs is proved move by move. -/

namespace WarpSim

variable {Q : EventQueue} {σ : Type}

open Simulation

/-! ## Where the kernel is -/

/-- What the dispatcher is doing with the event it popped. -/
inductive Activity (σ : Type) where
  | idle
  | holding (ev : Event)
  /-- The context of the LP was `before`; `calls` are the sends of the handler so far. -/
  | executing (before : LPContext σ) (ev : Event) (calls : List (Event × Except String Event))
  /-- The tombstone of an anti-message is in place. -/
  | annulling (rec : ProcessedRecord)
  /-- The event it cancels has been rolled back, if it had been processed. -/
  | annulled (rec : ProcessedRecord)

/-- The popped event that is in none of the queues and lists of the simulation. -/
def Activity.hand : Activity σ → Option Event
  | .idle => none
  | .holding ev => some ev
  | .executing _ ev _ => some ev
  | .annulling rec => some rec.ev
  | .annulled rec => some rec.ev

/-- The popped event while a rollback on its behalf is at work. -/
def Activity.unwinding : Activity σ → Option Event
  | .holding ev => some ev
  | .annulled rec => some rec.ev
  | _ => none

def Activity.noteCall (a : Activity σ) (asked : Event) (r : Except String Event) : Activity σ :=
  match a with
  | .executing before ev calls => .executing before ev (calls ++ [(asked, r)])
  | a => a

/-- A simulation between two updates of the kernel. The entries of sent logs in `owed` have been
picked by a rollback and still await their anti-messages. -/
structure Situation (Q : EventQueue) (σ : Type) where
  activity : Activity σ
  owed : List (LPId × SentRecord)
  state : Simulation Q σ

/-- A simulation between two calls of the host. -/
def Simulation.atRest (s : Simulation Q σ) : Situation Q σ := ⟨.idle, [], s⟩

/-- A step that touches only what no property of the moves depends on. -/
def Quiet (s s' : Simulation Q σ) : Prop :=
  s' = { s with
    systemSrc := s'.systemSrc
    directoryLps := s'.directoryLps
    lastDirectoryGcGvt := s'.lastDirectoryGcGvt
    counters := s'.counters
    checksPassed := s'.checksPassed }

/-! ## Sending -/

/-- Set the counters of one LP. -/
def renumber (id : LPId) (uid normal control : UInt64) (wraps : Bool) (s : Simulation Q σ) :
    Simulation Q σ :=
  { s.modifyCtx id (fun c =>
      { c with nextUid := uid, nextSeqNormal := normal, nextSeqControl := control }) with
    hist := { s.hist with wrapped := s.hist.wrapped || wraps } }

/-- The exception that `send` throws for a target it cannot route. -/
def unroutable (ev : Event) : Option String :=
  if ev.target ≠ 0 ∧ ev.dst = unsetDst then
    some "send: event has target!=0 but dst is unset after routing (enable directoryForEntity or ensure an owner is established)"
  else none

/-- Neither directories nor the owner map take part in routing. -/
def PlainRouting (cfg : SimulationConfig) (s : Simulation Q σ) : Prop :=
  cfg.directoryForEntity = none ∧ ∀ entity, s.entityOwner entity = none

/-- `ev` is `asked` with the uid, the sequence number and the destination that `send` gives it in
state `s`, which takes the counters of the source to the given values. -/
structure Stamped (cfg : SimulationConfig) (s : Simulation Q σ) (asked ev : Event)
    (uid normal control : UInt64) (wraps : Bool) : Prop where
  frame : ev = { asked with ts := ev.ts, dst := ev.dst, uid := ev.uid }
  time : ev.ts.time = asked.ts.time
  uid_given : asked.uid ≠ 0 → ev.uid = asked.uid ∧ uid = (s.ctx asked.src).nextUid
  uid_auto : asked.uid = 0 →
    ev.uid = (s.ctx asked.src).nextUid ∧ uid = (s.ctx asked.src).nextUid + 1
  uid_ne_zero : ev.uid ≠ 0
  uid_wraps : wraps = false → asked.uid = 0 → uid ≠ 0
  sequence_given : asked.ts.sequence ≠ 0 → ev.ts = asked.ts ∧
    normal = (s.ctx asked.src).nextSeqNormal ∧ control = (s.ctx asked.src).nextSeqControl
  sequence_ne_zero : (s.ctx asked.src).nextSeqNormal ≠ 0 → ev.ts.sequence ≠ 0
  sequence_tagged : cfg.isControlEvent ≠ none → ev.ts.sequence ≠ 0
  counters_ne_zero : wraps = false → (s.ctx asked.src).nextSeqNormal ≠ 0 → normal ≠ 0
  untargeted : asked.target = 0 → ev.dst = asked.dst
  owned : cfg.directoryForEntity = none → asked.target ≠ 0 →
    ev.dst = (s.entityOwner asked.target).getD asked.dst
  plain : PlainRouting cfg s → ev.dst = asked.dst
  routed : PlainRouting cfg s → unroutable asked = none
  registered : asked.uid = 0 ∨ asked.ts.sequence = 0 → asked.src ∈ s.lpIds

/-- `send` may fail to number the event. -/
def Unnumbered (cfg : SimulationConfig) (s : Simulation Q σ) (asked : Event) : Prop :=
  asked.uid = 0 ∨
    (asked.ts.sequence = 0 ∧ (asked.src ∉ s.lpIds ∨ cfg.isControlEvent ≠ none))

/-- Why `send` may refuse an event. -/
structure Refusable (cfg : SimulationConfig) (s : Simulation Q σ) (asked : Event)
    (what : String) : Prop where
  plain : PlainRouting cfg s → asked.src ∈ s.lpIds → (s.ctx asked.src).nextUid ≠ 0 →
    asked.ts.sequence ≠ 0 → unroutable asked = some what
  untargeted : asked.target = 0 → Unnumbered cfg s asked

def stampColor (cfg : SimulationConfig) (s : Simulation Q σ) (ev : Event) : Event :=
  if cfg.gvtMode ≠ .ackInflight then { ev with gvtColor := s.gvtColor } else ev

/-- `deliver` without its log entry. -/
def posted (cause : SendCause) (cfg : SimulationConfig) (asked ev : Event) (s : Simulation Q σ) :
    Simulation Q σ :=
  let dstRank := cfg.rankOf ev.dst
  recordSend cause asked ev dstRank <|
    if dstRank = cfg.rank then s.enqueue ev
    else if cfg.gvtMode = .ackInflight then
      (s.trackInflightSend ev).transmit (.event cfg.rank dstRank ev)
    else (countColored ev s).transmit (.event cfg.rank dstRank ev)

/-- The entries that sending an event adds to the log of its source. -/
def logEntries (ev : Event) (c : LPContext σ) : List SentRecord :=
  if ev.isAnti then []
  else [⟨if c.inEvent then c.currentExecTs else ⟨0, 0⟩, ev.ts, ev.dst, ev.uid⟩]

def logged (ev : Event) (s : Simulation Q σ) : Simulation Q σ :=
  s.modifyCtx ev.src fun c => { c with sentLog := c.sentLog ++ logEntries ev c }

/-- Which callers can be at work, and what is known of the event they pass. -/
def Activity.Allows (s : Simulation Q σ) : Activity σ → SendCause → Event → Prop
  | .idle, .host, _ => True
  | .idle, .start _, _ => s.lastGvt = ⟨0, 0⟩
  | .idle, .notification, asked => asked.ts = s.lastGvt
  | .executing _ ev _, .handler id execTs, _ => id = ev.dst ∧ execTs = ev.ts
  | _, _, _ => False

/-! ## Executing -/

/-- The state is one that the starter can end in. -/
inductive Starter.Ends : Starter σ → σ → Prop where
  | done (state) : Ends (.done state) state
  | throw (state what) : Ends (.throw state what) state
  | send {ev next state} (r) : Ends (next r) state → Ends (.send ev next) state

/-- The state is one that the handler can end in. -/
inductive Handler.Ends : Handler σ → σ → Prop where
  | done (state) : Ends (.done state) state
  | throw (state what) : Ends (.throw state what) state
  | send {ev next state} (r) : Ends (next r) state → Ends (.send ev next) state
  | write {st entity next state} : Ends next state → Ends (.requestWrite st entity next) state
  | emit {ts payload next state} (r) : Ends (next r) state → Ends (.emitCommitted ts payload next) state

/-- A handler, given the results of its sends, fills the record and ends in a state. -/
inductive Handler.Run (lp : LogicalProcess σ) : Handler σ → ProcessedRecord →
    List (Event × Except String Event) → σ → ProcessedRecord → Prop where
  | done (state rec) : Run lp (.done state) rec [] state rec
  | send {ev r next rec calls state rec'} :
      Run lp (next (exceptionOf r)) { rec with sent := rec.sent ++ r.toOption.toList } calls state rec' →
      Run lp (.send ev next) rec ((ev, r) :: calls) state rec'
  | write {st entity next rec calls state rec'} :
      Run lp next (WarpSim.requestWrite lp st entity rec) calls state rec' →
      Run lp (.requestWrite st entity next) rec calls state rec'
  | emit {ts payload next rec calls state rec'} : ts = rec.ev.ts →
      Run lp (next none) { rec with committed := rec.committed ++ [⟨ts, payload⟩] } calls state rec' →
      Run lp (.emitCommitted ts payload next) rec calls state rec'
  | emitRefused {ts payload next rec calls state rec'} : ts ≠ rec.ev.ts →
      Run lp (next (some "emit_committed: ts must match the current event timestamp")) rec calls
        state rec' →
      Run lp (.emitCommitted ts payload next) rec calls state rec'

def lose (ev : Event) (s : Simulation Q σ) : Simulation Q σ :=
  { s with hist := { s.hist with lost := s.hist.lost ++ [ev] } }

def entered (ev : Event) (s : Simulation Q σ) : Simulation Q σ :=
  s.modifyCtx ev.dst fun c => { c with vt := ev.ts, inEvent := true, currentExecTs := ev.ts }

def left (id : LPId) (s : Simulation Q σ) : Simulation Q σ :=
  s.modifyCtx id fun c => { c with inEvent := false }

/-- The state in which a rollback starts to emit its anti-messages. -/
def unwound (model : Model σ) (id : LPId) (target : TimeStamp) (s : Simulation Q σ) :
    Simulation Q σ :=
  (undoProcessed model id target
    { s with hist := { s.hist with rollbacks := s.hist.rollbacks ++ [⟨id, target, s.lastGvt⟩] } }).modifyCtx id
    fun c => { c with vt := prevStamp target }

def owedAntis (id : LPId) (target : TimeStamp) (s : Simulation Q σ) : List (LPId × SentRecord) :=
  (cancelledSends target (s.ctx id).sentLog).map (id, ·)

/-- The migration is handed to its new owner, who owns the entity from then on. -/
def takeOver (model : Model σ) (mig : Migration) (s : Simulation Q σ) : Simulation Q σ :=
  let c := s.ctx mig.newOwner
  recordMigration (.applied mig c.executed.length c.undone.length)
    { setLp mig.newOwner ((model mig.newOwner).onMigration c.lp mig.entity mig.state) s with
      entityOwner := Function.update s.entityOwner mig.entity mig.newOwner }

/-- The record of an anti-message about to be processed. -/
def antiRecord (ev : Event) (s : Simulation Q σ) : ProcessedRecord :=
  match s.cancelledByUid ev.uidKey with
  | some ts => { newRecord ev (s.ctx ev.dst) with cancelHadEntry := true, cancelPrevTs := ts }
  | none => newRecord ev (s.ctx ev.dst)

/-! ## What the updates leave alone -/

variable {model : Model σ} {cfg : SimulationConfig}

/-- The context apart from what sending may change: the counters and the sent log. -/
structure SameWork (c c' : LPContext σ) : Prop where
  lp : c'.lp = c.lp
  vt : c'.vt = c.vt
  inEvent : c'.inEvent = c.inEvent
  currentExecTs : c'.currentExecTs = c.currentExecTs
  processed : c'.processed = c.processed
  executed : c'.executed = c.executed
  undone : c'.undone = c.undone
  fossils : c'.fossils = c.fossils

theorem SameWork.refl (c : LPContext σ) : SameWork c c := ⟨rfl, rfl, rfl, rfl, rfl, rfl, rfl, rfl⟩

theorem SameWork.trans {c c' c'' : LPContext σ} (h : SameWork c c') (h' : SameWork c' c'') :
    SameWork c c'' :=
  ⟨h'.lp.trans h.lp, h'.vt.trans h.vt, h'.inEvent.trans h.inEvent,
    h'.currentExecTs.trans h.currentExecTs, h'.processed.trans h.processed,
    h'.executed.trans h.executed, h'.undone.trans h.undone, h'.fossils.trans h.fossils⟩

theorem modifyCtx_self (s : Simulation Q σ) (id : LPId) (f : LPContext σ → LPContext σ) :
    (s.modifyCtx id f).ctx id = f (s.ctx id) := Function.update_self ..

theorem modifyCtx_of_ne (s : Simulation Q σ) {id i : LPId} (f : LPContext σ → LPContext σ)
    (h : i ≠ id) : (s.modifyCtx id f).ctx i = s.ctx i := Function.update_of_ne h ..

/-- An update of one context keeps what the update function keeps. -/
theorem modifyCtx_proj {β : Type*} (p : LPContext σ → β) {f : LPContext σ → LPContext σ}
    (hf : ∀ c, p (f c) = p c) (s : Simulation Q σ) (id i : LPId) :
    p ((s.modifyCtx id f).ctx i) = p (s.ctx i) := by
  by_cases hi : i = id
  · rw [hi, modifyCtx_self, hf]
  · rw [modifyCtx_of_ne s f hi]

theorem sameWork_modifyCtx {f : LPContext σ → LPContext σ} (hf : ∀ c, SameWork c (f c))
    (s : Simulation Q σ) (id i : LPId) : SameWork (s.ctx i) ((s.modifyCtx id f).ctx i) := by
  by_cases hi : i = id
  · rw [hi, modifyCtx_self]
    exact hf _
  · rw [modifyCtx_of_ne s f hi]
    exact SameWork.refl _

theorem sameWork_renumber (id : LPId) (u n k : UInt64) (w : Bool) (s : Simulation Q σ) (i : LPId) :
    SameWork (s.ctx i) ((renumber id u n k w s).ctx i) :=
  sameWork_modifyCtx
    (f := fun c => { c with nextUid := u, nextSeqNormal := n, nextSeqControl := k })
    (fun _ => ⟨rfl, rfl, rfl, rfl, rfl, rfl, rfl, rfl⟩) s id i

theorem sameWork_logged (ev : Event) (s : Simulation Q σ) (i : LPId) :
    SameWork (s.ctx i) ((logged ev s).ctx i) :=
  sameWork_modifyCtx (f := fun c => { c with sentLog := c.sentLog ++ logEntries ev c })
    (fun _ => ⟨rfl, rfl, rfl, rfl, rfl, rfl, rfl, rfl⟩) s ev.src i

theorem sameWork_dropLast (id : LPId) (s : Simulation Q σ) (i : LPId) :
    SameWork (s.ctx i) ((s.modifyCtx id fun c => { c with sentLog := c.sentLog.dropLast }).ctx i) :=
  sameWork_modifyCtx (f := fun c => { c with sentLog := c.sentLog.dropLast })
    (fun _ => ⟨rfl, rfl, rfl, rfl, rfl, rfl, rfl, rfl⟩) s id i

theorem trackInflightSend_eq (ev : Event) (s : Simulation Q σ) :
    s.trackInflightSend ev = { s with
      inflightByUid := (s.trackInflightSend ev).inflightByUid
      inflightTs := (s.trackInflightSend ev).inflightTs } := by
  unfold Simulation.trackInflightSend
  split <;> rfl

theorem clearInflightKey_eq (key : InflightKey) (s : Simulation Q σ) :
    s.clearInflightKey key = { s with
      inflightByUid := (s.clearInflightKey key).inflightByUid
      inflightTs := (s.clearInflightKey key).inflightTs } := by
  unfold Simulation.clearInflightKey
  split <;> rfl

theorem posted_eq (cause : SendCause) (asked ev : Event) (s : Simulation Q σ) :
    posted cause cfg asked ev s = { s with
      pending := if cfg.rankOf ev.dst = cfg.rank then Q.push s.pending ev else s.pending
      outbox := (posted cause cfg asked ev s).outbox
      inflightByUid := (posted cause cfg asked ev s).inflightByUid
      inflightTs := (posted cause cfg asked ev s).inflightTs
      gvtSentByColor := (posted cause cfg asked ev s).gvtSentByColor
      gvtMinRedSentTs := (posted cause cfg asked ev s).gvtMinRedSentTs
      hist := { s.hist with
        sends := s.hist.sends ++ [sendRecord cause asked ev (cfg.rankOf ev.dst) s] } } := by
  unfold posted
  dsimp only
  split
  · rfl
  · split
    · rw [trackInflightSend_eq]
      rfl
    · rfl

theorem posted_ctx (cause : SendCause) (asked ev : Event) (s : Simulation Q σ) :
    (posted cause cfg asked ev s).ctx = s.ctx := by rw [posted_eq]

theorem posted_sends (cause : SendCause) (asked ev : Event) (s : Simulation Q σ) :
    (posted cause cfg asked ev s).hist.sends =
      s.hist.sends ++ [sendRecord cause asked ev (cfg.rankOf ev.dst) s] := by
  rw [posted_eq]

/-- A successful send leaves the work of every LP as it was. -/
theorem sameWork_sent (cause : SendCause) (asked ev ev' : Event) (id : LPId) (u n k : UInt64)
    (w : Bool) (s : Simulation Q σ) (i : LPId) :
    SameWork (s.ctx i) ((logged ev' (posted cause cfg asked ev (renumber id u n k w s))).ctx i) := by
  refine SameWork.trans ?_ (sameWork_logged _ _ i)
  rw [posted_ctx]
  exact sameWork_renumber id u n k w s i

theorem sameWork_annul (cause : SendCause) (asked ev : Event) (id : LPId) (u n k : UInt64)
    (w : Bool) (s : Simulation Q σ) (i : LPId) :
    SameWork (s.ctx i) (((posted cause cfg asked ev (renumber id u n k w s)).modifyCtx id fun c =>
      { c with sentLog := c.sentLog.dropLast }).ctx i) := by
  refine SameWork.trans ?_ (sameWork_dropLast _ _ i)
  rw [posted_ctx]
  exact sameWork_renumber id u n k w s i

theorem receiveEvent_eq (srcRank : RankId) (ev : Event) (s : Simulation Q σ) :
    receiveEvent cfg srcRank ev s = { s with
      pending := Q.push s.pending ev
      outbox := (receiveEvent cfg srcRank ev s).outbox
      inflightByUid := (receiveEvent cfg srcRank ev s).inflightByUid
      inflightTs := (receiveEvent cfg srcRank ev s).inflightTs
      gvtRecvByColor := (receiveEvent cfg srcRank ev s).gvtRecvByColor
      counters := (receiveEvent cfg srcRank ev s).counters
      hist := { s.hist with
        delivered := s.hist.delivered ++ [⟨ev, some srcRank, s.lastGvt⟩] } } := by
  unfold receiveEvent
  dsimp only
  split
  · rfl
  · unfold Simulation.trackInflightRecv
    rw [clearInflightKey_eq]
    rfl

theorem receiveAck_eq (key : InflightKey) (s : Simulation Q σ) :
    receiveAck key s = { s with
      inflightByUid := (s.clearInflightKey key).inflightByUid
      inflightTs := (s.clearInflightKey key).inflightTs
      hist := { s.hist with acked := s.hist.acked ++ [key] } } := by
  unfold receiveAck
  rw [clearInflightKey_eq]

theorem foldl_enqueue (evs : List Event) (s : Simulation Q σ) :
    evs.foldl enqueue s = { s with pending := evs.foldl Q.push s.pending } := by
  induction evs generalizing s with
  | nil => rfl
  | cons ev evs ih => rw [List.foldl_cons, ih, List.foldl_cons]; rfl

theorem releaseDeferredFor_eq (id : LPId) (entity : EntityId) (s : Simulation Q σ) :
    releaseDeferredFor id entity s = { s with
      pending := (releaseDeferredFor id entity s).pending
      deferredTargeted := (releaseDeferredFor id entity s).deferredTargeted } := by
  unfold releaseDeferredFor
  dsimp only
  split
  · rfl
  · rw [foldl_enqueue]

/-- What the execution of an install event sets free is put back. -/
def released (ev : Event) (s : Simulation Q σ) : Simulation Q σ :=
  releaseDeferredFor ev.dst ev.target (recordRelease ev s)

theorem released_eq (ev : Event) (s : Simulation Q σ) :
    released ev s = { s with
      pending := (released ev s).pending
      deferredTargeted := (released ev s).deferredTargeted
      hist := (recordRelease ev s).hist } := by
  unfold released
  rw [releaseDeferredFor_eq]
  rfl

/-- Undoing records puts their events back and takes their tombstones away. -/
theorem foldl_undoRecord (records : List ProcessedRecord) (s : Simulation Q σ) :
    records.foldl undoRecord s = { s with
      pending := (records.map (·.ev)).foldl Q.push s.pending
      cancelledByUid := records.foldl restoreTombstone s.cancelledByUid } := by
  induction records generalizing s with
  | nil => rfl
  | cons rec records ih => simp [ih, undoRecord, Simulation.enqueue]

/-- The context that a rollback of the LP leaves behind. -/
def LPContext.rewind (lp : LogicalProcess σ) (target : TimeStamp) (c : LPContext σ) : LPContext σ :=
  let undone := undoneRecords target c.processed
  let c' := { c with
    processed := keptRecords target c.processed
    undone := c.undone ++ undone
    vt := prevStamp target }
  match undone with
  | [] => c'
  | oldest :: _ =>
    { c' with
      nextSeqNormal := oldest.preNextSeqNormal
      nextSeqControl := oldest.preNextSeqControl
      lp := restoreState lp undone c.lp }

theorem LPContext.rewind_eq (lp : LogicalProcess σ) (target : TimeStamp) (c : LPContext σ) :
    c.rewind lp target = { c with
      lp := (c.rewind lp target).lp
      nextSeqNormal := (c.rewind lp target).nextSeqNormal
      nextSeqControl := (c.rewind lp target).nextSeqControl
      processed := keptRecords target c.processed
      undone := c.undone ++ undoneRecords target c.processed
      vt := prevStamp target } := by
  unfold LPContext.rewind
  dsimp only
  split
  · next h => simp [h]
  · next h => simp [h]

theorem unwound_eq (model : Model σ) (id : LPId) (target : TimeStamp) (s : Simulation Q σ) :
    unwound model id target s = { s with
      pending :=
        ((undoneRecords target (s.ctx id).processed).reverse.map (·.ev)).foldl Q.push s.pending
      cancelledByUid := (undoneRecords target (s.ctx id).processed).reverse.foldl restoreTombstone
        s.cancelledByUid
      ctx := Function.update s.ctx id ((s.ctx id).rewind (model id) target)
      counters := (unwound model id target s).counters
      hist := { s.hist with rollbacks := s.hist.rollbacks ++ [⟨id, target, s.lastGvt⟩] } } := by
  unfold unwound undoProcessed LPContext.rewind
  simp only [foldl_undoRecord]
  split
  · simp [Simulation.modifyCtx, *]
  · simp [Simulation.modifyCtx, *]

/-! ## The moves -/

inductive Move (model : Model σ) (cfg : SimulationConfig) :
    Situation Q σ → Situation Q σ → Prop where
  | quiet {a owed s s'} : Quiet s s' → Move model cfg ⟨a, owed, s⟩ ⟨a, owed, s'⟩
  | register {s id} : id ∉ s.lpIds →
      Move model cfg ⟨.idle, [], s⟩ ⟨.idle, [], { s with
        lpIds := s.lpIds ++ [id]
        ctx := Function.update s.ctx id { lp := (model id).init } }⟩
  | start {s} : s.started = false →
      Move model cfg ⟨.idle, [], s⟩ ⟨.idle, [], { s with started := true }⟩
  /-- A starter has ended in a state. -/
  | prepare {s id state} : (s.ctx id).executed = [] →
      ((model id).onStart (s.ctx id).lp).Ends state →
      Move model cfg ⟨.idle, [], s⟩ ⟨.idle, [], setLp id state s⟩
  | schedule {s ev} : Move model cfg ⟨.idle, [], s⟩ ⟨.idle, [], schedule ev s⟩
  | receive {s srcRank ev} :
      Move model cfg ⟨.idle, [], s⟩ ⟨.idle, [], receiveEvent cfg srcRank ev s⟩
  | acknowledge {s key} : cfg.gvtMode = .ackInflight →
      Move model cfg ⟨.idle, [], s⟩ ⟨.idle, [], receiveAck key s⟩
  | queueMigration {s mig} :
      Move model cfg ⟨.idle, [], s⟩ ⟨.idle, [], recordMigration (.arrived mig) (queueMigration mig s)⟩
  | migrate {s mig rest} : s.pendingMigrations = mig :: rest → ¬ s.lastGvt < mig.effectiveTs →
      mig.newOwner ∈ s.lpIds →
      Move model cfg ⟨.idle, [], s⟩ ⟨.idle, [], takeOver model mig { s with pendingMigrations := rest }⟩
  /-- The new owner is unknown. -/
  | misplace {s mig rest} : s.pendingMigrations = mig :: rest → ¬ s.lastGvt < mig.effectiveTs →
      mig.newOwner ∉ s.lpIds →
      Move model cfg ⟨.idle, [], s⟩ ⟨.idle, [], { s with pendingMigrations := rest }⟩
  | sent {a s cause asked ev uid normal control wraps} : a.Allows s cause asked →
      Stamped cfg s asked ev uid normal control wraps →
      asked.isAnti = true ∨ asked.src ∈ s.lpIds →
      Move model cfg ⟨a, [], s⟩ ⟨a.noteCall asked (.ok (stampColor cfg s ev)), [],
        logged (stampColor cfg s ev) (posted cause cfg asked (stampColor cfg s ev)
          (renumber asked.src uid normal control wraps s))⟩
  /-- The source is unknown, which `send` finds out after it has delivered the event. -/
  | unlogged {a s cause asked ev uid normal control wraps what} : a.Allows s cause asked →
      Stamped cfg s asked ev uid normal control wraps →
      asked.isAnti = false → asked.src ∉ s.lpIds →
      Move model cfg ⟨a, [], s⟩ ⟨a.noteCall asked (.error what), [],
        posted cause cfg asked (stampColor cfg s ev)
          (renumber asked.src uid normal control wraps s)⟩
  | refused {a s asked uid normal control wraps what} : Refusable cfg s asked what →
      (wraps = false → (s.ctx asked.src).nextUid ≤ uid ∧
        ((s.ctx asked.src).nextSeqNormal ≠ 0 → normal ≠ 0)) →
      Move model cfg ⟨a, [], s⟩
        ⟨a.noteCall asked (.error what), [], renumber asked.src uid normal control wraps s⟩
  | discard {s skip} : (∀ ev, skip ev = true → s.tombstoned ev = true) →
      Move model cfg ⟨.idle, [], s⟩ ⟨.idle, [], discardPending skip s⟩
  | pop {s ev} : s.started = true → Q.top? s.pending = some ev →
      ev.isAnti = true ∨ s.tombstoned ev = false →
      Move model cfg ⟨.idle, [], s⟩
        ⟨.holding ev, [], recordDispatch ev { s with pending := Q.pop s.pending }⟩
  | straggle {s ev} : ev.dst ∈ s.lpIds → ev.ts < (s.ctx ev.dst).vt →
      Move model cfg ⟨.holding ev, [], s⟩
        ⟨.holding ev, owedAntis ev.dst ev.ts s, unwound model ev.dst ev.ts s⟩
  | requeue {s ev} : Move model cfg ⟨.holding ev, [], s⟩ ⟨.idle, [], s.enqueue ev⟩
  | enter {s ev} : ev.isAnti = false → ev.dst ∈ s.lpIds → ¬ ev.ts < (s.ctx ev.dst).vt →
      Move model cfg ⟨.holding ev, [], s⟩ ⟨.executing (s.ctx ev.dst) ev [], [], entered ev s⟩
  | store {before ev calls s state} : ((model ev.dst).onEvent before.lp ev).Ends state →
      Move model cfg ⟨.executing before ev calls, [], s⟩
        ⟨.executing before ev calls, [], setLp ev.dst state s⟩
  | finish {before ev calls s rec} :
      Handler.Run (model ev.dst) ((model ev.dst).onEvent before.lp ev) (newRecord ev before) calls
        (s.ctx ev.dst).lp rec →
      Move model cfg ⟨.executing before ev calls, [], s⟩
        ⟨.idle, [], pushProcessed ev.dst rec (left ev.dst s)⟩
  | release {s ev} : cfg.enableInstallBeforeUseBuffering = true →
      Move model cfg ⟨.idle, [], s⟩
        ⟨.idle, [], released ev s⟩
  | defer {before ev calls s} : cfg.enableInstallBeforeUseBuffering = true →
      Move model cfg ⟨.executing before ev calls, [], s⟩
        ⟨.idle, [], deferTargetedEvent ev ((left ev.dst s).modifyCtx ev.dst fun c =>
          { c with vt := before.vt, currentExecTs := before.vt })⟩
  | abort {before ev calls s} :
      Move model cfg ⟨.executing before ev calls, [], s⟩ ⟨.holding ev, [], left ev.dst s⟩
  | mark {s ev} : ev.isAnti = true → ev.dst ∈ s.lpIds → ¬ ev.ts < (s.ctx ev.dst).vt →
      Move model cfg ⟨.holding ev, [], s⟩ ⟨.annulling (antiRecord ev s), [], insertTombstone ev s⟩
  | matched {s rec r} : rec.ev.dst ∈ s.lpIds →
      (s.ctx rec.ev.dst).processed.reverse.find? (matchesAnti rec.ev) = some r →
      Move model cfg ⟨.annulling rec, [], s⟩
        ⟨.annulled rec, owedAntis rec.ev.dst r.ev.ts s, unwound model rec.ev.dst r.ev.ts s⟩
  | unmatched {s rec} :
      (s.ctx rec.ev.dst).processed.reverse.find? (matchesAnti rec.ev) = none →
      Move model cfg ⟨.annulling rec, [], s⟩ ⟨.annulled rec, [], s⟩
  | settle {s rec} :
      Move model cfg ⟨.annulled rec, [], s⟩ ⟨.idle, [], pushProcessed rec.ev.dst rec
        (s.modifyCtx rec.ev.dst fun c => { c with vt := rec.ev.ts })⟩
  | annul {a id log owed s ev uid normal control wraps} :
      Stamped cfg s (antiOf id log) ev uid normal control wraps →
      Move model cfg ⟨a, (id, log) :: owed, s⟩ ⟨a, owed,
        (posted (.rollback id) cfg (antiOf id log) (stampColor cfg s ev)
          (renumber id uid normal control wraps s)).modifyCtx id fun c =>
            { c with sentLog := c.sentLog.dropLast }⟩
  /-- An anti-message cannot be sent, which ends the dispatch. -/
  | stuck {a id log owed s ev uid normal control wraps what} : a.unwinding = some ev →
      Refusable cfg s (antiOf id log) what →
      (wraps = false → (s.ctx id).nextUid ≤ uid ∧ ((s.ctx id).nextSeqNormal ≠ 0 → normal ≠ 0)) →
      Move model cfg ⟨a, (id, log) :: owed, s⟩
        ⟨.idle, [], lose ev (renumber id uid normal control wraps s)⟩
  /-- A handler has thrown, or the destination is unknown. -/
  | lose {s ev} : ev.isAnti = false ∨ ev.dst ∉ s.lpIds →
      Move model cfg ⟨.holding ev, [], s⟩ ⟨.idle, [], lose ev s⟩

/-- The moves of the GVT algorithms. Under `sound` the bound that comes back from a reduction is
not above the one this kernel put in, and no kernel with pending events is told to end. Only where
`final` holds may the run end. -/
inductive GvtMove (sound final : Prop) (cfg : SimulationConfig) :
    Situation Q σ → Situation Q σ → Prop where
  | advance {s gvt} : s.started = true → s.lastGvt ≤ gvt →
      (sound → (∀ ev ∈ Q.elems s.pending, gvt ≤ ev.ts) ∧ ∀ id ∈ s.lpIds, gvt ≤ (s.ctx id).vt) →
      GvtMove sound final cfg ⟨.idle, [], s⟩ ⟨.idle, [], pruneToGvt cfg gvt (raiseGvt gvt s)⟩
  | prune {s} :
      GvtMove sound final cfg ⟨.idle, [], s⟩ ⟨.idle, [], pruneToGvt cfg s.lastGvt s⟩
  | flush {s} : final → (sound → Q.elems s.pending = 0) →
      GvtMove sound final cfg ⟨.idle, [], s⟩
        ⟨.idle, [], { pruneToGvt cfg maxStamp s with finished := true }⟩
  | flip {s} : GvtMove sound final cfg ⟨.idle, [], s⟩ ⟨.idle, [], flipToRed s⟩
  | reset {s} : GvtMove sound final cfg ⟨.idle, [], s⟩ ⟨.idle, [], resetToWhite s⟩

/-- Any number of moves of the event loop. -/
abbrev Moves (model : Model σ) (cfg : SimulationConfig) :
    Situation Q σ → Situation Q σ → Prop :=
  Relation.ReflTransGen (Move model cfg)

/-- Any number of moves. -/
abbrev AllMoves (sound final : Prop) (model : Model σ) (cfg : SimulationConfig) :
    Situation Q σ → Situation Q σ → Prop :=
  Relation.ReflTransGen fun x y => Move model cfg x y ∨ GvtMove sound final cfg x y

end WarpSim

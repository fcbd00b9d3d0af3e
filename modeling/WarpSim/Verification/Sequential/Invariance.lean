import WarpSim.Verification.Sequential.Outcomes
import WarpSim.Verification.Sequential.Output

/-! # The digest and the order of arrival

The digest of a run takes in the uids of events and the anti-messages that have been committed. Where no rollback
has cancelled a send it depends on nothing but the events from outside. -/

namespace WarpSim

variable {Q : EventQueue} {σ : Type} {model : Model σ} {cfg : SimulationConfig}

open Prog Simulation

/-! ## Hosts -/

/-- The host sets up LPs before they are started, sends nothing itself and ends with the run. -/
structure Drives (cfg : SimulationConfig) (hosted : Simulation Q σ → HostOp → Prop) : Prop where
  leaves : Leaves hosted
  sound : ∀ s op, hosted s op → op.SoundReduction cfg
  sets : ∀ s id, hosted s (.addLp id) → s.started = false
  silent : ∀ s ev, ¬ hosted s (.send ev)

/-- The run has ended in `s`, with nothing pending in `t`. -/
structure Closed (model : Model σ) (cfg : SimulationConfig) (t s : Simulation Q σ) : Prop where
  pending : Q.elems t.pending = 0
  going : t.finished = false
  ended : ∃ env, s = (Phase.finalize env).after model cfg t

namespace Closed

variable {s t : Simulation Q σ} (h : Closed model cfg t s)

include h

theorem migrated : Migrated (flushed cfg t) s := by
  obtain ⟨env, rfl⟩ := h.ended
  exact finalizeAtEnd_migrated model cfg env t

theorem lpIds : s.lpIds = t.lpIds := by
  rw [h.migrated.rest]
  rfl

theorem sends : s.hist.sends = t.hist.sends := by
  rw [h.migrated.rest]
  rfl

theorem delivered : s.hist.delivered = t.hist.delivered := by
  rw [h.migrated.rest]
  rfl

theorem kept (i : LPId) : (s.ctx i).kept = (t.ctx i).kept := by
  have hkept : (s.ctx i).kept = ((flushed cfg t).ctx i).kept := by
    rw [h.migrated.ctx]
    rfl
  exact hkept.trans (prune_proj cfg (·.kept) kept_prune maxStamp t i)

theorem nextUid (i : LPId) : (s.ctx i).nextUid = (t.ctx i).nextUid := by
  have huid : (s.ctx i).nextUid = ((flushed cfg t).ctx i).nextUid := by
    rw [h.migrated.ctx]
  exact huid.trans (prune_proj cfg (·.nextUid) (fun _ _ => rfl) maxStamp t i)

/-- The committed records are all but those of the last stamp. -/
theorem fossils (hprogress : Progress cfg t) (i : LPId) :
    (s.ctx i).fossils = (t.ctx i).kept.filter (·.ev.ts ≠ maxStamp) := by
  obtain ⟨env, hs⟩ := h.ended
  have hend : Ended s := hs ▸ hprogress.ended
  rw [← h.kept, LPContext.kept, List.filter_append, List.filter_eq_self.mpr fun rec hrec => ?_,
    List.filter_eq_nil_iff.mpr fun rec hrec => ?_, List.append_nil]
  · simp [hend.processed i rec hrec]
  · simp [hend.fossils i rec hrec]

theorem extends_hist (hbase : BaseInv t.atRest) : t.hist.Extends s.hist := by
  obtain ⟨env, rfl⟩ := h.ended
  exact AllMoves.extends (Phase.after_moves model cfg hbase (show Phase.Ready t (.finalize env) from trivial)).1

theorem agenda_eq : agenda s = agenda t := by rw [agenda, agenda, h.sends, h.delivered]

theorem uncancelled (hbase : BaseInv t.atRest) (hs : Uncancelled s) : Uncancelled t := by
  have hle := h.extends_hist hbase
  refine ⟨hs.disciplined.mono hle, ?_, ?_, ?_, ?_⟩
  · rw [← h.sends]
    exact hs.stamped
  · exact List.prefix_nil.mp (hs.unmoved ▸ hle.migrations)
  · rw [← h.sends]
    exact hs.kept
  · rw [← h.lpIds, ← h.sends]
    intro i hi
    rw [← h.nextUid]
    exact hs.drawn i hi

end Closed

theorem Reachable.closed {hosted : Simulation Q σ → HostOp → Prop} {s : Simulation Q σ}
    (h : Reachable model cfg hosted s) (hdrives : Drives cfg hosted) (hdir : cfg.directoryForEntity = none)
    (hmig : s.hist.migrations = []) (hend : s.finished = true) :
    ∃ s₀ t, Opened model cfg s₀ t ∧ Closed model cfg t s := by
  have hallows : AllowsProper cfg (SetUpFirst (Q := Q) (σ := σ) cfg) := fun p t hproper hadd hsend =>
    ⟨hproper, fun id hid => absurd hid (hadd id), hsend⟩
  obtain ⟨t, hrun, hgoing, rfl | ⟨hstarted, hempty, hended⟩⟩ := h.comesTo hdrives.leaves hdrives.sound hallows
    (fun _ _ hp => hp.1) (fun s id hid => ⟨trivial, fun _ _ => hdrives.sets s id hid, by simp⟩)
    fun s ev hev => absurd hev (hdrives.silent s ev)
  · exact absurd (hgoing.symm.trans hend) (by simp)
  · have hclosed : Closed model cfg t s := ⟨hempty, hgoing, hended⟩
    have hway : UnderWay model cfg (Simulation.create Q model) t := hrun.mono fun _ _ hp => hp.1
    have hmig' : t.hist.migrations = [] :=
      List.prefix_nil.mp (hmig ▸ (hclosed.extends_hist hway.baseInv).migrations)
    rcases hrun.opened hdir hmig' with ⟨hnot, -⟩ | ⟨s₀, hopened⟩
    · exact absurd (hnot.symm.trans hstarted) (by simp)
    · exact ⟨s₀, t, hopened, hclosed⟩

/-! ## The digest of outcomes -/

/-- What is committed of an LP's turns. -/
def committedOutcomes (outcomes : Multiset Outcome) : Multiset Outcome := outcomes.filter (·.event.ts ≠ maxStamp)

/-- The digest of the outcomes of a run. -/
def outcomesDigest (cfg : SimulationConfig) (outcomes : Multiset Outcome) : DeterminismDigest :=
  digestOf ((committedOutcomes outcomes).map fun e => hashCommittedEvent e.event.dst e.event)
    (if cfg.committedSink then (committedOutcomes outcomes).bind fun e =>
      e.outputs.map fun out => hashCommittedOutput e.event.dst out.ts out.payload else 0)

theorem hashCommittedEvent_seen (i : LPId) (ev : Event) : hashCommittedEvent i (ev.seen cfg) = hashCommittedEvent i ev := by
  rw [Event.seen_frame]
  rfl

theorem committedOutcomes_turns (turns : List Turn) :
    committedOutcomes (turns.map (·.outcome cfg) : Multiset Outcome) =
      ((turns.filter (·.record.ev.ts ≠ maxStamp)).map (·.outcome cfg) : Multiset Outcome) := by
  rw [committedOutcomes, Multiset.filter_coe, List.filter_map]
  refine congrArg _ (congrArg _ (List.filter_congr fun turn _ => ?_))
  change decide ((turn.record.ev.seen cfg).ts ≠ maxStamp) = _
  rw [Event.seen_ts]

/-- The record of a turn, as it is committed. -/
def Turn.item (turn : Turn) : CommittedItem := (turn.record.ev.dst, turn.record)

theorem eventHashes_items (turns : List Turn) :
    eventHashes (turns.map Turn.item : Multiset CommittedItem) =
      (turns.map (·.outcome cfg) : Multiset Outcome).map fun e => hashCommittedEvent e.event.dst e.event := by
  rw [eventHashes, Multiset.map_coe, Multiset.map_coe, List.map_map, List.map_map]
  refine congrArg _ (List.map_congr_left fun turn _ => ?_)
  simp only [Function.comp_apply, Turn.item, Turn.outcome, Event.seen_dst, hashCommittedEvent_seen]

theorem outputHashes_items (turns : List Turn) :
    outputHashes (turns.map Turn.item : Multiset CommittedItem) =
      (turns.map (·.outcome cfg) : Multiset Outcome).bind fun e =>
        e.outputs.map fun out => hashCommittedOutput e.event.dst out.ts out.payload := by
  rw [outputHashes, ← Multiset.map_coe, ← Multiset.map_coe, Multiset.bind_map, Multiset.bind_map]
  refine Multiset.bind_congr fun turn _ => ?_
  simp only [Turn.item, Turn.outcome, Event.seen_dst]

/-- The digest of what has been committed of the turns is that of their outcomes. -/
theorem digestOf_turns (turns : List Turn) {items : Multiset CommittedItem}
    (hitems : items = ((turns.filter (·.record.ev.ts ≠ maxStamp)).map Turn.item : Multiset CommittedItem)) :
    digestOf (eventHashes items) (hashedOutputs cfg items) =
      outcomesDigest cfg (turns.map (·.outcome cfg) : Multiset Outcome) := by
  rw [outcomesDigest, committedOutcomes_turns, ← eventHashes_items, ← outputHashes_items, ← hitems]
  rfl

/-- What has been committed of a run is what its turns have been. -/
theorem Closed.items {s t : Simulation Q σ} (h : Closed model cfg t s) (hprogress : Progress cfg t)
    {own : LPId → List Turn} (hown : ∀ i, (own i).map (·.record) = (t.ctx i).kept) :
    committedItems s = ((t.lpIds.flatMap own).filter (·.record.ev.ts ≠ maxStamp)).map Turn.item := by
  rw [committedItems, h.lpIds, List.filter_flatMap, List.map_flatMap]
  refine List.flatMap_congr fun i _ => ?_
  rw [h.fossils hprogress, ← hown, List.filter_map, List.map_map]
  refine List.map_congr_left fun turn hturn => ?_
  have hrec : turn.record ∈ (t.ctx i).kept := by
    rw [← hown]
    exact List.mem_map_of_mem (List.mem_filter.mp hturn).1
  have hdst : turn.record.ev.dst = i :=
    (hprogress.books.ledger i).filed _ ((hprogress.books.ledger i).kept_sub hrec)
  simp only [Function.comp_apply, Turn.item, hdst]

/-! ## The digest of a run -/

/-- What is delivered in a run, and what the LPs send when they are started as in `s₀`. -/
def openingAgenda (model : Model σ) (cfg : SimulationConfig) (s₀ s : Simulation Q σ) : Multiset Event :=
  (s.hist.delivered.map (·.ev.seen cfg) : Multiset Event) +
    ((Phase.start.after model cfg s₀).hist.sends.map (·.ev.seen cfg) : Multiset Event)

theorem Opened.agenda_eq {s₀ t : Simulation Q σ} (h : Opened model cfg s₀ t)
    (hsince : Since (Phase.start.after model cfg s₀) t) :
    ((agenda t).map (·.seen cfg) : Multiset Event) = openingAgenda model cfg s₀ t := by
  obtain ⟨more, hsends, hmore⟩ := hsince.sends
  have hstarts : t.hist.sends.filter (·.cause.isStart) = (Phase.start.after model cfg s₀).hist.sends := by
    rw [hsends, List.filter_append, List.filter_eq_self.mpr h.starts_all,
      List.filter_eq_nil_iff.mpr fun r hr => by simp [hmore r hr], List.append_nil]
  rw [agenda, hstarts, List.map_append, List.map_map, List.map_map, openingAgenda, Multiset.coe_add]
  rfl

/-- The turns of the run make up an execution of the LPs with their numbers, and the digest is theirs. -/
structure CarriesOut (model : Model σ) (cfg : SimulationConfig) (s₀ s : Simulation Q σ) (turns : List Outcome) : Prop where
  complete : ∃ final, (outcomes model cfg).Complete (opening model cfg s₀) (openingAgenda model cfg s₀ s) turns final
  events : ∀ i, (turns.filter ((outcomes model cfg).At i ·)).map (·.event) = (s.ctx i).kept.map (·.ev.seen cfg)
  positive : ∀ i, ∀ rec ∈ (s.ctx i).kept, rec.ev.isAnti = false
  digest : s.determinism = outcomesDigest cfg turns
  settles : ∃ start settled, SettlesAs model s start settled

theorem SettlesAs.untied_iff {s : Simulation Q σ} {start : LPId → σ} {turns : List Turn}
    (h : SettlesAs model s start turns) : (sequential model).Untied turns ↔
      ∀ i, ((s.ctx i).kept.filter (·.ev.isAnti = false)).Pairwise fun a b => a.ev.ts ≠ b.ev.ts := by
  rw [EventSystem.untied_iff]
  refine forall_congr' fun i => ?_
  rw [← h.records i, List.pairwise_map]
  rfl

/-- No LP has to choose between two events, if it has not in the sequential execution. -/
theorem CarriesOut.untied {s₀ s : Simulation Q σ} {turns : List Outcome} (h : CarriesOut model cfg s₀ s turns)
    (huntied : ∀ start settled, SettlesAs model s start settled → (sequential model).Untied settled) :
    (outcomes model cfg).Untied turns := by
  obtain ⟨start, settled, hsettles⟩ := h.settles
  refine EventSystem.untied_iff.mpr fun i => ?_
  have hkept := hsettles.untied_iff.mp (huntied start settled hsettles) i
  rw [List.filter_eq_self.mpr fun rec hrec => decide_eq_true (h.positive i rec hrec)] at hkept
  have hseen : ((s.ctx i).kept.map (·.ev.seen cfg)).Pairwise fun a b => a.ts ≠ b.ts := by
    refine List.pairwise_map.mpr (hkept.imp fun hne => ?_)
    rwa [Event.seen_ts, Event.seen_ts]
  rw [← h.events i, List.pairwise_map] at hseen
  exact hseen

theorem Alike.opening_eq {s t : Simulation Q σ}
    (h : Alike (Phase.start.after model cfg s) (Phase.start.after model cfg t)) :
    opening model cfg s = opening model cfg t := by
  have hlen : ∀ (u : Simulation Q σ) i, (u.hist.sends.filter (·.Mine i)).length =
      (u.hist.sends.map (·.ev)).countP fun ev => ev.src = i ∧ ev.isAnti = false := by
    intro u i
    rw [← List.countP_eq_length_filter, List.countP_map]
    rfl
  funext i
  rw [opening, opening, hlen, hlen, h.sends, h.ctx]

section

variable {hosted : Simulation Q σ → HostOp → Prop} {Admits : LPId → Event → Prop}
  (hdrives : Drives cfg hosted) (hlets : ∀ i state ev, ((model i).onEvent state ev).LetsThrough)
  (hcolor : ∀ i state ev, (model i).onEvent state (ev.seen cfg) = (model i).onEvent state ev)
  (hdir : cfg.directoryForEntity = none) (hoff : cfg.enableInstallBeforeUseBuffering = false)
  (horacle : cfg.enableDeterminismOracle = true) (hcontract : ∀ i, SnapshotContract (model i) (Admits i))
  (halone : ∀ i, cfg.rankOf i = cfg.rank)

include hdrives hlets hcolor hdir hoff horacle hcontract halone

theorem Reachable.carriesOut {s : Simulation Q σ} (h : Reachable model cfg hosted s) (ht : Timely s.hist)
    (hu : Uncancelled s) (hadmits : ∀ ev ∈ s.entered cfg, Admits ev.dst ev) (hend : s.finished = true) :
    ∃ s₀ t turns, Opened model cfg s₀ t ∧ s₀.lpIds = s.lpIds ∧ CarriesOut model cfg s₀ s turns := by
  obtain ⟨s₀, t, hopened, hclosed⟩ := h.closed hdrives hdir hu.unmoved hend
  have hbase := hopened.underWay.baseInv
  have hle := hclosed.extends_hist hbase
  have hcovered : Covered t.hist := ((h.noDeferral hoff).covered ht).mono hle
  have hut := hclosed.uncancelled hbase hu
  have hadmits' : ∀ ev ∈ t.entered cfg, Admits ev.dst ev := fun ev hev => hadmits ev ((entered_sublist hle).subset hev)
  have hprogress := hopened.underWay.progress hcovered hut.disciplined
  have hids : t.lpIds.Nodup := hopened.underWay.lpIds_nodup
  obtain ⟨hsince, -⟩ := hopened.accounted (hcontract 0) (fun ev hev hdst => hdst ▸ hadmits' ev hev) hoff hcovered
    hut.disciplined
  obtain ⟨own, turns, hown, hat, hperm, final, hcomplete⟩ := hopened.complete hlets hcolor hdir hoff hcovered hut hcontract hadmits'
    ⟨halone, hclosed.pending⟩
  rw [hopened.agenda_eq hsince] at hcomplete
  have hpositive := hut.kept_positive hprogress
  obtain ⟨start, settled, hsettles⟩ := hopened.underWay.settles hoff hcovered hut.disciplined hcontract hadmits'
    ⟨halone, hclosed.pending⟩
  refine ⟨s₀, t, turns, hopened, ?_, ⟨final, ?_⟩, fun i => ?_, fun i => ?_, ?_, start, settled, ?_⟩
  · rw [hclosed.lpIds, hsince.lpIds, hopened.lpIds_start]
  · unfold openingAgenda at hcomplete ⊢
    rwa [hclosed.delivered]
  · rw [hat, hclosed.kept, ← hown, List.map_map, List.map_map]
    rfl
  · rw [hclosed.kept]
    exact hpositive i
  · rw [(h.accumulated horacle).eq, digestOf_turns (t.lpIds.flatMap own) (congrArg _ (hclosed.items hprogress hown)),
      Multiset.coe_eq_coe.mpr hperm]
  · obtain ⟨env, rfl⟩ := hclosed.ended
    exact hsettles.finalized hu.disciplined

/-- While no rollback cancels a send, the digest depends on nothing but what has been delivered: in whatever order
it has come and whatever has been executed too early and undone, the digest is the same. -/
theorem digest_of_inputs {s t : Simulation Q σ} (hs : Reachable model cfg hosted s) (ht : Reachable model cfg hosted t)
    (htimely : Timely s.hist) (htimely' : Timely t.hist) (hu : Uncancelled s) (hu' : Uncancelled t)
    (hadmits : ∀ ev ∈ s.entered cfg, Admits ev.dst ev) (hadmits' : ∀ ev ∈ t.entered cfg, Admits ev.dst ev)
    (hend : s.finished = true) (hend' : t.finished = true) (hids : s.lpIds = t.lpIds)
    (hinputs : (s.hist.delivered.map (·.ev)).Perm (t.hist.delivered.map (·.ev)))
    (huntied : ∀ start turns, SettlesAs model s start turns → (sequential model).Untied turns) :
    s.determinism = t.determinism := by
  obtain ⟨s₀, _, turns, hopened, hids₀, hexec⟩ :=
    hs.carriesOut hdrives hlets hcolor hdir hoff horacle hcontract halone htimely hu hadmits hend
  obtain ⟨t₀, _, turns', hopened', hids₀', hexec'⟩ :=
    ht.carriesOut hdrives hlets hcolor hdir hoff horacle hcontract halone htimely' hu' hadmits' hend'
  have halike := hopened.alike hopened' (hids₀.trans (hids.trans hids₀'.symm))
  have hagenda : openingAgenda model cfg s₀ s = openingAgenda model cfg t₀ t := by
    have hdelivered := hinputs.map (Event.seen cfg)
    have hsends := congrArg (List.map (Event.seen cfg)) halike.sends
    rw [List.map_map, List.map_map] at hdelivered hsends
    exact congrArg₂ (· + ·) (Multiset.coe_eq_coe.mpr hdelivered) (congrArg _ hsends)
  obtain ⟨final, hcomplete⟩ := hexec.complete
  obtain ⟨final', hcomplete'⟩ := hexec'.complete
  rw [halike.opening_eq, hagenda] at hcomplete
  have hperm := hcomplete.perm (outcomes_deterministic hlets) hcomplete' (hexec.untied huntied)
  rw [hexec.digest, hexec'.digest, Multiset.coe_eq_coe.mpr hperm]

end

/-- The stamps of the events in place at an LP. -/
def handledStamps (s : Simulation Q σ) (i : LPId) : List TimeStamp :=
  ((s.ctx i).kept.filter (·.ev.isAnti = false)).map (·.ev.ts)

/-- What a run has kept at its LPs tells whether one of them has had to choose. -/
theorem Reachable.untied {hosted : Simulation Q σ → HostOp → Prop} {s : Simulation Q σ}
    (h : Reachable model cfg hosted s) (hstamps : ∀ stamps ∈ s.lpIds.map (handledStamps s), stamps.Nodup)
    (start : LPId → σ) (turns : List Turn) (hsettles : SettlesAs model s start turns) :
    (sequential model).Untied turns := by
  refine hsettles.untied_iff.mpr fun i => ?_
  by_cases hi : i ∈ s.lpIds
  · exact List.pairwise_map.mp (hstamps _ (List.mem_map_of_mem hi))
  · have hfresh : (s.ctx i).kept = [] := h.booksInv.kept_of_fresh hi
    simp [hfresh]

/-- The host sets up LPs, schedules events and lets the kernel run until it has ended. -/
def drives (s : Simulation Q σ) (op : HostOp) : Prop :=
  s.finished = false ∧ match op with
    | .addLp _ => s.started = false
    | .send _ => False
    | _ => True

instance (s : Simulation Q σ) (op : HostOp) : Decidable (drives s op) := by
  unfold drives
  cases op <;> infer_instance

theorem drives_drives (hmin : cfg.gvtReduceMin = false) (hany : cfg.anyRankHasWork = false) :
    Drives cfg (drives (Q := Q) (σ := σ)) where
  leaves _ _ h := h.1
  sound _ op _ := HostOp.soundReduction_of_alone hmin hany op
  sets _ _ h := h.2
  silent _ _ h := h.2

/-- The LPs count the events they handle, and the LP 1 passes each on to the LP 2. -/
def courier (id : LPId) : LogicalProcess UInt8 where
  init := 0
  onEvent st ev :=
    .requestWrite st 0 <|
      if id = 1 then .send { ts := ⟨ev.ts.time + 5, 1⟩, src := 1, dst := 2 } fun
        | none => .done (st + 1)
        | some what => .throw st what
      else .done (st + 1)
  saveState st := [st]
  loadState _ bytes := bytes.headD 0

theorem courier_contract (id : LPId) : SnapshotContract (courier id) fun _ => True := by
  refine .whole (fun _ => True) rfl (fun _ _ => trivial) (fun _ _ _ _ => rfl)
    fun st ev _ _ => ⟨trivial, fun _ _ => rfl, ?_⟩
  split
  · rintro (_ | what)
    · exact ⟨trivial, fun i hi => absurd (List.mem_singleton.mpr rfl) hi⟩
    · exact fun _ _ => rfl
  · exact ⟨trivial, fun i hi => absurd (List.mem_singleton.mpr rfl) hi⟩

theorem courier_letsThrough (id : LPId) (st : UInt8) (ev : Event) : ((courier id).onEvent st ev).LetsThrough := by
  unfold courier
  dsimp only [Handler.LetsThrough]
  split
  · exact ⟨fun what => ⟨st, what, rfl⟩, trivial⟩
  · trivial

def courierConfig : SimulationConfig := { enableDeterminismOracle := true }

theorem courier_seen (id : LPId) (st : UInt8) (ev : Event) :
    (courier id).onEvent st (ev.seen courierConfig) = (courier id).onEvent st ev := by
  simp only [courier, Event.seen_ts]

/-- The second input comes when the first one and what it sends have been executed, or at once. -/
def courierOps (late : Bool) (first second : Event) : List HostOp :=
  [.addLp 1, .addLp 2, .addLp 3, .schedule first] ++ List.replicate (if late then 2 else 0) (.runOne {} false) ++
    [.schedule second] ++ List.replicate 8 (.runOne {} false) ++ [.runIteration {} 0]

def courierRun (late : Bool) (first second : Event) : Simulation sortedEventQueue UInt8 :=
  hostRun courier courierConfig (courierOps late first second) (Simulation.create _ courier)

def courierInput (time : UInt64) (dst : LPId) (uid : UInt64) : Event := { ts := ⟨time, 1⟩, src := 9, dst := dst, uid := uid }

/-- Inputs for the LP 1 at 10 and at 20, in this order. -/
def inOrder : Simulation sortedEventQueue UInt8 := courierRun false (courierInput 10 1 1) (courierInput 20 1 2)

/-- The same inputs in the other order. -/
def crossed : Simulation sortedEventQueue UInt8 := courierRun true (courierInput 20 1 2) (courierInput 10 1 1)

/-- Inputs for the LP 1 at 10, which has it send an event for 15 to the LP 2, and for the LP 2 at 12. -/
def prompt : Simulation sortedEventQueue UInt8 := courierRun false (courierInput 10 1 1) (courierInput 12 2 2)

/-- The same inputs, the second of them after the event at 15. -/
def straggling : Simulation sortedEventQueue UInt8 := courierRun true (courierInput 10 1 1) (courierInput 12 2 2)

def courierRuns : List (Simulation sortedEventQueue UInt8) := [inOrder, crossed, prompt, straggling]

theorem disciplined_courierRuns : ∀ run ∈ courierRuns, Disciplined run.hist := by
  have hmigrations : ∀ run ∈ courierRuns, run.hist.migrations = [] := by decide +kernel
  have huids : ∀ run ∈ courierRuns, ∀ r ∈ run.hist.sends, r.Positive → r.asked.uid = 0 := by decide +kernel
  have hsends : ∀ run ∈ courierRuns, (∀ r ∈ run.hist.sends, r.Disciplined) ∧ run.hist.wrapped = false ∧
      run.hist.lost = [] := by decide +kernel
  have hinputs : ∀ run ∈ courierRuns, (∀ d ∈ run.hist.delivered, d.ev.isAnti = false ∧ ⟨0, 0⟩ < d.ev.ts) ∧
      ∀ d ∈ run.hist.delivered, ∀ key ∈ run.hist.sends.map (·.ev.uidKey), d.ev.uidKey ≠ key := by decide +kernel
  intro run hrun
  obtain ⟨hsent, hwrapped, hlost⟩ := hsends run hrun
  obtain ⟨hpositive, hapart⟩ := hinputs run hrun
  exact ⟨hsent, huids run hrun, hwrapped, hpositive, fun d hd r hr => hapart d hd _ (List.mem_map_of_mem hr), hlost,
    by simp [hmigrations run hrun]⟩

/-- The runs are as the theorem demands, but for what their rollbacks cancel. -/
theorem conducted_courierRuns : ∀ run ∈ courierRuns, Reachable courier courierConfig drives run ∧ Timely run.hist ∧
    Disciplined run.hist ∧ (∀ r ∈ run.hist.sends, r.cause.isStart = false → r.asked.ts.sequence ≠ 0) ∧
    run.finished = true ∧ ∀ start turns, SettlesAs courier run start turns → (sequential courier).Untied turns := by
  have hreach : ∀ run ∈ courierRuns, Reachable courier courierConfig drives run := by
    refine List.forall_mem_cons.mpr ⟨?_, List.forall_mem_cons.mpr ⟨?_, List.forall_mem_cons.mpr ⟨?_,
      List.forall_mem_singleton.mpr ?_⟩⟩⟩ <;> exact Reachable.hostRun .create (by decide +kernel)
  have htimely : ∀ run ∈ courierRuns, (∀ d ∈ run.hist.delivered, d.gvt ≤ d.ev.ts) ∧ ∀ r ∈ run.hist.sends, r.InTime := by
    decide +kernel
  have hstamped : ∀ run ∈ courierRuns, ∀ r ∈ run.hist.sends, r.cause.isStart = false → r.asked.ts.sequence ≠ 0 := by
    decide +kernel
  have hfinished : ∀ run ∈ courierRuns, run.finished = true := by decide +kernel
  have hstamps : ∀ run ∈ courierRuns, ∀ stamps ∈ run.lpIds.map (handledStamps run), stamps.Nodup := by decide +kernel
  intro run hrun
  exact ⟨hreach run hrun, ⟨(htimely run hrun).1, (htimely run hrun).2⟩, disciplined_courierRuns run hrun,
    hstamped run hrun, hfinished run hrun, (hreach run hrun).untied (hstamps run hrun)⟩

/-- What the LP 1 has sent for the input at 20 is cancelled and sent again, under another uid, and the
anti-message is committed as well: the digests of the two runs differ. -/
theorem digest_of_crossed_inputs :
    (∀ i, SnapshotContract (courier i) fun _ => True) ∧
    (∀ run ∈ [inOrder, crossed], Reachable courier courierConfig drives run ∧ Timely run.hist ∧ Disciplined run.hist ∧
      (∀ r ∈ run.hist.sends, r.cause.isStart = false → r.asked.ts.sequence ≠ 0) ∧ run.finished = true ∧
      ∀ start turns, SettlesAs courier run start turns → (sequential courier).Untied turns) ∧
    inOrder.lpIds = crossed.lpIds ∧ (inOrder.hist.delivered.map (·.ev)).Perm (crossed.hist.delivered.map (·.ev)) ∧
    inOrder.determinism ≠ crossed.determinism := by
  have hdelivered : inOrder.hist.delivered.map (·.ev) = [courierInput 10 1 1, courierInput 20 1 2] := by decide +kernel
  have hcrossed : crossed.hist.delivered.map (·.ev) = [courierInput 20 1 2, courierInput 10 1 1] := by decide +kernel
  refine ⟨courier_contract, fun run hrun => conducted_courierRuns run ?_, by decide +kernel, ?_, by decide +kernel⟩
  · exact List.mem_append_left [prompt, straggling] hrun
  · rw [hdelivered, hcrossed]
    exact .swap ..

/-- The LP 2 has undone its event, but it has sent nothing that would be cancelled. -/
theorem digest_of_inputs_straggling :
    (straggling.ctx 2).undone.length = 1 ∧ prompt.determinism = straggling.determinism := by
  refine ⟨by decide +kernel, ?_⟩
  have huncancelled : ∀ run ∈ [prompt, straggling], Uncancelled run := by
    have hmigrations : ∀ run ∈ [prompt, straggling], run.hist.migrations = [] := by decide +kernel
    have hcauses : ∀ run ∈ [prompt, straggling], run.hist.sends.map (·.cause) = [.handler 1 ⟨10, 1⟩] := by
      decide +kernel
    have hdrawn : ∀ run ∈ [prompt, straggling], run.lpIds.map (fun i => (run.ctx i).nextUid.toNat) =
        run.lpIds.map fun i => (run.hist.sends.filter (·.Mine i)).length + 1 := by decide +kernel
    intro run hrun
    obtain ⟨-, -, hdisciplined, hstamped, -⟩ := conducted_courierRuns run (List.mem_append_right [inOrder, crossed] hrun)
    refine ⟨hdisciplined, hstamped, hmigrations run hrun, fun r hr i hcause => ?_, List.map_inj_left.mp (hdrawn run hrun)⟩
    have hmem : r.cause ∈ run.hist.sends.map (·.cause) := List.mem_map_of_mem hr
    rw [hcauses run hrun, hcause] at hmem
    simp at hmem
  have hruns : ∀ run ∈ [prompt, straggling], run ∈ courierRuns := fun run hrun =>
    List.mem_append_right [inOrder, crossed] hrun
  obtain ⟨hreach, htimely, -, -, hend, huntied⟩ := conducted_courierRuns prompt (hruns _ (by simp))
  obtain ⟨hreach', htimely', -, -, hend', -⟩ := conducted_courierRuns straggling (hruns _ (by simp))
  exact digest_of_inputs (drives_drives rfl rfl) courier_letsThrough courier_seen rfl rfl rfl courier_contract (fun _ => rfl)
    hreach hreach' htimely htimely' (huncancelled _ (by simp)) (huncancelled _ (by simp)) (fun _ _ => trivial)
    (fun _ _ => trivial) hend hend' (by decide +kernel) (by decide +kernel) huntied

end WarpSim

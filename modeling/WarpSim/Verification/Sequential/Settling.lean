import WarpSim.Verification.Sequential.Balance

/-! # Runs settle as sequential executions

When nothing waits any more, the LPs are in the states, and have kept the records, of an execution that never
rolls back: one that always handles the earliest event that waits. -/

namespace WarpSim

variable {Q : EventQueue} {σ : Type} {sound : Prop} {model : Model σ} {cfg : SimulationConfig}

open Prog Simulation

/-! ## The sequential system -/

/-- The handler has been run for the event, and what it has sent is what it sends in the turn. -/
inductive Turn.Handles (model : Model σ) (turn : Turn) (y z : σ) : Prop where
  | run (c : LPContext σ) (calls) : turn.record.ev.isAnti = false →
      Handler.Run (model turn.record.ev.dst) ((model turn.record.ev.dst).onEvent y turn.record.ev)
        (newRecord turn.record.ev c) calls z turn.record →
      accepted calls = turn.sends.map (fun r => (r.asked, r.ev)) → Handles model turn y z

/-- The LPs without the kernel: a turn handles an event at its destination. -/
def sequential (model : Model σ) : EventSystem Turn LPId Event TimeStamp σ where
  event turn := turn.record.ev
  sends turn := turn.sends.map (·.ev)
  place ev := ev.dst
  time ev := ev.ts
  acts turn := turn.Handles model

/-- The event as sent is the one that was asked for, up to its numbers, its color and the destination that
routing gives it. -/
structure SendRecord.Faithful (r : SendRecord) : Prop where
  frame : r.ev = { r.asked with ts := r.ev.ts, dst := r.ev.dst, uid := r.ev.uid, gvtColor := r.ev.gvtColor }
  time : r.ev.ts.time = r.asked.ts.time
  given : r.asked.ts.sequence ≠ 0 → r.ev.ts = r.asked.ts
  untargeted : r.asked.target = 0 → r.ev.dst = r.asked.dst

theorem faithful_of_stamped {s : Simulation Q σ} {r : SendRecord} {ev : Event} {u n k : UInt64} {w : Bool}
    (h : Stamped cfg s r.asked ev u n k w) (hev : r.ev = stampColor cfg s ev) : r.Faithful := by
  have hcolor : stampColor cfg s ev = { ev with gvtColor := (stampColor cfg s ev).gvtColor } := stampColor_eq s ev
  refine ⟨?_, ?_, fun hseq => ?_, fun htarget => ?_⟩
  · rw [hev, hcolor]
    generalize (stampColor cfg s ev).gvtColor = color
    conv_lhs => rw [h.frame]
  · rw [hev, hcolor]
    exact h.time
  · rw [hev, hcolor]
    exact (h.sequence_given hseq).1
  · rw [hev, hcolor]
    exact h.untargeted htarget

theorem AllMoves.faithful {y : Situation Q σ}
    (h : AllMoves sound False model cfg (Simulation.create Q model).atRest y) :
    ∀ r ∈ y.state.hist.sends, r.Faithful := by
  induction h with
  | refl => simp [Simulation.create, Simulation.atRest]
  | @tail x y _ hm ih =>
      rcases hm with hm | hm
      · cases hm.counterStep 0 with
        | same hsends => rwa [hsends]
        | registered hsends => rwa [hsends]
        | rewound _ hsends => rwa [hsends]
        | refused _ _ _ _ _ hsends => rwa [hsends]
        | sent r ev u n k w hst hev _ hsends =>
            rw [hsends]
            intro q hq
            rcases List.mem_append.mp hq with hq | hq
            · exact ih q hq
            · rw [List.mem_singleton.mp hq]
              exact faithful_of_stamped hst hev
      · rw [hm.logStep.2.2.1]
        exact ih

/-! ## The order of the records -/

/-- The records in place at an LP are in the order of time. -/
theorem AllMoves.kept_sorted {y : Situation Q σ}
    (h : AllMoves True False model cfg (Simulation.create Q model).atRest y) (ht : Covered y.state.hist) (i : LPId) :
    (y.state.ctx i).kept.Pairwise fun a b => a.ev.ts ≤ b.ev.ts := by
  induction h with
  | refl => simp [Simulation.create, Simulation.atRest, LPContext.kept]
  | @tail x y hxs hm ih =>
      have hys := Relation.ReflTransGen.tail hxs hm
      have hbooks : BooksInv y := AllMoves.booksInv hys booksInv_create
      have hbound := AllMoves.boundInv hys booksInv_create boundInv_create ht
      have hgoing : y.state.finished = false := AllMoves.finished_eq hys
      rcases hm with hm | hm
      · have hfossils : (y.state.ctx i).fossils.Pairwise fun a b => a.ev.ts ≤ b.ev.ts := by
          by_cases hi : i ∈ x.state.lpIds
          · rw [hm.fossils_eq hi]
            exact (List.pairwise_append.mp (ih (ht.mono hm.extends))).1
          · rcases hm.lpIds_eq with hids | ⟨j, -, hids, hnone⟩
            · have hfresh : (y.state.ctx i).kept = [] := hbooks.kept_of_fresh (hids ▸ hi)
              simp [(List.append_eq_nil_iff.mp hfresh).1]
            · by_cases hj : i = j
              · simp [hj, hnone]
              · have hfresh : (y.state.ctx i).kept = [] := hbooks.kept_of_fresh (by simp [hids, hi, hj])
                simp [(List.append_eq_nil_iff.mp hfresh).1]
        refine List.pairwise_append.mpr ⟨hfossils, (hbooks.context i).sorted, fun a ha b hb => ?_⟩
        exact ((hbound.committed hgoing i a ha).trans_le (hbound.held _ (.processed hb rfl))).le
      · have hx := ih (ht.mono hm.extends)
        rcases hm.ctx_cases i with hctx | ⟨gvt, hctx⟩
        · rwa [hctx]
        · rwa [hctx, kept_prune]

/-! ## What is known of each LP -/

/-- The turns that have led an LP to its state, and those of them that are not of anti-messages. -/
structure Accounted (model : Model σ) (s : Simulation Q σ) (i : LPId) (start : σ) (turns : List Turn) : Prop where
  begins : (model i).Begins start
  trail : Trail (fun turn y z => turn.Made (model i) i y z) start turns (s.ctx i).lp
  records : turns.map (·.record) = (s.ctx i).kept
  sends : outstanding i s.hist.sends = starts i s.hist.sends ++ turns.flatMap (·.sends)

/-- The turns that handle positive events. -/
def handledTurns (turns : List Turn) : List Turn := turns.filter (·.record.ev.isAnti = false)

theorem UnderWay.accounted {s : Simulation Q σ} (h : UnderWay model cfg (Simulation.create Q model) s)
    (hoff : cfg.enableInstallBeforeUseBuffering = false) (ht : Covered s.hist) (hd : Disciplined s.hist)
    (i : LPId) {Admits : Event → Prop} (hcontract : SnapshotContract (model i) Admits)
    (hadmits : ∀ ev ∈ s.entered cfg, ev.dst = i → Admits ev) : ∃ start turns, Accounted model s i start turns := by
  obtain ⟨ι, β, _, mode, hkeeps⟩ := hcontract.mode
  have hinv : AccountInv mode s := h.accountInv hkeeps hadmits hoff ht hd
  obtain ⟨start, turns, hbegins, hledger⟩ := hinv.ledger
  exact ⟨start, turns, hbegins, hledger.trail.mono fun _ _ _ hmade => hmade.1, hledger.records, hledger.sends⟩

namespace Accounted

variable {s : Simulation Q σ} {i : LPId} {start : σ} {turns : List Turn} (h : Accounted model s i start turns)

include h

theorem record_mem {turn : Turn} (hturn : turn ∈ turns) : turn.record ∈ (s.ctx i).kept :=
  h.records ▸ List.mem_map_of_mem hturn

theorem sends_mem {turn : Turn} (hturn : turn ∈ turns) {r : SendRecord} (hr : r ∈ turn.sends) :
    r ∈ outstanding i s.hist.sends := by
  rw [h.sends]
  exact List.mem_append_right _ (List.mem_flatMap.mpr ⟨turn, hturn, hr⟩)

theorem handled_records : (handledTurns turns).map (·.record) = (s.ctx i).kept.filter (·.ev.isAnti = false) := by
  rw [handledTurns, ← h.records, List.filter_map]
  rfl

theorem handled_events : (handledTurns turns).map (·.record.ev) = handledAt s i := by
  rw [handledAt, List.filter_map]
  have hrecords := congrArg (List.map (·.ev)) h.handled_records
  rw [List.map_map] at hrecords
  exact hrecords

/-- Turns of anti-messages have no sends. -/
theorem handled_sends : (handledTurns turns).flatMap (·.sends) = turns.flatMap (·.sends) := by
  refine List.flatMap_filter_of_nil fun turn hturn hneg => ?_
  obtain ⟨y, z, hmade⟩ := h.trail.exists_of_mem hturn
  cases hmade with
  | anti _ hnone _ => exact hnone
  | handled _ _ hpos => exact absurd hpos hneg

/-- Without the turns of anti-messages, which leave the LP alone, the turns are those of its handler. -/
theorem handles (hfiled : ∀ rec ∈ (s.ctx i).kept, rec.ev.dst = i) :
    Trail (fun turn => turn.Handles model) start (handledTurns turns) (s.ctx i).lp := by
  refine h.trail.filter (fun turn hturn y z hpos hmade => ?_) fun turn y z hneg hmade => ?_
  · have hdst := hfiled _ (h.record_mem hturn)
    cases hmade with
    | anti hanti => exact absurd (hanti.symm.trans hpos) (by simp)
    | handled c calls _ hrun haccepted _ => exact .run c calls hpos (hdst.symm ▸ hrun) haccepted
  · cases hmade with
    | anti _ _ hsame => exact hsame
    | handled _ _ hpos => exact absurd hpos hneg

/-- The sends of a turn are to a later time. -/
theorem later (hs : Progress cfg s) (hd : Disciplined s.hist) {turn : Turn} (hturn : turn ∈ turns) {r : SendRecord}
    (hr : r ∈ turn.sends) : turn.record.ev.ts < r.ev.ts := by
  obtain ⟨y, z, hmade⟩ := h.trail.exists_of_mem hturn
  have hmem := (hs.pairing.paired.outstanding_mine (h.sends_mem hturn hr)).1
  have hdisc := hd.sends r hmem
  unfold SendRecord.Disciplined at hdisc
  rw [hmade.cause r hr] at hdisc
  exact hdisc.2.2

end Accounted

/-! ## Settling -/

/-- What comes from outside, and what the LPs send as they are started. -/
def agenda (s : Simulation Q σ) : List Event :=
  s.hist.delivered.map (·.ev) ++ (s.hist.sends.filter (·.cause.isStart)).map (·.ev)

/-- The LPs have come to what a sequential execution comes to that starts from the states and handles the
agenda and everything that is sent meanwhile. -/
structure SettlesAs (model : Model σ) (s : Simulation Q σ) (start : LPId → σ) (turns : List Turn) : Prop where
  begins : ∀ i, (model i).Begins (start i)
  runs : (sequential model).Runs start (agenda s) turns (fun i => (s.ctx i).lp) 0
  records : ∀ i, (turns.filter ((sequential model).At i ·)).map (·.record) =
    (s.ctx i).kept.filter (·.ev.isAnti = false)
  sends : ∀ turn ∈ turns, ∀ r ∈ turn.sends, r ∈ s.hist.sends ∧ r.Faithful

theorem starts_perm {s : Simulation Q σ} (hs : Progress cfg s) (hd : Disciplined s.hist) (hids : s.lpIds.Nodup) :
    (s.lpIds.flatMap fun i => starts i s.hist.sends).Perm (s.hist.sends.filter (·.cause.isStart)) := by
  have hpos : ∀ r ∈ s.hist.sends, r.cause.isStart = true → r.Positive := by
    intro r hr hstart
    have hdisc := hd.sends r hr
    unfold SendRecord.Disciplined at hdisc
    split at hdisc
    · exact hdisc
    · next hcause => simp [hcause, SendCause.isStart] at hstart
    · next hcause => simp [hcause, SendCause.isStart] at hstart
    · exact hdisc.elim
  have hsplit : ∀ i, starts i s.hist.sends = (s.hist.sends.filter (·.cause.isStart)).filter (·.ev.src = i) := by
    intro i
    rw [starts, List.filter_filter]
    refine List.filter_congr fun r hr => ?_
    cases hstart : r.cause.isStart with
    | true =>
        have hanti : r.ev.isAnti = false := hpos r hr hstart
        simp [SendRecord.Mine, hanti]
    | false => simp
  simp only [hsplit]
  refine List.flatMap_filter_perm hids fun r hr => ?_
  obtain ⟨hr, hstart⟩ := List.mem_filter.mp hr
  exact (hs.pairing.numbered.below r hr (hpos r hr hstart)).1

section

variable {s : Simulation Q σ} {start : LPId → σ} {turns : LPId → List Turn}

/-- The turns at an LP. -/
theorem Accounted.placed (hs : Progress cfg s) {i : LPId} {first : σ} {own : List Turn}
    (h : Accounted model s i first own) : ∀ turn ∈ handledTurns own, (sequential model).At i turn := by
  intro turn hturn
  have hkept := h.record_mem (List.mem_filter.mp hturn).1
  exact (hs.books.ledger i).filed _ ((hs.books.ledger i).kept_sub hkept)

/-- What is outstanding has been sent at the start or in a turn. -/
theorem outstanding_perm (hs : Progress cfg s) (hd : Disciplined s.hist) (hids : s.lpIds.Nodup)
    (haccounts : ∀ i, Accounted model s i (start i) (turns i)) :
    (s.lpIds.flatMap fun i => (outstanding i s.hist.sends).map (·.ev)).Perm
      ((s.hist.sends.filter (·.cause.isStart)).map (·.ev) ++
        (s.lpIds.flatMap fun i => handledTurns (turns i)).flatMap (sequential model).sends) := by
  have hsplit : ∀ i, (outstanding i s.hist.sends).map (·.ev) =
      (starts i s.hist.sends).map (·.ev) ++ (handledTurns (turns i)).flatMap (sequential model).sends := by
    intro i
    rw [(haccounts i).sends, ← (haccounts i).handled_sends, List.map_append, List.map_flatMap]
    rfl
  simp only [hsplit, List.flatMap_assoc]
  refine (List.flatMap_append_perm s.lpIds _ _).symm.trans (List.Perm.append_right _ ?_)
  rw [← List.map_flatMap]
  exact (starts_perm hs hd hids).map _

/-- The turns of all LPs handle the agenda and what they send. -/
theorem UnderWay.balanced (h : UnderWay model cfg (Simulation.create Q model) s)
    (hoff : cfg.enableInstallBeforeUseBuffering = false) (ht : Covered s.hist) (hd : Disciplined s.hist)
    (hq : Quiescent cfg s) (haccounts : ∀ i, Accounted model s i (start i) (turns i)) :
    ((s.lpIds.flatMap fun i => handledTurns (turns i)).map (sequential model).event : Multiset Event) =
      (agenda s : Multiset Event) +
        ((s.lpIds.flatMap fun i => handledTurns (turns i)).flatMap (sequential model).sends : Multiset Event) := by
  have hevents : (s.lpIds.flatMap fun i => handledTurns (turns i)).map (sequential model).event =
      s.lpIds.flatMap (handledAt s) := by
    rw [List.map_flatMap]
    exact List.flatMap_congr fun i _ => (haccounts i).handled_events
  have hhandled := h.handled_eq hoff ht hd hq
  rw [Multiset.coe_eq_coe.mpr (outstanding_perm (h.progress ht hd) hd h.lpIds_nodup haccounts), ← hevents] at hhandled
  rw [Multiset.coe_add, Multiset.coe_eq_coe] at hhandled ⊢
  rw [agenda, List.append_assoc]
  exact hhandled

theorem UnderWay.settles (h : UnderWay model cfg (Simulation.create Q model) s)
    (hoff : cfg.enableInstallBeforeUseBuffering = false) (ht : Covered s.hist) (hd : Disciplined s.hist)
    {Admits : LPId → Event → Prop} (hcontract : ∀ i, SnapshotContract (model i) (Admits i))
    (hadmits : ∀ ev ∈ s.entered cfg, Admits ev.dst ev) (hq : Quiescent cfg s) : ∃ start turns, SettlesAs model s start turns := by
  have hs := h.progress ht hd
  have hmoves := h.moves baseInv_create
  have hids : s.lpIds.Nodup := h.lpIds_nodup
  choose start turns haccounts using fun i =>
    h.accounted hoff ht hd i (hcontract i) fun ev hev hdst => hdst ▸ hadmits ev hev
  let own : LPId → List Turn := fun i => handledTurns (turns i)
  have hmem : ∀ i, ∀ turn ∈ own i, turn ∈ turns i := fun i turn hturn => (List.mem_filter.mp hturn).1
  have hplace : ∀ i, ∀ turn ∈ own i, (sequential model).At i turn := fun i => (haccounts i).placed hs
  have hown : ∀ i, i ∉ s.lpIds → own i = [] := by
    intro i hi
    have hfresh : (s.ctx i).kept = [] := hs.books.kept_of_fresh hi
    have hnone : turns i = [] := List.map_eq_nil_iff.mp ((haccounts i).records.trans hfresh)
    simp [own, handledTurns, hnone]
  have hsorted : ∀ i, (own i).Pairwise (sequential model).NotAfter := by
    intro i
    have hkept : ((turns i).map (·.record)).Pairwise fun a b => a.ev.ts ≤ b.ev.ts := by
      rw [(haccounts i).records]
      exact AllMoves.kept_sorted hmoves ht i
    exact (List.pairwise_map.mp hkept).filter _
  have htrail : ∀ i, Trail (sequential model).acts (start i) (own i) (s.ctx i).lp := fun i =>
    (haccounts i).handles fun rec hrec => (hs.books.ledger i).filed rec ((hs.books.ledger i).kept_sub hrec)
  refine ⟨start, (sequential model).merged s.lpIds own, fun i => (haccounts i).begins, ?_, fun i => ?_, ?_⟩
  · refine (EventSystem.complete_merged hids hplace hown hsorted htrail ?_ (h.balanced hoff ht hd hq haccounts)).runs
    intro i turn hturn e he
    obtain ⟨r, hr, rfl⟩ := List.mem_map.mp he
    exact (haccounts i).later hs hd (hmem i turn hturn) hr
  · rw [EventSystem.filter_merged hids hplace hown hsorted]
    exact (haccounts i).handled_records
  · intro turn hturn r hr
    obtain ⟨i, -, hturn⟩ := List.mem_flatMap.mp (EventSystem.merged_perm.subset hturn)
    have hsent := (haccounts i).sends_mem (hmem i turn hturn) hr
    have hr' := (hs.pairing.paired.outstanding_mine hsent).1
    exact ⟨hr', AllMoves.faithful hmoves r hr'⟩

end

theorem SettlesAs.congr {s t : Simulation Q σ} {start : LPId → σ} {turns : List Turn} (h : SettlesAs model s start turns)
    (hlp : ∀ i, (t.ctx i).lp = (s.ctx i).lp) (hkept : ∀ i, (t.ctx i).kept = (s.ctx i).kept)
    (hsends : t.hist.sends = s.hist.sends) (hdelivered : t.hist.delivered = s.hist.delivered) :
    SettlesAs model t start turns := by
  have hagenda : agenda t = agenda s := by rw [agenda, agenda, hsends, hdelivered]
  refine ⟨h.begins, ?_, fun i => ?_, ?_⟩
  · simp only [hagenda, hlp]
    exact h.runs
  · rw [hkept]
    exact h.records i
  · rw [hsends]
    exact h.sends

/-- The end of a run moves records and flushes, but changes no state of an LP. -/
theorem SettlesAs.finalized {s : Simulation Q σ} {start : LPId → σ} {turns : List Turn} {env : Environment}
    (h : SettlesAs model s start turns)
    (hd : Disciplined ((Phase.finalize env).after model cfg s).hist) :
    SettlesAs model ((Phase.finalize env).after model cfg s) start turns := by
  have hmig : Migrated (flushed cfg s) ((Phase.finalize env).after model cfg s) :=
    finalizeAtEnd_migrated model cfg env s
  have hrest : (Phase.finalize env).IsRest := trivial
  refine h.congr (fun i => ?_) (fun i => ?_) ?_ ?_
  · have hrests : Rests i (s.ctx i).lp ((Phase.finalize env).after model cfg s) :=
      (restClosed_rests i (s.ctx i).lp).after hrest (Or.inr rfl)
    exact hrests.resolve_left fun ⟨step, hstep, hinto⟩ => hd.migrations step hstep i hinto
  · have hkept : (((Phase.finalize env).after model cfg s).ctx i).kept = ((flushed cfg s).ctx i).kept := by
      rw [hmig.ctx]
      rfl
    exact hkept.trans (prune_proj cfg (·.kept) kept_prune maxStamp s i)
  · rw [hmig.rest]
    rfl
  · rw [hmig.rest]
    rfl

/-- Whatever has been executed too early and undone on the way, once nothing waits any more the run has come to
what a sequential execution comes to: the LPs are in its states, they have kept its records, and what they have
sent and not cancelled are its sends. -/
theorem settles_sequentially {allowed : Simulation Q σ → HostOp → Prop} {s : Simulation Q σ}
    (h : Reachable model cfg allowed s) (hleaves : Leaves allowed)
    (hsound : ∀ s op, allowed s op → op.SoundReduction cfg) (hoff : cfg.enableInstallBeforeUseBuffering = false)
    (ht : Timely s.hist) (hd : Disciplined s.hist) {Admits : LPId → Event → Prop}
    (hcontract : ∀ i, SnapshotContract (model i) (Admits i)) (hadmits : ∀ ev ∈ s.entered cfg, Admits ev.dst ev)
    (hq : Quiescent cfg s) : ∃ start turns, SettlesAs model s start turns := by
  have hcovered : Covered s.hist := (h.noDeferral hoff).covered ht
  obtain ⟨t, hrun, -, rfl | ⟨hempty, env, rfl⟩⟩ := h.ending hleaves hsound
  · exact hrun.settles hoff hcovered hd hcontract hadmits hq
  · have hbase := hrun.baseInv
    have hle : t.hist.Extends ((Phase.finalize env).after model cfg t).hist :=
      AllMoves.extends (Phase.after_moves model cfg hbase (show Phase.Ready t (.finalize env) from trivial)).1
    obtain ⟨start, turns, hsettles⟩ := hrun.settles hoff (hcovered.mono hle) (hd.mono hle) hcontract
      (fun ev hev => hadmits ev ((entered_sublist hle).subset hev)) ⟨hq.alone, hempty⟩
    exact ⟨start, turns, hsettles.finalized hd⟩

/-- The LPs add up what they are sent and put out each sum, and the LP 1 tells the LP 2 about it. -/
def adder (id : LPId) : LogicalProcess UInt8 where
  init := 0
  onEvent st ev :=
    let sum := st + ev.payload.kind.toUInt8
    let output : Payload := { kind := sum.toUInt32 }
    .requestWrite st 0 <| .emitCommitted ev.ts output fun _ =>
      if id = 1 then .send { ts := ⟨ev.ts.time + 5, 0⟩, src := 1, dst := 2, payload := output } fun _ => .done sum
      else .done sum
  saveState st := [st]
  loadState _ bytes := bytes.headD 0

theorem adder_contract (id : LPId) : SnapshotContract (adder id) fun _ => True := by
  refine .whole (fun _ => True) rfl (fun _ _ => trivial) (fun _ _ _ _ => rfl)
    fun st ev _ _ => ⟨trivial, fun _ _ => rfl, fun _ => ?_⟩
  split
  · exact fun _ => ⟨trivial, fun i hi => absurd (List.mem_singleton.mpr rfl) hi⟩
  · exact ⟨trivial, fun i hi => absurd (List.mem_singleton.mpr rfl) hi⟩

/-- An event at 10 comes when the one at 20 has been executed, and what it has sent, too. The LP 3 has nothing to
do, so that GVT stays where it is. -/
def adderOps : List HostOp :=
  [.addLp 1, .addLp 2, .addLp 3, .schedule { ts := ⟨20, 1⟩, src := 9, dst := 1, uid := 1, payload := { kind := 3 } },
    .runOne {} false, .runOne {} false,
    .schedule { ts := ⟨10, 1⟩, src := 9, dst := 1, uid := 2, payload := { kind := 4 } }] ++
    List.replicate 8 (.runOne {} false)

def adderRun : Simulation sortedEventQueue UInt8 := hostRun adder {} adderOps (Simulation.create _ adder)

/-- Both LPs have undone records, and in the end the LP 2 has been told about the sums 4 and 7. -/
theorem settles_sequentially_adder :
    (adderRun.ctx 1).undone.length = 1 ∧ (adderRun.ctx 2).undone.length = 2 ∧
      ((adderRun.ctx 1).lp, (adderRun.ctx 2).lp) = (7, 11) ∧ ∃ start turns, SettlesAs adder adderRun start turns := by
  have hrun : Reachable adder {} (fun s _ => s.finished = false) adderRun :=
    Reachable.hostRun .create (by decide +kernel)
  have hmigrations : adderRun.hist.migrations = [] := by decide +kernel
  have huids : ∀ r ∈ adderRun.hist.sends, r.Positive → r.asked.uid = 0 := by decide +kernel
  have hdisciplined : Disciplined adderRun.hist :=
    ⟨by decide +kernel, huids, by decide +kernel, by decide +kernel, by decide +kernel, by decide +kernel,
      by simp [hmigrations]⟩
  refine ⟨by decide +kernel, by decide +kernel, by decide +kernel, ?_⟩
  exact settles_sequentially hrun (fun _ _ h => h) (fun _ op _ => HostOp.soundReduction_of_alone rfl rfl op) rfl
    ⟨by decide +kernel, by decide +kernel⟩ hdisciplined adder_contract (fun _ _ => trivial) ⟨fun _ => rfl, by decide +kernel⟩

end WarpSim

import WarpSim.Verification.Drawing

/-! # Sequence numbers and rollbacks

A rollback takes the counters of an LP back to what the oldest record undone has saved of them. They are then
as after the start and the sends of the records that are kept, as long as no anti-message saves counters that
the rollback made on its behalf takes back. -/

namespace WarpSim

variable {Q : EventQueue} {σ : Type} {model : Model σ} {cfg : SimulationConfig}

open Prog Simulation

/-! ## Counters and turns -/

/-- The record of the turn has saved the counters, and the numbers drawn in the turn have moved them on. -/
structure Turn.Draws (cfg : SimulationConfig) (i : LPId) (turn : Turn) (y z : Bool → UInt64) : Prop where
  saved : turn.record.seq = y
  drawn : ∀ control, (z control).toNat = (y control).toNat + draws cfg i control turn.sends

/-- The turns are those of the records kept, and have taken the counters of the LP from `base` to where they
are. -/
structure Numbering (cfg : SimulationConfig) (i : LPId) (base : Bool → UInt64) (turns : List Turn)
    (c : LPContext σ) : Prop where
  records : turns.map (·.record) = c.kept
  trail : Trail (Turn.Draws cfg i) base turns c.seq

namespace Numbering

variable {i : LPId} {base : Bool → UInt64} {turns : List Turn} {c c' : LPContext σ}

theorem congr (h : Numbering cfg i base turns c) (hkept : c'.kept = c.kept) (hseq : c'.seq = c.seq) :
    Numbering cfg i base turns c' :=
  ⟨h.records.trans hkept.symm, hseq ▸ h.trail⟩

theorem push (h : Numbering cfg i base turns c) {turn : Turn} (hkept : c'.kept = c.kept ++ [turn.record])
    (hdraws : turn.Draws cfg i c.seq c'.seq) : Numbering cfg i base (turns ++ [turn]) c' := by
  refine ⟨?_, h.trail.snoc hdraws⟩
  rw [List.map_append, h.records, hkept]
  rfl

end Numbering

/-- A rollback restores the counters that the oldest record undone has saved. -/
theorem seq_rewind (lp : LogicalProcess σ) (target : TimeStamp) (c : LPContext σ) :
    (c.rewind lp target).seq = ((undoneRecords target c.processed).head?.map (·.seq)).getD c.seq := by
  unfold LPContext.rewind
  dsimp only
  split
  · next hnone =>
    rw [hnone]
    exact seq_ext rfl rfl
  · next oldest rest hundone =>
    rw [hundone]
    rfl

theorem Numbering.rewind {i : LPId} {base : Bool → UInt64} {turns : List Turn} {c : LPContext σ}
    (h : Numbering cfg i base turns c) (lp : LogicalProcess σ) (target : TimeStamp) :
    Numbering cfg i base (turns.rdrop (undoneRecords target c.processed).length) (c.rewind lp target) := by
  have hsplit := keptRecords_append_undoneRecords target c.processed
  have hrecords := h.records
  rw [LPContext.kept, ← hsplit, ← List.append_assoc] at hrecords
  obtain ⟨front, back, rfl, hfront, hback⟩ := List.map_eq_append_iff.mp hrecords
  have hlength : (undoneRecords target c.processed).length = back.length := by rw [← hback, List.length_map]
  rw [hlength, List.rdrop_append_length]
  refine ⟨?_, ?_⟩
  · rw [hfront, LPContext.rewind_eq]
    rfl
  · obtain ⟨y, hy, hz⟩ := Trail.append_iff.mp h.trail
    rw [seq_rewind]
    cases back with
    | nil =>
        have hnone : undoneRecords target c.processed = [] := hback.symm
        rw [hnone]
        exact (Trail.nil_iff.mp hz) ▸ hy
    | cons turn back =>
        obtain ⟨z, hturn, -⟩ := Trail.cons_iff.mp hz
        have hsome : undoneRecords target c.processed = turn.record :: back.map (·.record) := hback.symm
        rw [hsome]
        change Trail (Turn.Draws cfg i) base front turn.record.seq
        rw [hturn.saved]
        exact hy

/-- Going on from `s` to `t`, the turns of the records undone are dropped, and those of new records added. -/
def turnsAfter (i : LPId) (s t : Simulation Q σ) (turns : List Turn) : List Turn :=
  turns.rdrop ((t.ctx i).undone.length - (s.ctx i).undone.length) ++
    ((t.ctx i).executed.drop (s.ctx i).executed.length).map fun rec =>
      ⟨rec, (t.hist.sends.drop s.hist.sends.length).filter (·.cause = .handler i rec.ev.ts)⟩

section

variable {i : LPId} {s t : Simulation Q σ} {gone : List ProcessedRecord}

theorem turnsAfter_keep (turns : List Turn) (hundone : (t.ctx i).undone = (s.ctx i).undone ++ gone)
    (hexec : (t.ctx i).executed = (s.ctx i).executed) : turnsAfter i s t turns = turns.rdrop gone.length := by
  unfold turnsAfter
  rw [hundone, hexec, List.length_append, Nat.add_sub_cancel_left, List.drop_length, List.map_nil, List.append_nil]

theorem turnsAfter_push (turns : List Turn) {rec : ProcessedRecord} {more : List SendRecord}
    (hundone : (t.ctx i).undone = (s.ctx i).undone ++ gone)
    (hexec : (t.ctx i).executed = (s.ctx i).executed ++ [rec]) (hsends : t.hist.sends = s.hist.sends ++ more) :
    turnsAfter i s t turns =
      turns.rdrop gone.length ++ [⟨rec, more.filter (·.cause = .handler i rec.ev.ts)⟩] := by
  unfold turnsAfter
  rw [hundone, hexec, hsends, List.length_append, Nat.add_sub_cancel_left, List.drop_left, List.drop_left,
    List.map_singleton]

theorem turnsAfter_same (turns : List Turn) (hundone : (t.ctx i).undone = (s.ctx i).undone)
    (hexec : (t.ctx i).executed = (s.ctx i).executed) : turnsAfter i s t turns = turns := by
  have hnone : (t.ctx i).undone = (s.ctx i).undone ++ [] := by rw [hundone, List.append_nil]
  rw [turnsAfter_keep turns hnone hexec]
  exact List.rdrop_zero turns

end

/-! ## What a dispatch does to the counters -/

/-- A dispatch leaves the other LPs alone, but for their counters and sent logs. -/
theorem DispatchStep.others {ev : Event} {s t : Simulation Q σ} (h : DispatchStep model cfg ev s t) {i : LPId}
    (hi : i ≠ ev.dst) : SameWork (s.ctx i) (t.ctx i) := by
  have hhandler : ∀ {u w : Simulation Q σ} {res : Except String ProcessedRecord}, SameLps s u →
      exec (runHandler model cfg ev.dst ((model ev.dst).onEvent (u.ctx ev.dst).lp ev)
        (newRecord ev (u.ctx ev.dst))) (entered ev u) = (res, w) → SameWork (s.ctx i) ((left ev.dst w).ctx i) := by
    intro u w res hu hrun
    have hsame := runHandler_same model cfg ev.dst ((model ev.dst).onEvent (u.ctx ev.dst).lp ev)
      (newRecord ev (u.ctx ev.dst)) (entered ev u)
    rw [hrun] at hsame
    have hother := hsame.others i hi
    rw [entered_of_ne u hi, hu.ctx] at hother
    rw [left_of_ne w hi]
    exact hother
  cases h with
  | nothing hsame =>
      rw [hsame.ctx]
      exact .refl _
  | straggler u v more _ _ hu hback hv =>
      rw [hv.ctx, hback.others i hi, hu.ctx]
      exact .refl _
  | annulled u v more _ _ _ hu hcancel hv =>
      have hbefore : v.ctx i = u.ctx i := by
        cases hcancel with
        | pending _ hsame => rw [hsame.ctx]
        | processed r _ hback => exact hback.others i hi
      rw [hv.ctx, pushProcessed, modifyCtx_of_ne _ _ hi, modifyCtx_of_ne _ _ hi, hbefore, hu.ctx]
      exact .refl _
  | executed u w rec _ _ _ hu hrun hw =>
      rw [hw.ctx, pushProcessed, modifyCtx_of_ne _ _ hi]
      exact hhandler hu hrun
  | thrown u w what vt execTs _ _ _ hu hrun hw =>
      rw [hw.ctx, modifyCtx_of_ne _ _ hi]
      exact hhandler hu hrun

theorem antiRecord_seq (ev : Event) (s : Simulation Q σ) : (antiRecord ev s).seq = (s.ctx ev.dst).seq := by
  unfold antiRecord
  split
  · rfl
  · rfl

theorem SameOrigin.seq {rec rec' : ProcessedRecord} (h : SameOrigin rec rec') : rec'.seq = rec.seq := by
  funext control
  unfold ProcessedRecord.seq
  rw [h.normal, h.control]

section

variable {base : Bool → UInt64} {turns : List Turn} {s t : Simulation Q σ} {ev : Event}

/-- A rollback drops the turns of the records it undoes. -/
theorem Numbering.rolledBack {id : LPId} {target : TimeStamp} {more : List SendRecord}
    (h : Numbering cfg id base turns (s.ctx id)) (hback : RolledBack model cfg id target s t more)
    (hlogged : ∀ sent ∈ (s.ctx id).sentLog, sent.msgTime.sequence ≠ 0) :
    Numbering cfg id base (turns.rdrop (undoneRecords target (s.ctx id).processed).length) (t.ctx id) := by
  obtain ⟨hnormal, hcontrol⟩ := hback.counters hlogged
  exact (h.rewind (model id) target).congr hback.work.books.kept (seq_ext hnormal hcontrol)

theorem RolledBack.undone {id : LPId} {target : TimeStamp} {more : List SendRecord}
    (hback : RolledBack model cfg id target s t more) :
    (t.ctx id).undone = (s.ctx id).undone ++ undoneRecords target (s.ctx id).processed ∧
      (t.ctx id).executed = (s.ctx id).executed := by
  rw [hback.work.undone, hback.work.executed, rewind_executed, LPContext.rewind_eq]
  exact ⟨rfl, rfl⟩

/-- An anti-message gets a turn of its own, if what its record saves is not taken back on its behalf. -/
theorem Numbering.annulled {u v : Simulation Q σ} {more : List SendRecord}
    (h : Numbering cfg ev.dst base turns (s.ctx ev.dst)) (hu : SameLps s u) (hcancel : Annuls model cfg ev u v more)
    (hv : SameLps (pushProcessed ev.dst (antiRecord ev u) (v.modifyCtx ev.dst fun c => { c with vt := ev.ts })) t)
    (hlogged : ∀ sent ∈ (s.ctx ev.dst).sentLog, sent.msgTime.sequence ≠ 0)
    (hsaved : ∀ r, (s.ctx ev.dst).processed.reverse.find? (matchesAnti ev) = some r →
      ∀ oldest ∈ (undoneRecords r.ev.ts (s.ctx ev.dst).processed).head?, oldest.seq = (s.ctx ev.dst).seq) :
    Numbering cfg ev.dst base (turnsAfter ev.dst s t turns) (t.ctx ev.dst) := by
  rw [← hu.ctx] at h hlogged hsaved
  obtain ⟨gone, hbefore, hseq, hundone, hexec, hsends, hcause⟩ : ∃ gone : List ProcessedRecord,
      Numbering cfg ev.dst base (turns.rdrop gone.length) (v.ctx ev.dst) ∧
      (v.ctx ev.dst).seq = (u.ctx ev.dst).seq ∧ (v.ctx ev.dst).undone = (u.ctx ev.dst).undone ++ gone ∧
      (v.ctx ev.dst).executed = (u.ctx ev.dst).executed ∧ v.hist.sends = u.hist.sends ++ more ∧
      ∀ r ∈ more, r.cause = .rollback ev.dst := by
    cases hcancel with
    | pending _ hsame hnone =>
        refine ⟨[], ?_, by rw [hsame.ctx], by rw [hsame.ctx, List.append_nil], by rw [hsame.ctx],
          by rw [hsame.sends, hnone, List.append_nil], by simp [hnone]⟩
        rw [hsame.ctx]
        exact (List.rdrop_zero turns).symm ▸ h
    | processed r hfind hback =>
        refine ⟨_, h.rolledBack hback hlogged, ?_, hback.undone.1, hback.undone.2, hback.sends,
          fun q hq => (hback.cause q hq).1⟩
        obtain ⟨hnormal, hcontrol⟩ := hback.counters hlogged
        rw [seq_ext hnormal hcontrol, seq_rewind]
        cases hhead : (undoneRecords r.ev.ts (u.ctx ev.dst).processed).head? with
        | none => rfl
        | some oldest => exact hsaved r hfind oldest hhead
  have hctx : t.ctx ev.dst = { v.ctx ev.dst with
      vt := ev.ts
      processed := (v.ctx ev.dst).processed ++ [antiRecord ev u]
      executed := (v.ctx ev.dst).executed ++ [antiRecord ev u] } := by
    rw [hv.ctx, pushProcessed, modifyCtx_self, modifyCtx_self]
  have hnone : more.filter (·.cause = .handler ev.dst (antiRecord ev u).ev.ts) = [] := by
    refine List.filter_eq_nil_iff.mpr fun r hr => ?_
    simp [hcause r hr]
  have hundone' : (t.ctx ev.dst).undone = (s.ctx ev.dst).undone ++ gone := by rw [hctx, hundone, hu.ctx]
  have hexec' : (t.ctx ev.dst).executed = (s.ctx ev.dst).executed ++ [antiRecord ev u] := by rw [hctx, hexec, hu.ctx]
  have hsends' : t.hist.sends = s.hist.sends ++ more := hv.sends.trans (by rw [← hu.sends]; exact hsends)
  have hturns := turnsAfter_push turns hundone' hexec' hsends'
  rw [hturns, hnone]
  refine hbefore.push ?_ ⟨?_, fun control => ?_⟩
  · rw [hctx]
    simp [LPContext.kept]
  · rw [antiRecord_seq, hseq]
  · rw [hctx]
    rfl

/-- A handler that is run to its end gets a turn, and leaves no numbers drawn otherwise. -/
theorem Numbering.handled (h : Numbering cfg ev.dst base turns (s.ctx ev.dst))
    (hhandled : Handled model cfg ev (handed cfg ev (taken s)) t)
    (htidy : ((model ev.dst).onEvent (s.ctx ev.dst).lp ev).Tidy cfg ev.dst ev.ts (s.ctx ev.dst).seq
      (entered ev (handed cfg ev (taken s)))) (hw : t.hist.wrapped = false) :
    Numbering cfg ev.dst base (turnsAfter ev.dst s t turns) (t.ctx ev.dst) := by
  have hquiet := quiet_validate cfg (recordDispatch ev (taken s))
  have hctx : (handed cfg ev (taken s)).ctx = s.ctx := hquiet.ctx
  have hsends : (entered ev (handed cfg ev (taken s))).hist.sends = s.hist.sends :=
    (congrArg History.sends hquiet.hist : (handed cfg ev (taken s)).hist.sends = _)
  have hentered : (entered ev (handed cfg ev (taken s))).ctx ev.dst = (s.ctx ev.dst).enter ev := by
    rw [entered_self, hctx]
  have hseq : ((entered ev (handed cfg ev (taken s))).ctx ev.dst).seq = (s.ctx ev.dst).seq := by
    rw [hentered]
    exact seq_ext rfl rfl
  have hsame := runHandler_same model cfg ev.dst ((model ev.dst).onEvent ((handed cfg ev (taken s)).ctx ev.dst).lp ev)
    (newRecord ev ((handed cfg ev (taken s)).ctx ev.dst)) (entered ev (handed cfg ev (taken s)))
  have hself := hsame.self
  rw [hentered] at hself
  have hdrawn : (handling model cfg ev (handed cfg ev (taken s))).2.hist.wrapped = false →
      ∃ more, Drawn cfg ev.dst (s.ctx ev.dst).seq (newRecord ev ((handed cfg ev (taken s)).ctx ev.dst))
        (entered ev (handed cfg ev (taken s))) (handling model cfg ev (handed cfg ev (taken s))) more :=
    runHandler_drawn model _ _ (by rw [hctx]; exact htidy)
  change SameWork _ ((handling model cfg ev (handed cfg ev (taken s))).2.ctx ev.dst) at hself
  cases hhandled with
  | ran rec hres hwrapped ht =>
      obtain ⟨more, hmore⟩ := hdrawn (hwrapped.symm.trans hw)
      generalize handling model cfg ev (handed cfg ev (taken s)) = res at *
      obtain ⟨horigin, hcount⟩ := hmore.returned rec hres
      have ht_ctx : t.ctx ev.dst = { res.2.ctx ev.dst with
          inEvent := false
          processed := (res.2.ctx ev.dst).processed ++ [rec]
          executed := (res.2.ctx ev.dst).executed ++ [rec] } := by
        rw [ht.ctx, pushProcessed, modifyCtx_self, left_self]
      have hev : rec.ev = ev := horigin.ev
      have hall : more.filter (·.cause = .handler ev.dst rec.ev.ts) = more := by
        refine List.filter_eq_self.mpr fun r hr => decide_eq_true ?_
        rw [hmore.cause r hr, hev]
        rfl
      have hundone : (t.ctx ev.dst).undone = (s.ctx ev.dst).undone ++ [] := by
        rw [ht_ctx, List.append_nil]
        exact hself.undone
      have hexec : (t.ctx ev.dst).executed = (s.ctx ev.dst).executed ++ [rec] := by
        rw [ht_ctx]
        exact congrArg (· ++ [rec]) hself.executed
      have hsent : t.hist.sends = s.hist.sends ++ more := ht.sends.trans (hmore.sends.trans (by rw [hsends]))
      rw [turnsAfter_push turns hundone hexec hsent, hall]
      have hkept : (res.2.ctx ev.dst).kept = (s.ctx ev.dst).kept := hself.books.kept
      refine Numbering.push ((List.rdrop_zero turns).symm ▸ h) ?_ ⟨?_, fun control => ?_⟩
      · rw [ht_ctx, ← hkept]
        simp [LPContext.kept]
      · rw [horigin.seq, hctx]
        rfl
      · rw [ht_ctx, ← hseq]
        exact hcount control
  | thrown what vt execTs hres hwrapped ht =>
      obtain ⟨more, hmore⟩ := hdrawn (hwrapped.symm.trans hw)
      generalize handling model cfg ev (handed cfg ev (taken s)) = res at *
      have ht_ctx : t.ctx ev.dst = { res.2.ctx ev.dst with inEvent := false, vt := vt, currentExecTs := execTs } := by
        rw [ht.ctx, modifyCtx_self, left_self]
      rw [turnsAfter_same turns (by rw [ht_ctx]; exact hself.undone) (by rw [ht_ctx]; exact hself.executed)]
      refine h.congr ?_ ?_
      · rw [ht_ctx]
        exact hself.books.kept
      · rw [ht_ctx]
        exact (seq_ext rfl rfl : _ = (res.2.ctx ev.dst).seq).trans (hmore.thrown what hres)

end

/-! ## Runs with their surviving turns -/

/-- A state of a run, with the counters of the LP after the start and the turns of the records kept. -/
structure Journal (Q : EventQueue) (σ : Type) where
  state : Simulation Q σ
  base : Bool → UInt64
  turns : List Turn

def Journal.create (Q : EventQueue) (model : Model σ) : Journal Q σ := ⟨Simulation.create Q model, fun _ => 1, []⟩

/-- The journal after a phase. Up to the end of the phase that starts the LPs, the counters are taken down. -/
def Journal.next (model : Model σ) (cfg : SimulationConfig) (i : LPId) (j : Journal Q σ) (p : Phase) :
    Journal Q σ where
  state := p.after model cfg j.state
  base := if j.state.started then j.base else ((p.after model cfg j.state).ctx i).seq
  turns := turnsAfter i j.state (p.after model cfg j.state) j.turns

/-- The journals of the runs whose phases are allowed where they begin. -/
inductive Journaled (model : Model σ) (cfg : SimulationConfig) (i : LPId)
    (allowed : Phase → Simulation Q σ → Prop) : Journal Q σ → Prop where
  | create : Journaled model cfg i allowed (.create Q model)
  | step {j p} : Journaled model cfg i allowed j → p.Ready j.state → allowed p j.state →
      Journaled model cfg i allowed (j.next model cfg i p)

theorem PhaseRun.journaled {allowed : Phase → Simulation Q σ → Prop} {s : Simulation Q σ} (i : LPId)
    (h : PhaseRun model cfg allowed (Simulation.create Q model) s) :
    ∃ j, Journaled model cfg i allowed j ∧ j.state = s := by
  induction h with
  | refl => exact ⟨_, .create, rfl⟩
  | step _ hready hallowed ih =>
      obtain ⟨j, hj, rfl⟩ := ih
      exact ⟨_, hj.step hready hallowed, rfl⟩

theorem Journaled.phaseRun {i : LPId} {allowed : Phase → Simulation Q σ → Prop} {j : Journal Q σ}
    (h : Journaled model cfg i allowed j) : PhaseRun model cfg allowed (Simulation.create Q model) j.state := by
  induction h with
  | create => exact .refl
  | step _ hready hallowed ih => exact ih.step hready hallowed

/-- The counters of the LP move on as LPs are started and as its own events are dispatched only. -/
def OwnNumbers (model : Model σ) (cfg : SimulationConfig) (i : LPId) (p : Phase) (s : Simulation Q σ) : Prop :=
  p ≠ .start → (p = .dispatch → ∀ ev, Q.top? (popScan s).pending = some ev → ev.dst ≠ i) →
    ((p.after model cfg s).ctx i).seq = (s.ctx i).seq

/-- The event is dispatched next, to an LP that is not past it. -/
structure Due (ev : Event) (s : Simulation Q σ) : Prop where
  top : Q.top? (popScan s).pending = some ev
  known : ev.dst ∈ s.lpIds
  inTime : ¬ ev.ts < (s.ctx ev.dst).vt

/-- Whatever numbers the LP draws in the phase, a rollback can take them back. -/
structure Reversible (model : Model σ) (cfg : SimulationConfig) (i : LPId) (p : Phase) (s : Simulation Q σ) :
    Prop where
  own : OwnNumbers model cfg i p s
  tidy : p = .dispatch → ∀ ev, Due ev s → ev.dst = i → ev.isAnti = false →
    ((model i).onEvent (s.ctx i).lp ev).Tidy cfg i ev.ts (s.ctx i).seq (entered ev (handed cfg ev (taken s)))
  /-- What the record of an anti-message saves is not taken back by the rollback that the anti-message causes. -/
  saved : p = .dispatch → ∀ ev, Due ev s → ev.dst = i → ev.isAnti = true →
    ∀ r, (s.ctx i).processed.reverse.find? (matchesAnti ev) = some r →
      ∀ oldest ∈ (undoneRecords r.ev.ts (s.ctx i).processed).head?, oldest.seq = (s.ctx i).seq

/-- A dispatch keeps the turns and the counters of the LP together. -/
theorem Numbering.dispatched {i : LPId} {base : Bool → UInt64} {turns : List Turn} {s : Simulation Q σ}
    (h : Numbering cfg i base turns (s.ctx i)) (hlog : Loggable cfg s)
    (hlogged : ∀ sent ∈ (s.ctx i).sentLog, sent.msgTime.sequence ≠ 0) (hback : Reversible model cfg i .dispatch s)
    (hw : (Phase.dispatch.after model cfg s).hist.wrapped = false) :
    Numbering cfg i base (turnsAfter i s (Phase.dispatch.after model cfg s) turns)
      ((Phase.dispatch.after model cfg s).ctx i) := by
  have hsame : ∀ {t : Simulation Q σ}, SameLps s t → Numbering cfg i base (turnsAfter i s t turns) (t.ctx i) := by
    intro t hsame
    rw [turnsAfter_same turns (by rw [hsame.ctx]) (by rw [hsame.ctx]), hsame.ctx]
    exact h
  rcases dispatch_step model hlog with hnothing | ⟨ev, htop, hstep⟩
  · exact hsame hnothing
  by_cases hi : i = ev.dst
  swap
  · have hother := hstep.others hi
    rw [turnsAfter_same turns hother.undone hother.executed]
    refine h.congr hother.books.kept (hback.own (fun heq => by cases heq) fun _ ev' htop' => ?_)
    rw [htop] at htop'
    cases htop'
    exact Ne.symm hi
  subst hi
  cases hstep with
  | nothing hnothing => exact hsame hnothing
  | straggler u v more _ _ hu hrolled hv =>
      rw [← hu.ctx] at h hlogged
      obtain ⟨hundone, hexec⟩ := hrolled.undone
      rw [← hv.ctx, hu.ctx] at hundone hexec
      rw [turnsAfter_keep turns hundone hexec, ← hu.ctx, hv.ctx]
      exact h.rolledBack hrolled hlogged
  | annulled u v more hanti hdst hvt hu hcancel hv =>
      exact h.annulled hu hcancel hv hlogged (hback.saved rfl ev ⟨htop, hdst, hvt⟩ rfl hanti)
  | executed _ _ _ hpos hdst hvt =>
      exact h.handled (dispatch_handled model cfg htop hpos hdst hvt)
        (hback.tidy rfl ev ⟨htop, hdst, hvt⟩ rfl hpos) hw
  | thrown _ _ _ _ _ hpos hdst hvt =>
      exact h.handled (dispatch_handled model cfg htop hpos hdst hvt)
        (hback.tidy rfl ev ⟨htop, hdst, hvt⟩ rfl hpos) hw

/-- Before the start there are no turns, and the turns have taken the counters from `base` to where they are. -/
structure JournalInv (cfg : SimulationConfig) (i : LPId) (j : Journal Q σ) : Prop where
  unstarted : j.state.started = false → j.turns = []
  numbering : Numbering cfg i j.base j.turns (j.state.ctx i)

theorem JournalInv.next {i : LPId} {j : Journal Q σ} {p : Phase} (h : JournalInv cfg i j)
    (hrun : OnRun model cfg j.state) (hp : p.Ready j.state) (hback : Reversible model cfg i p j.state)
    (hw : (p.after model cfg j.state).hist.wrapped = false) : JournalInv cfg i (j.next model cfg i p) := by
  have hmoves := (Phase.after_moves model cfg hrun.baseInv hp).1
  have hw' : j.state.hist.wrapped = false := (AllMoves.extends hmoves).wrapped hw
  by_cases hne : p = .dispatch
  · subst hne
    have hstarted : j.state.started = true := hp
    refine ⟨fun hnot => ?_, ?_⟩
    · exact absurd (hnot.symm.trans (AllMoves.started_mono hmoves hstarted)) (by simp)
    · have hbase : (j.next model cfg i .dispatch).base = j.base := if_pos hstarted
      rw [hbase]
      exact h.numbering.dispatched hrun.loggable (hrun.logged_sequence hw' i) hback hw
  · have hframe : RestFrame (j.state.ctx i) ((p.after model cfg j.state).ctx i) :=
      Phase.after_restFrame hne hrun.booksInv hrun.baseInv hp i
    have hturns : (j.next model cfg i p).turns = j.turns := turnsAfter_same j.turns hframe.undone hframe.executed
    refine ⟨fun hnot => ?_, ?_⟩
    · rw [hturns]
      refine h.unstarted (Bool.eq_false_iff.mpr fun hstarted => ?_)
      exact absurd (hnot.symm.trans (AllMoves.started_mono hmoves hstarted)) (by simp)
    · rw [hturns]
      cases hstarted : j.state.started with
      | true =>
          have hbase : (j.next model cfg i p).base = j.base := if_pos hstarted
          rw [hbase]
          refine h.numbering.congr hframe.kept ?_
          by_cases hstart : p = .start
          · subst hstart
            change ((Phase.start.after model cfg j.state).ctx i).seq = _
            rw [Phase.start_of_started hstarted]
          · exact hback.own hstart fun hdispatch => absurd hdispatch hne
      | false =>
          have hbase : (j.next model cfg i p).base = ((p.after model cfg j.state).ctx i).seq :=
            if_neg (by simp [hstarted])
          have hnone := h.unstarted hstarted
          have hkept := h.numbering.records
          rw [hnone] at hkept
          rw [hbase, hnone]
          exact ⟨hkept.trans hframe.kept.symm, .nil⟩

theorem Journaled.inv {i : LPId} {j : Journal Q σ} (h : Journaled model cfg i (Reversible model cfg i) j)
    (hw : j.state.hist.wrapped = false) : JournalInv cfg i j := by
  induction h with
  | create => exact ⟨fun _ => rfl, rfl, Trail.nil_iff.mpr (funext fun control => by cases control <;> rfl)⟩
  | @step j p hj hready hback ih =>
      have hrun : OnRun model cfg j.state := hj.phaseRun.mono fun _ _ _ => trivial
      have hmoves := (Phase.after_moves model cfg hrun.baseInv hready).1
      exact (ih ((AllMoves.extends hmoves).wrapped hw)).next hrun hready hback hw

theorem Trail.drawn {i : LPId} {base z : Bool → UInt64} {turns : List Turn}
    (h : Trail (Turn.Draws cfg i) base turns z) (control : Bool) :
    (z control).toNat = (base control).toNat + draws cfg i control (turns.flatMap (·.sends)) := by
  induction h with
  | nil => rfl
  | @snoc turns y z turn _ hturn ih =>
      rw [hturn.drawn control, ih, List.flatMap_append, draws_append, List.flatMap_singleton, Nat.add_assoc]

/-- In a run whose phases can all be taken back, the turns of the records kept account for the counters of the
LP, and for what each of these records has saved. -/
theorem counters_of_survivors {i : LPId} {j : Journal Q σ} (h : Journaled model cfg i (Reversible model cfg i) j)
    (hw : j.state.hist.wrapped = false) :
    j.turns.map (·.record) = (j.state.ctx i).fossils ++ (j.state.ctx i).processed ∧ ∀ control,
      ((j.state.ctx i).seq control).toNat =
          (j.base control).toNat + draws cfg i control (j.turns.flatMap (·.sends)) ∧
        ∀ before turn after, j.turns = before ++ turn :: after →
          (turn.record.seq control).toNat =
            (j.base control).toNat + draws cfg i control (before.flatMap (·.sends)) := by
  have hinv := h.inv hw
  refine ⟨hinv.numbering.records, fun control => ⟨hinv.numbering.trail.drawn control, ?_⟩⟩
  intro before turn after hturns
  have htrail := hinv.numbering.trail
  rw [hturns] at htrail
  obtain ⟨y, hy, hrest⟩ := Trail.append_iff.mp htrail
  obtain ⟨z, hturn, -⟩ := Trail.cons_iff.mp hrest
  rw [hturn.saved]
  exact hy.drawn control

/-! ## Runs of one LP -/

theorem ownNumbers_front (ev : Event) {s : Simulation Q σ} (htop : Q.top? (popScan s).pending = some ev) :
    OwnNumbers model cfg ev.dst .dispatch s :=
  fun _ hother => absurd rfl (hother rfl ev htop)

theorem ownNumbers_schedule (i : LPId) (ev : Event) (s : Simulation Q σ) : OwnNumbers model cfg i (.schedule ev) s :=
  fun _ _ => rfl

theorem Reversible.of_ne {i : LPId} {p : Phase} {s : Simulation Q σ} (hown : OwnNumbers model cfg i p s)
    (hne : p ≠ .dispatch) : Reversible model cfg i p s :=
  ⟨hown, fun heq => absurd heq hne, fun heq => absurd heq hne⟩

theorem Reversible.of_positive {ev : Event} {s : Simulation Q σ} (htop : Q.top? (popScan s).pending = some ev)
    (hpos : ev.isAnti = false)
    (htidy : ((model ev.dst).onEvent (s.ctx ev.dst).lp ev).Tidy cfg ev.dst ev.ts (s.ctx ev.dst).seq
      (entered ev (handed cfg ev (taken s)))) : Reversible model cfg ev.dst .dispatch s := by
  have hfront : ∀ ev', Due ev' s → ev' = ev := fun ev' hdue => Option.some.inj (hdue.top.symm.trans htop)
  refine ⟨ownNumbers_front ev htop, fun _ ev' hdue _ _ => ?_, fun _ ev' hdue _ hanti => ?_⟩
  · rw [hfront ev' hdue]
    exact htidy
  · rw [hfront ev' hdue, hpos] at hanti
    cases hanti

def senderInput (time : UInt64) : Event := { ts := ⟨time, 1⟩, src := 9, dst := 1, uid := time }

def senderAnti (time : UInt64) : Event := { senderInput time with isAnti := true }

def senderOutput (time : UInt64) : Event := { ts := ⟨time + 40, 0⟩, src := 1, dst := 2 }

/-- An LP that passes each event on to the LP 2. -/
def sender : LogicalProcess Unit where
  init := ()
  onEvent _ ev := .send (senderOutput ev.ts.time) fun _ => .done ()
  saveState _ := []
  loadState st _ := st

theorem reversible_senderInput (time : UInt64) {s : Simulation sortedEventQueue Unit}
    (htop : sortedEventQueue.top? (popScan s).pending = some (senderInput time))
    (hsend : (exec (send (.handler 1 ⟨time, 1⟩) {} (senderOutput time))
      (entered (senderInput time) (handed {} (senderInput time) (taken s)))).1.toOption.isSome) :
    Reversible (fun _ => sender) {} 1 .dispatch s :=
  .of_positive htop rfl ⟨fun _ _ => hsend, trivial⟩

/-- The run, from phase to phase, with the turns of the LP 1. -/
def senderJournal (phases : List Phase) : Journal sortedEventQueue Unit :=
  phases.foldl (Journal.next (fun _ => sender) {} 1) (.create _ fun _ => sender)

section

variable {allowed : Phase → Simulation sortedEventQueue Unit → Prop} {phases : List Phase}

theorem senderJournal_append (phases : List Phase) (p : Phase) :
    senderJournal (phases ++ [p]) = (senderJournal phases).next (fun _ => sender) {} 1 p := by
  unfold senderJournal
  rw [List.foldl_append]
  rfl

theorem Journaled.append (h : Journaled (fun _ => sender) {} 1 allowed (senderJournal phases)) {p : Phase}
    (hready : p.Ready (senderJournal phases).state) (hallowed : allowed p (senderJournal phases).state) :
    Journaled (fun _ => sender) {} 1 allowed (senderJournal (phases ++ [p])) := by
  rw [senderJournal_append]
  exact h.step hready hallowed

theorem Journaled.dispatch (h : Journaled (fun _ => sender) {} 1 allowed (senderJournal phases))
    (hstarted : (senderJournal phases).state.started = true)
    (hallowed : allowed .dispatch (senderJournal phases).state) :
    Journaled (fun _ => sender) {} 1 allowed (senderJournal (phases ++ [.dispatch])) :=
  h.append hstarted hallowed

theorem Journaled.schedule (h : Journaled (fun _ => sender) {} 1 allowed (senderJournal phases)) (ev : Event)
    (hallowed : allowed (.schedule ev) (senderJournal phases).state) :
    Journaled (fun _ => sender) {} 1 allowed (senderJournal (phases ++ [.schedule ev])) :=
  h.append trivial hallowed

/-- The LP 1 is sent an event for 10. -/
def senderOpening : List Phase := [] ++ [.addLp 1] ++ [.start] ++ [.schedule (senderInput 10)]

theorem journaled_senderOpening
    (h : ∀ p s, p ≠ .dispatch → OwnNumbers (fun _ => sender) {} 1 p s → allowed p s) :
    Journaled (fun _ => sender) {} 1 allowed (senderJournal senderOpening) := by
  have hcreated : Journaled (fun _ => sender) {} 1 allowed (senderJournal []) := .create
  have hadded := hcreated.append (p := .addLp 1) trivial (h _ _ (fun heq => by cases heq) fun _ _ => by decide +kernel)
  have hstarted := hadded.append (p := .start) trivial (h _ _ (fun heq => by cases heq) fun hne => absurd rfl hne)
  exact hstarted.schedule (senderInput 10) (h _ _ (fun heq => by cases heq) (ownNumbers_schedule _ _ _))

end

/-- The event at 10 is cancelled once it has been executed, and an event for 5 comes in late. -/
def cancelledLate : Journal sortedEventQueue Unit :=
  senderJournal (senderOpening ++ [.dispatch] ++ [.schedule (senderAnti 10)] ++ [.dispatch] ++
    [.schedule (senderInput 5)] ++ [.dispatch])

/-- The record of the anti-message has saved the counter as it was before the event at 10 was undone, and to
this it is set as the record is undone: all that the LP has sent is cancelled, and the counter is at 2. -/
theorem counters_of_cancelledLate :
    Journaled (fun _ => sender) {} 1 (OwnNumbers (fun _ => sender) {} 1) cancelledLate ∧
      cancelledLate.state.hist.wrapped = false ∧ (cancelledLate.state.ctx 1).fossils = [] ∧
      (cancelledLate.state.ctx 1).processed = [] ∧ cancelledLate.turns = [] ∧ cancelledLate.base false = 1 ∧
      (cancelledLate.state.ctx 1).nextSeqNormal = 2 ∧
      ((cancelledLate.state.ctx 1).seq false).toNat ≠
        (cancelledLate.base false).toNat + draws {} 1 false (cancelledLate.turns.flatMap (·.sends)) := by
  have hturns : cancelledLate.turns = [] := List.eq_nil_of_length_eq_zero (by decide +kernel)
  have hbase : cancelledLate.base false = 1 := by decide +kernel
  have hseq : (cancelledLate.state.ctx 1).nextSeqNormal = 2 := by decide +kernel
  refine ⟨?_, by decide +kernel, by decide +kernel, by decide +kernel, hturns, hbase, hseq, ?_⟩
  swap
  · change (cancelledLate.state.ctx 1).nextSeqNormal.toNat ≠ _
    rw [hturns, hbase, hseq]
    decide
  have hopening : Journaled (fun _ => sender) {} 1 (OwnNumbers (fun _ => sender) {} 1) (senderJournal senderOpening) :=
    journaled_senderOpening fun _ _ _ hown => hown
  have hexecuted := hopening.dispatch (by decide +kernel) (ownNumbers_front (senderInput 10) (by decide +kernel))
  have hanti := hexecuted.schedule (senderAnti 10) (ownNumbers_schedule _ _ _)
  have hcancelled := hanti.dispatch (by decide +kernel)
    (ownNumbers_front (senderAnti 10) (by decide +kernel))
  have hlate := hcancelled.schedule (senderInput 5) (ownNumbers_schedule _ _ _)
  exact hlate.dispatch (by decide +kernel) (ownNumbers_front (senderInput 5) (by decide +kernel))

/-- An event for 5 comes in late, after which both events are executed in turn. -/
def replayedLate : Journal sortedEventQueue Unit :=
  senderJournal (senderOpening ++ [.dispatch] ++ [.schedule (senderInput 5)] ++ [.dispatch] ++ [.dispatch] ++
    [.dispatch])

theorem counters_of_survivors_replayedLate :
    replayedLate.turns.map (·.record.ev) = [senderInput 5, senderInput 10] ∧
      ((replayedLate.state.ctx 1).seq false).toNat =
        (replayedLate.base false).toNat + draws {} 1 false (replayedLate.turns.flatMap (·.sends)) := by
  have hopening : Journaled (fun _ => sender) {} 1 (Reversible (fun _ => sender) {} 1) (senderJournal senderOpening) :=
    journaled_senderOpening fun _ _ hne hown => .of_ne hown hne
  have hexecuted := hopening.dispatch (by decide +kernel)
    (reversible_senderInput 10 (by decide +kernel) (by decide +kernel))
  have hlate := hexecuted.schedule (senderInput 5) (.of_ne (ownNumbers_schedule _ _ _) fun heq => by cases heq)
  have hundone := hlate.dispatch (by decide +kernel)
    (reversible_senderInput 5 (by decide +kernel) (by decide +kernel))
  have hfirst := hundone.dispatch (by decide +kernel)
    (reversible_senderInput 5 (by decide +kernel) (by decide +kernel))
  have hrun : Journaled (fun _ => sender) {} 1 (Reversible (fun _ => sender) {} 1) replayedLate :=
    hfirst.dispatch (by decide +kernel) (reversible_senderInput 10 (by decide +kernel) (by decide +kernel))
  exact ⟨by decide +kernel, ((counters_of_survivors hrun (by decide +kernel)).2 false).1⟩

end WarpSim

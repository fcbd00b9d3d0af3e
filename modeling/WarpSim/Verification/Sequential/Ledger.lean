import WarpSim.Verification.Sequential.Logs
import WarpSim.Verification.Sequential.Turns

/-! # The ledger of an LP

What an LP has sent and not cancelled is what it sent in the turns whose records are in place. Rollbacks keep
this: they cancel the sends of the turns that they undo, and no others. -/

namespace WarpSim

variable {Q : EventQueue} {σ : Type} {model : Model σ} {cfg : SimulationConfig}

open Prog Simulation

variable {i : LPId} {ι β : Type} [DecidableEq ι] {mode : SnapshotMode (model i) ι β} {start : σ} {turns : List Turn}

/-- The turns have led the LP from the state to where it is; their records are in place, and of its sends
those of the start and of the turns are outstanding. -/
structure SnapshotMode.Ledger (mode : SnapshotMode (model i) ι β) (start : σ) (turns : List Turn)
    (s : Simulation Q σ) : Prop where
  valid : mode.parts.Valid start
  trail : Trail (mode.Takes i) start turns (s.ctx i).lp
  records : turns.map (·.record) = (s.ctx i).kept
  sends : outstanding i s.hist.sends = starts i s.hist.sends ++ turns.flatMap (·.sends)

/-- What a rollback of the LP to the target relies on. -/
structure Rollable (i : LPId) (target : TimeStamp) (s : Simulation Q σ) : Prop where
  positive : ⟨0, 0⟩ < target
  fossils : ∀ rec ∈ (s.ctx i).fossils, rec.ev.ts < target
  sorted : (s.ctx i).processed.Pairwise fun a b => a.ev.ts ≤ b.ev.ts
  log : ∃ gone, (outstanding i s.hist.sends).map (·.entry i) = gone ++ (s.ctx i).sentLog ∧
    ∀ sent ∈ gone, sent.sendTime < target

namespace SnapshotMode.Ledger

variable {s t : Simulation Q σ}

theorem keep (h : mode.Ledger start turns s) (hlp : (t.ctx i).lp = (s.ctx i).lp)
    (hkept : (t.ctx i).kept = (s.ctx i).kept) (hsends : t.hist.sends = s.hist.sends) : mode.Ledger start turns t :=
  ⟨h.valid, hlp ▸ h.trail, h.records.trans hkept.symm, by rw [hsends, h.sends]⟩

/-- The sends of a turn were made at its time. -/
theorem execTs (h : mode.Ledger start turns s) {turn : Turn} (hturn : turn ∈ turns) :
    ∀ r ∈ turn.sends, r.execTs i = turn.record.ev.ts := by
  intro r hr
  obtain ⟨y, z, hmade⟩ := h.trail.exists_of_mem hturn
  simp [SendRecord.execTs, hmade.1.cause r hr]

theorem starts_execTs (i : LPId) (sends : List SendRecord) : ∀ r ∈ starts i sends, r.execTs i = ⟨0, 0⟩ := by
  intro r hr
  have hstart : r.cause.isStart ∧ r.Mine i := by simpa using (List.mem_filter.mp hr).2
  unfold SendRecord.execTs
  split
  · next id execTs hcause =>
    rw [hcause] at hstart
    simp [SendCause.isStart] at hstart
  · rfl

/-- Other LPs roll back without touching what this one has sent. -/
theorem others {id : LPId} {target : TimeStamp} {more : List SendRecord} (h : mode.Ledger start turns s)
    (hback : RolledBack model cfg id target s t more) (hi : i ≠ id) : mode.Ledger start turns t := by
  have hcause : ∀ r ∈ more, r.cause = .rollback id := fun r hr => (hback.cause r hr).1
  have hctx := hback.others i hi
  refine ⟨h.valid, by rw [hctx]; exact h.trail, by rw [hctx]; exact h.records, ?_⟩
  have hnone : more.filter (·.Mine i) = [] := by
    refine List.filter_eq_nil_iff.mpr fun r hr hmine => ?_
    have hpos : r.Mine i := by simpa using hmine
    obtain ⟨hcause, hplain⟩ := hback.cause r hr
    have hasked : r.asked ∈ (cancelledSends target (s.ctx id).sentLog).map (antiOf id) :=
      hback.asked ▸ List.mem_map_of_mem hr
    obtain ⟨sent, -, hsent⟩ := List.mem_map.mp hasked
    have hanti : r.ev.isAnti = true := by rw [hplain.frame, ← hsent]; rfl
    exact absurd (hanti.symm.trans hpos.2) (by simp)
  have hstarts : starts i more = [] := starts_eq_nil fun r hr => by rw [hcause r hr]; rfl
  rw [hback.sends, outstanding_sent fun r hr => by rw [hcause r hr]; simp [Ne.symm hi], hnone, List.append_nil,
    starts_append, hstarts, List.append_nil]
  exact h.sends

/-- A rollback of the LP undoes the last turns, and cancels what has been sent in them. -/
theorem rolledBack {target : TimeStamp} {more : List SendRecord} (h : mode.Ledger start turns s)
    (hback : RolledBack model cfg i target s t more) (hs : Rollable i target s) :
    ∃ before, before <+: turns ∧ mode.Ledger start before t := by
  have hall : (s.ctx i).kept =
      (s.ctx i).fossils ++ keptRecords target (s.ctx i).processed ++ undoneRecords target (s.ctx i).processed := by
    rw [List.append_assoc, keptRecords_append_undoneRecords]
    rfl
  obtain ⟨before, after, hturns, hbefore, hafter⟩ := List.map_eq_append_iff.mp (h.records.trans hall)
  subst hturns
  obtain ⟨y, hled, hundone⟩ := Trail.append_iff.mp h.trail
  refine ⟨before, List.prefix_append _ _, h.valid, ?_, ?_, ?_⟩
  · have hrecords : Trail mode.Undoes y (undoneRecords target (s.ctx i).processed) (s.ctx i).lp := by
      rw [← hafter]
      exact hundone.map fun _ _ _ hr => hr.2
    have hy : mode.parts.Valid y := hled.preserves (fun _ _ _ hr => hr.2.valid) h.valid
    rw [hback.work.lp, rewind_lp, restoreState_undoes hrecords hy]
    exact hled
  · rw [hbefore]
    have hkept := hback.work.books.kept
    rw [hkept, LPContext.rewind_eq]
    rfl
  · -- the log has lost nothing that was sent at or after the target
    obtain ⟨gone, hgone, hlost⟩ := hs.log
    have hsends := h.sends
    rw [List.flatMap_append, ← List.append_assoc] at hsends
    rw [hsends, List.map_append] at hgone
    have hlater : ∀ r ∈ after.flatMap (·.sends), target ≤ r.execTs i := by
      intro r hr
      obtain ⟨turn, hturn, hr⟩ := List.mem_flatMap.mp hr
      rw [h.execTs (List.mem_append_right _ hturn) r hr]
      exact undoneRecords_ge _ (hafter ▸ List.mem_map_of_mem hturn)
    have hearlier : ∀ r ∈ starts i s.hist.sends ++ before.flatMap (·.sends), r.execTs i < target := by
      intro r hr
      rcases List.mem_append.mp hr with hr | hr
      · rw [starts_execTs i _ r hr]
        exact hs.positive
      · obtain ⟨turn, hturn, hr⟩ := List.mem_flatMap.mp hr
        rw [h.execTs (List.mem_append_left _ hturn) r hr]
        have hrec : turn.record ∈ (s.ctx i).fossils ++ keptRecords target (s.ctx i).processed :=
          hbefore ▸ List.mem_map_of_mem hturn
        rcases List.mem_append.mp hrec with hrec | hrec
        · exact hs.fossils _ hrec
        · exact keptRecords_lt hs.sorted _ hrec
    have hscan : (s.ctx i).sentLog.rtakeWhile (fun sent => ¬ sent.sendTime < target) =
        (after.flatMap (·.sends)).map (·.entry i) := by
      refine List.rtakeWhile_of_append hgone (fun sent hsent => ?_) (fun sent hsent => ?_) fun sent hsent => ?_
      · simpa using hlost sent hsent
      · obtain ⟨r, hr, rfl⟩ := List.mem_map.mp hsent
        have hlt : (r.entry i).sendTime < target := hearlier r hr
        simpa using hlt
      · obtain ⟨r, hr, rfl⟩ := List.mem_map.mp hsent
        have hle : target ≤ (r.entry i).sendTime := hlater r hr
        simpa using hle
    have hout : outstanding i (s.hist.sends ++ more) = starts i s.hist.sends ++ before.flatMap (·.sends) := by
      refine outstanding_annulled hback.asked (fun r hr => (hback.cause r hr).1) hsends ?_
      rw [cancelledSends_eq, List.reverse_reverse, hscan]
    have hstarts : starts i more = [] := starts_eq_nil fun r hr => by rw [(hback.cause r hr).1]; rfl
    rw [hback.sends, hout, starts_append, hstarts, List.append_nil]

end SnapshotMode.Ledger

end WarpSim

import WarpSim.Verification.Rollback.Pairing
import WarpSim.Verification.UnderWay

/-! # What the logs have lost

While a run is under way, the log of an LP has lost only entries from before GVT, and an event of the LP that
is no longer outstanding has been cancelled by an anti-message. -/

namespace WarpSim

variable {Q : EventQueue} {σ : Type} {sound final : Prop} {model : Model σ} {cfg : SimulationConfig}

open Simulation

/-! ## Cancelled events -/

theorem mem_withdraw {i : LPId} {anti : Event} {sends : List SendRecord} {r : SendRecord} (hr : r ∈ sends)
    (hother : antiOf i (r.entry i) ≠ anti) : r ∈ withdraw i anti sends := by
  unfold withdraw
  rw [List.mem_reverse, List.mem_eraseP_of_neg (by simpa using hother), List.mem_reverse]
  exact hr

/-- An event of the LP is outstanding, or a rollback has sent an anti-message for it. -/
theorem outstanding_or_annulled {i : LPId} {sends : List SendRecord} {r : SendRecord} (hr : r ∈ sends)
    (hmine : r.Mine i) (hcause : r.cause ≠ .rollback i) :
    r ∈ outstanding i sends ∨ ∃ anti ∈ sends, anti.cause = .rollback i ∧ anti.asked = antiOf i (r.entry i) := by
  induction sends using List.reverseRecOn with
  | nil => cases hr
  | append_singleton sends q ih =>
      rw [outstanding_append, account]
      rcases List.mem_append.mp hr with hr | hr
      · rcases ih hr with hout | ⟨anti, hanti, hundoes, hasked⟩
        · by_cases hq : q.cause = .rollback i
          · rw [if_pos hq]
            by_cases hasked : antiOf i (r.entry i) = q.asked
            · exact Or.inr ⟨q, by simp, hq, hasked.symm⟩
            · exact Or.inl (mem_withdraw hout hasked)
          · rw [if_neg hq]
            split
            · exact Or.inl (List.mem_append_left _ hout)
            · exact Or.inl hout
        · exact Or.inr ⟨anti, List.mem_append_left _ hanti, hundoes, hasked⟩
      · obtain rfl := List.mem_singleton.mp hr
        have hcond : r.ev.src = i ∧ r.ev.isAnti = false := hmine
        rw [if_neg hcause, if_pos hcond]
        exact Or.inl (by simp)

/-! ## The sends of a run -/

/-- The log lacks only entries of outstanding events from before GVT. -/
def LogFrom (i : LPId) (s : Simulation Q σ) : Prop :=
  ∃ gone, (outstanding i s.hist.sends).map (·.entry i) = gone ++ (s.ctx i).sentLog ∧
    ∀ sent ∈ gone, sent.sendTime < s.lastGvt

/-- What the kernel sends is what it has been asked for, and the logs have lost nothing that is needed. -/
structure SendsInv (s : Simulation Q σ) : Prop where
  framed : ∀ r ∈ s.hist.sends, r.ev.src = r.asked.src ∧ r.ev.isAnti = r.asked.isAnti ∧
    (r.asked.uid ≠ 0 → r.ev.uid = r.asked.uid)
  undoing : ∀ r ∈ s.hist.sends, ∀ i, r.cause = .rollback i → ∃ sent : SentRecord, sent.uid ≠ 0 ∧ r.asked = antiOf i sent
  logs : ∀ i, LogFrom i s

theorem Move.logFrom {x y : Situation Q σ} (hm : Move model cfg x y) (hb : BooksInv x) (hlog : SentLogInv cfg x)
    (hnew : ∀ r, y.state.hist.sends = x.state.hist.sends ++ [r] → r.Positive → r.ev.src ∈ x.state.lpIds)
    {i : LPId} (h : LogFrom i x.state) : LogFrom i y.state := by
  obtain ⟨gone, hgone, hbefore⟩ := h
  unfold LogFrom
  rw [hm.lastGvt_eq]
  cases hm.logStep hb i with
  | same hsends hsent => exact ⟨gone, by rw [hsends, hsent, hgone], hbefore⟩
  | registered hsends hi hsent =>
      rw [hlog.fresh i hi] at hgone
      exact ⟨gone, by rw [hsends, hsent, hgone], hbefore⟩
  | sent r hsends hcause hsrc hpos _ _ hsent =>
      refine ⟨gone, ?_, hbefore⟩
      rw [hsends, hsent, outstanding_append, account, if_neg hcause, if_pos ⟨hsrc, hpos⟩, List.map_append, hgone,
        List.append_assoc]
      rfl
  | other r hsends hcause hother hsent =>
      have hnot : ¬ (r.ev.src = i ∧ r.ev.isAnti = false) := by
        rintro ⟨hsrc, hpos⟩
        exact hother hsrc hpos (hsrc ▸ hnew r hsends hpos)
      refine ⟨gone, ?_, hbefore⟩
      rw [hsends, hsent, outstanding_append, account, if_neg hcause, if_neg hnot, hgone]
  | annulled r sent rest hsends hcause hasked howed hsent =>
      obtain ⟨front, p, hout, hp, -⟩ := hlog.last_outstanding howed
      obtain ⟨id, log, howes, pre, hpre⟩ := hlog.owes
      rw [howed] at howes
      cases log with
      | nil => cases howes
      | cons head tail =>
          obtain ⟨hhead, -⟩ := List.cons.inj howes
          cases hhead
          rw [List.reverse_cons, ← List.append_assoc] at hpre
          refine ⟨gone, ?_, hbefore⟩
          rw [hout, List.map_append, ← hpre, ← List.append_assoc] at hgone
          obtain ⟨hfront, -⟩ := List.append_inj' hgone (by simp)
          rw [hsends, hsent, outstanding_append, account, if_pos hcause, hasked, ← hp, hout, withdraw_last, ← hpre,
            List.dropLast_concat, hfront]

theorem GvtMove.logFrom {x y : Situation Q σ} (hm : GvtMove sound False cfg x y) {i : LPId}
    (h : LogFrom i x.state) : LogFrom i y.state := by
  have hprune : ∀ (s : Simulation Q σ) (gvt : TimeStamp), LogFrom i s → s.lastGvt ≤ gvt →
      ∃ gone, (outstanding i s.hist.sends).map (·.entry i) = gone ++ ((pruneToGvt cfg gvt s).ctx i).sentLog ∧
        ∀ sent ∈ gone, sent.sendTime < gvt := by
    intro s gvt ⟨gone, hgone, hbefore⟩ hle
    rcases prune_ctx_cases cfg gvt s i with ⟨-, hctx⟩ | ⟨-, hctx⟩
    · refine ⟨gone ++ (s.ctx i).sentLog.takeWhile fun sent => sent.sendTime < gvt, ?_, fun sent hsent => ?_⟩
      · rw [hctx, hgone, List.append_assoc]
        exact congrArg (gone ++ ·) List.takeWhile_append_dropWhile.symm
      · rcases List.mem_append.mp hsent with hsent | hsent
        · exact (hbefore sent hsent).trans_le hle
        · simpa using List.mem_takeWhile_imp hsent
    · exact ⟨gone, by rw [hctx, hgone], fun sent hsent => (hbefore sent hsent).trans_le hle⟩
  cases hm with
  | @advance s gvt _ hle =>
      obtain ⟨gone, hgone, hbefore⟩ := hprune s gvt h hle
      exact ⟨gone, hgone, hbefore⟩
  | @prune s => exact hprune s s.lastGvt h (le_refl _)
  | flush hfinal => exact hfinal.elim
  | flip => exact h
  | reset => exact h

theorem Move.sendsInv {x y : Situation Q σ} (hm : Move model cfg x y) (hb : BooksInv x) (hlog : SentLogInv cfg x)
    (hseed : SeedInv x) (h : SendsInv x.state) (hw : y.state.hist.wrapped = false)
    (huids : UidsOpen y.state.hist.sends) : SendsInv y.state := by
  have hnew : ∀ r, y.state.hist.sends = x.state.hist.sends ++ [r] → NewSend cfg x y r :=
    fun r hr => hm.newSend hseed hw hr
  have hlogs : ∀ i, LogFrom i y.state := fun i => hm.logFrom hb hlog (fun r hr hpos => by
    have huid := huids r (by simp [hr]) hpos
    rw [(hnew r hr).src]
    exact ((hnew r hr).auto huid).1) (h.logs i)
  rcases (hm.counterStep 0).sends_cases with hsends | ⟨r, hsends⟩
  · exact ⟨hsends ▸ h.framed, hsends ▸ h.undoing, hlogs⟩
  · have hother : y.state.hist.sends ≠ x.state.hist.sends := by simp [hsends]
    refine ⟨fun q hq => ?_, fun q hq i hi => ?_, hlogs⟩
    · rw [hsends] at hq
      rcases List.mem_append.mp hq with hq | hq
      · exact h.framed q hq
      · obtain rfl := List.mem_singleton.mp hq
        exact ⟨(hnew q hsends).src, (hnew q hsends).isAnti, (hnew q hsends).given⟩
    · rw [hsends] at hq
      rcases List.mem_append.mp hq with hq | hq
      · exact h.undoing q hq i hi
      · obtain rfl := List.mem_singleton.mp hq
        cases hm.logStep hb i with
        | same heq => exact absurd heq hother
        | registered heq => exact absurd heq hother
        | sent r' heq hne =>
            rw [hsends, List.append_cancel_left_eq, List.singleton_inj] at heq
            exact absurd (heq ▸ hi) hne
        | other r' heq hne =>
            rw [hsends, List.append_cancel_left_eq, List.singleton_inj] at heq
            exact absurd (heq ▸ hi) hne
        | annulled r' sent owed heq _ hasked howed =>
            rw [hsends, List.append_cancel_left_eq, List.singleton_inj] at heq
            obtain ⟨-, -, -, -, hannul⟩ := hlog.last_outstanding howed
            exact ⟨sent, hannul.uid, heq ▸ hasked⟩

theorem sendsInv_create : SendsInv (Simulation.create Q model) :=
  ⟨by simp [Simulation.create], by simp [Simulation.create], fun _ => ⟨[], rfl, by simp⟩⟩

theorem AllMoves.sendsInv {x y : Situation Q σ} (h : AllMoves sound False model cfg x y) (hb : BooksInv x)
    (hlog : SentLogInv cfg x) (hseed : SeedInv x) (hx : SendsInv x.state) (hw : y.state.hist.wrapped = false)
    (huids : UidsOpen y.state.hist.sends) : SendsInv y.state := by
  induction h with
  | refl => exact hx
  | @tail y z hmoves hm ih =>
      have hext : y.state.hist.Extends z.state.hist := hm.elim Move.extends GvtMove.extends
      have hw' := hext.wrapped hw
      have hy := ih hw' fun r hr => huids r (hext.sends.subset hr)
      rcases hm with hm | hm
      · exact hm.sendsInv (AllMoves.booksInv hmoves hb) (AllMoves.sentLogInv hmoves hb hlog)
          (AllMoves.seedInv hmoves hseed hw') hy hw huids
      · have hsends := hm.logStep.2.2.1
        exact ⟨hsends ▸ hy.framed, hsends ▸ hy.undoing, fun i => hm.logFrom (hy.logs i)⟩

end WarpSim

import WarpSim.Verification.Committed
import WarpSim.Verification.Rollback.Cancelling
import WarpSim.Verification.Sequential.Output

/-! # An event and its anti-message

The kernel cannot lose an anti-message for one of its LPs. So an event with an anti-message leaves no trace, without
any word on exceptions. -/

namespace WarpSim

variable {Q : EventQueue} {σ : Type} {sound final : Prop} {model : Model σ} {cfg : SimulationConfig}

open Prog Simulation

/-! ## No anti-message is lost -/

/-- The anti-message of a log entry cannot be refused. -/
theorem SentLogInv.not_refusable {x : Situation Q σ} (h : SentLogInv cfg x) {id : LPId} {log : SentRecord}
    {owed : List (LPId × SentRecord)} (howed : x.owed = (id, log) :: owed) {what : String} :
    ¬ Refusable cfg x.state (antiOf id log) what := by
  obtain ⟨i, entries, howes, pre, hpre⟩ := h.owes
  rw [howed] at howes
  cases entries with
  | nil => cases howes
  | cons head rest =>
      obtain ⟨hhead, -⟩ := List.cons.inj howes
      cases hhead
      have hmem : log ∈ (x.state.ctx id).sentLog := by simp [← hpre]
      have hid : id ∈ x.state.lpIds := by
        by_contra hid
        rw [h.fresh id hid] at hmem
        cases hmem
      have hannul := h.loggable id log hmem
      intro hrefuse
      rcases hrefuse.untargeted rfl with huid | ⟨hseq, hcause⟩
      · exact hannul.uid huid
      · exact hcause.elim (fun hnew => hnew hid) fun hcontrol => hannul.sequence hcontrol hseq

/-- What a move loses is a positive event, or an event for an LP that does not exist. -/
theorem Move.lost_mem {x y : Situation Q σ} (hm : Move model cfg x y) (hx : SentLogInv cfg x) :
    ∀ ev ∈ y.state.hist.lost, ev ∈ x.state.hist.lost ∨ ev.isAnti = false ∨ ev.dst ∉ x.state.lpIds := by
  have hsame : y.state.hist.lost = x.state.hist.lost →
      ∀ ev ∈ y.state.hist.lost, ev ∈ x.state.hist.lost ∨ ev.isAnti = false ∨ ev.dst ∉ x.state.lpIds :=
    fun heq ev hev => Or.inl (heq ▸ hev)
  cases hm with
  | quiet hq => exact hsame (by rw [hq])
  | receive => exact hsame (by rw [receiveEvent_eq])
  | acknowledge => exact hsame (by rw [receiveAck_eq])
  | sent => exact hsame (by rw [posted_eq]; rfl)
  | unlogged => exact hsame (by rw [posted_eq]; rfl)
  | annul => exact hsame (by rw [posted_eq]; rfl)
  | straggle => exact hsame (by rw [unwound_eq])
  | matched => exact hsame (by rw [unwound_eq])
  | release => exact hsame (by rw [released_eq]; rfl)
  | stuck _ hrefuse => exact absurd hrefuse (hx.not_refusable rfl)
  | @lose s lost hcause =>
      intro ev hev
      rcases List.mem_append.mp hev with hev | hev
      · exact Or.inl hev
      · exact Or.inr (List.mem_singleton.mp hev ▸ hcause)
  | _ => exact hsame rfl

/-- From when an LP exists, none of its anti-messages is lost. -/
theorem AllMoves.antis_found {x y : Situation Q σ} (h : AllMoves sound final model cfg x y) (hbooks : BooksInv x)
    (hlog : SentLogInv cfg x) {anti : Event} (hanti : anti.isAnti = true) (hdst : anti.dst ∈ x.state.lpIds)
    (hx : anti ∉ x.state.hist.lost) : anti ∉ y.state.hist.lost ∧ anti.dst ∈ y.state.lpIds := by
  induction h with
  | refl => exact ⟨hx, hdst⟩
  | @tail y z hxy hm ih =>
      obtain ⟨hfound, hmem⟩ := ih
      rcases hm with hm | hm
      · refine ⟨fun hlost => ?_, hm.lpIds_subset hmem⟩
        rcases hm.lost_mem (AllMoves.sentLogInv hxy hbooks hlog) anti hlost with hlost | hpos | hnew
        · exact hfound hlost
        · rw [hanti] at hpos
          cases hpos
        · exact hnew hmem
      · cases hm <;> exact ⟨hfound, hmem⟩

/-! ## Cancelled events -/

/-- What has been lost has come in. -/
theorem Reachable.entered_of_lost {allowed : Simulation Q σ → HostOp → Prop} {s : Simulation Q σ}
    (h : Reachable model cfg allowed s) {ev : Event} (hlost : ev ∈ s.hist.lost) : ev ∈ s.entered cfg := by
  have hmoves : AllMoves False True model cfg (Simulation.create Q model).atRest s.atRest :=
    h.moves fun hfalse => hfalse.elim
  have hmem : ev ∈ s.atRest.state.entered cfg := WarpSim.entered_of_lost hmoves.present_eq hlost
  exact hmem

theorem ProcessedRecord.executes_of_eq {rec : ProcessedRecord} {ev : Event} (h : rec.ev = ev)
    (hpositive : ev.isAnti = false) : rec.executes ev.uidKey = true := by
  simp [ProcessedRecord.executes, h, hpositive]

/-- An event and the one anti-message with its key, stamp and destination come to an LP that exists, in any order.
However often either of them is rolled back and dealt with again, the event reaches no sink, none of its outputs
does, and once nothing waits, the event is not in place. -/
theorem annulled_leaves_no_trace {allowed : Simulation Q σ → HostOp → Prop} {s₀ : Simulation Q σ} {ops : List HostOp}
    (h : Reachable model cfg allowed s₀) (hops : Obeys model cfg allowed ops s₀) (hleaves : Leaves allowed)
    (hsound : ∀ s op, allowed s op → op.SoundReduction cfg) (hoff : cfg.enableInstallBeforeUseBuffering = false)
    (ht : Timely (hostRun model cfg ops s₀).hist) {ev anti : Event} (hpositive : ev.isAnti = false)
    (hanti : anti.isAnti = true) (hkey : anti.uidKey = ev.uidKey) (hts : anti.ts = ev.ts) (hdst : anti.dst = ev.dst)
    (hexists : ev.dst ∈ s₀.lpIds) (hlater : ∀ e ∈ s₀.entered cfg, e.uidKey ≠ ev.uidKey)
    (hpair : ∀ e ∈ (hostRun model cfg ops s₀).entered cfg, e.uidKey = ev.uidKey → e = ev ∨ e = anti)
    (hsingle : ((hostRun model cfg ops s₀).entered cfg).count anti = 1) :
    let s := hostRun model cfg ops s₀
    (cfg.committedEventSink = true → ∀ call ∈ s.committedEventSinkCalls, call.ev ≠ ev) ∧
      (cfg.committedSink = true → ∀ call ∈ s.committedSinkCalls, ¬ (call.eventSrc = ev.src ∧ call.eventUid = ev.uid)) ∧
      (Q.elems s.pending = 0 → ∀ i, ∀ rec ∈ (s.ctx i).processed, rec.ev ≠ ev) := by
  intro s
  have hs : Reachable model cfg allowed s := h.hostRun hops
  have hpositive' : ev.annuls ev.uidKey = false := by simp [Event.annuls, hpositive]
  have hannuls : anti.annuls ev.uidKey = true := by simp [Event.annuls, hanti, hkey]
  -- the only anti-message with the key is the one that has come in
  have honly : ∀ e ∈ s.entered cfg, e.annuls ev.uidKey = true → e = anti := by
    intro e he heq
    refine (hpair e he (Event.annuls_key heq)).resolve_left fun hev => ?_
    rw [hev, hpositive'] at heq
    cases heq
  have hfresh : anti ∉ s₀.hist.lost := fun hlost => hlater anti (h.entered_of_lost hlost) hkey
  have hfound : anti ∉ s.hist.lost :=
    (AllMoves.antis_found (hostRun_moves h.baseInv ops) h.booksInv h.onRun.sentLogInv hanti (hdst ▸ hexists) hfresh).1
  have hcancelling : Cancelling cfg ev.uidKey ev.dst ev.ts s := by
    refine ⟨fun e he heq => ?_, ?_, fun e he => ?_⟩
    · rcases hpair e he heq with rfl | rfl
      · exact ⟨rfl, rfl⟩
      · exact ⟨hdst, hts⟩
    · have hfilter : (s.entered cfg).filter (·.annuls ev.uidKey) = (s.entered cfg).filter (· == anti) := by
        refine List.filter_congr fun e he => Bool.eq_iff_iff.mpr ⟨fun heq => ?_, fun heq => ?_⟩
        · exact beq_iff_eq.mpr (honly e he heq)
        · rw [beq_iff_eq.mp heq, hannuls]
      rw [hfilter, ← List.countP_eq_length_filter]
      exact hsingle.le
    · by_contra heq
      have heq : e.annuls ev.uidKey = true := by simpa using heq
      exact hfound (honly e (hs.entered_of_lost he) heq ▸ he)
  have hcame : anti ∈ s.entered cfg := List.count_pos_iff.mp (hsingle ▸ Nat.one_pos)
  obtain ⟨hfossils, hkept⟩ := hcancelling.apart hs hleaves hsound hoff ht hcame hannuls
  have hcovered := (hs.noDeferral hoff).covered ht
  refine ⟨fun hsink call hcall hev => ?_, fun hsink call hcall hsame => ?_, fun hempty i rec hrec hev => ?_⟩
  · obtain ⟨bound, hexact, -⟩ := (eventSink_served hsink).reachable hs hleaves hsound hcovered
    obtain ⟨⟨i, rec⟩, hitem, hmem⟩ := List.mem_flatMap.mp ((Multiset.coe_eq_coe.mp hexact).subset hcall)
    obtain rfl := List.mem_singleton.mp hmem
    have hexecutes := hfossils i rec (mem_committedItems.mp hitem).2
    rw [rec.executes_of_eq hev hpositive] at hexecutes
    cases hexecutes
  · obtain ⟨bound, hexact, -⟩ := (outputSink_served hsink).reachable hs hleaves hsound hcovered
    obtain ⟨⟨i, rec⟩, hitem, hmem⟩ := List.mem_flatMap.mp ((Multiset.coe_eq_coe.mp hexact).subset hcall)
    have hrec := (mem_committedItems.mp hitem).2
    obtain ⟨hsrc, huid⟩ := hsame
    obtain ⟨⟨out, k⟩, hout, rfl⟩ := List.mem_map.mp hmem
    have hkey' : rec.ev.uidKey = ev.uidKey := congrArg₂ UidKey.mk hsrc huid
    cases hanti' : rec.ev.isAnti with
    | false =>
        have hexecutes := hfossils i rec hrec
        simp [ProcessedRecord.executes, hanti', hkey'] at hexecutes
    | true =>
        -- an anti-message has no outputs
        have hmoves : AllMoves True True model cfg (Simulation.create Q model).atRest s.atRest := hs.moves fun _ => hsound
        have hsub := (hs.booksInv.ledger i).kept_sub (List.mem_append_left _ hrec)
        have hnone := hmoves.silent i rec hsub hanti'
        rw [hnone] at hout
        cases hout
  · have hexecutes := hkept hempty i rec (List.mem_append_right _ hrec)
    rw [rec.executes_of_eq hev hpositive] at hexecutes
    cases hexecutes

/-- The LPs of `cancelledRun`, before anything comes in. -/
def cancelledStart : Simulation sortedEventQueue ByteBuffer :=
  hostRun (fun _ => journal) {} (cancelledOps.take 2) (Simulation.create _ fun _ => journal)

theorem cancelledRun_eq : hostRun (fun _ => journal) {} (cancelledOps.drop 2) cancelledStart = cancelledRun := by
  rw [cancelledStart, ← hostRun_append, List.take_append_drop, cancelledRun]

/-- The event at 20 is executed, cancelled, and dealt with again together with its anti-message. -/
theorem annulled_leaves_no_trace_late :
    (cancelledRun.ctx 1).undone.map (fun rec => (rec.ev.ts.time, rec.ev.isAnti)) = [(20, false), (20, true)] ∧
      ∀ i, ∀ rec ∈ (cancelledRun.ctx i).processed, rec.ev ≠ cancelledAt 20 1 false := by
  have hrun : Reachable (fun _ => journal) {} (fun s _ => s.finished = false) cancelledStart :=
    Reachable.hostRun .create (by decide +kernel)
  have hempty : sortedEventQueue.elems cancelledRun.pending = 0 := by decide +kernel
  have htimely : Timely cancelledRun.hist := ⟨by decide +kernel, by decide +kernel⟩
  have hpair : ∀ e ∈ cancelledRun.entered {}, e.uidKey = (cancelledAt 20 1 false).uidKey →
      e = cancelledAt 20 1 false ∨ e = cancelledAt 20 1 true := by decide +kernel
  have hsingle : (cancelledRun.entered {}).count (cancelledAt 20 1 true) = 1 := by decide +kernel
  have hops : Obeys (fun _ => journal) {} (fun s _ => s.finished = false) (cancelledOps.drop 2) cancelledStart := by
    decide +kernel
  have hpositive : (cancelledAt 20 1 false).isAnti = false := rfl
  have hanti : (cancelledAt 20 1 true).isAnti = true := rfl
  have hall := annulled_leaves_no_trace hrun hops (fun _ _ h => h)
    (fun _ op _ => HostOp.soundReduction_of_alone rfl rfl op) rfl (cancelledRun_eq ▸ htimely) hpositive hanti rfl rfl rfl
    (by decide +kernel) (by decide +kernel) (cancelledRun_eq ▸ hpair) (cancelledRun_eq ▸ hsingle)
  dsimp only at hall
  rw [cancelledRun_eq] at hall
  exact ⟨by decide +kernel, hall.2.2 hempty⟩

end WarpSim

import WarpSim.Verification.Resting
import WarpSim.Verification.Sequential.Steps

/-! # Runs of disciplined LPs

Through all phases of a disciplined run each LP keeps a ledger: turns that have led it to its state, whose
records are in place and whose sends are outstanding. -/

namespace WarpSim

variable {Q : EventQueue} {σ : Type} {model : Model σ} {cfg : SimulationConfig}

open Prog Simulation

/-! ## What a dispatch may roll back to -/

/-- What is known of a disciplined run under way. -/
structure Progress (cfg : SimulationConfig) (s : Simulation Q σ) : Prop where
  books : BooksInv s.atRest
  base : BaseInv s.atRest
  bound : BoundInv s.atRest
  logs : SentLogInv cfg s.atRest
  sends : SendsInv s
  pairing : PairingInv cfg s.atRest
  present : ∀ ev, s.atRest.present ev = (s.entered cfg).count ev
  going : s.finished = false

theorem UnderWay.progress {s : Simulation Q σ} (h : UnderWay model cfg (Simulation.create Q model) s)
    (ht : Covered s.hist) (hd : Disciplined s.hist) : Progress cfg s := by
  have hmoves := h.moves baseInv_create
  exact ⟨AllMoves.booksInv hmoves booksInv_create, AllMoves.baseInv hmoves baseInv_create,
    AllMoves.boundInv hmoves booksInv_create boundInv_create ht,
    AllMoves.sentLogInv hmoves booksInv_create sentLogInv_create,
    AllMoves.sendsInv hmoves booksInv_create sentLogInv_create seedInv_create sendsInv_create hd.wrapped hd.uids,
    AllMoves.pairingInv hmoves booksInv_create sentLogInv_create seedInv_create pairingInv_create hd.wrapped hd.uids,
    AllMoves.present_eq hmoves, AllMoves.finished_eq hmoves⟩

theorem TimeStamp.zero_lt_of_sequence {ts : TimeStamp} (h : ts.sequence ≠ 0) : ⟨0, 0⟩ < ts := by
  rw [TimeStamp.lt_iff_key]
  have hne : ts.sequence.toNat ≠ 0 := fun hzero => h (UInt64.toNat_inj.mp (by simpa using hzero))
  simp only [TimeStamp.key, UInt64.toNat_zero]
  omega

/-- In a disciplined run only rollbacks send anti-messages. -/
theorem SendRecord.Disciplined.undoes {r : SendRecord} (h : r.Disciplined) (hanti : r.ev.isAnti = true) : r.Undoes := by
  unfold SendRecord.Disciplined at h
  split at h
  · exact absurd (hanti.symm.trans h) (by simp)
  · exact absurd (hanti.symm.trans h.1) (by simp)
  · exact ⟨_, by assumption⟩
  · exact h.elim

namespace Progress

variable {s : Simulation Q σ} (h : Progress cfg s) (hd : Disciplined s.hist)

include h hd

/-- No event comes in for the first of all stamps. -/
theorem entered_positive {ev : Event} (hev : ev ∈ s.entered cfg) : ⟨0, 0⟩ < ev.ts := by
  have hpos : ∀ r ∈ s.hist.sends, r.Positive → ⟨0, 0⟩ < r.ev.ts := fun r hr hpos =>
    TimeStamp.zero_lt_of_sequence (h.pairing.numbered.sequence r hr hpos)
  rcases List.mem_append.mp hev with hev | hev
  · obtain ⟨d, hmem, rfl⟩ := List.mem_map.mp hev
    exact (hd.delivered d hmem).2
  · obtain ⟨r, hr, rfl⟩ := List.mem_map.mp hev
    have hmem := (List.mem_filter.mp hr).1
    by_cases hanti : r.ev.isAnti = true
    · obtain ⟨i, hcause⟩ := (hd.sends r hmem).undoes hanti
      obtain ⟨p, hp, hcancels⟩ := h.pairing.paired.partner hmem hcause
      rw [hcancels.ts]
      exact hpos p hp hcancels.positive
    · exact hpos r hmem (by simpa [SendRecord.Positive] using hanti)

theorem pending_positive {ev : Event} (hev : ev ∈ Q.elems s.pending) : ⟨0, 0⟩ < ev.ts :=
  h.entered_positive hd (entered_of_pending h.present hev)

theorem processed_positive {i : LPId} {rec : ProcessedRecord} (hrec : rec ∈ (s.ctx i).processed) :
    ⟨0, 0⟩ < rec.ev.ts :=
  h.entered_positive hd (entered_of_kept h.present h.books (List.mem_append_right _ hrec))

omit hd in
theorem rollable {i : LPId} {target : TimeStamp} (hpos : ⟨0, 0⟩ < target) (hle : s.lastGvt ≤ target) :
    Rollable i target s := by
  obtain ⟨gone, hgone, hbefore⟩ := h.sends.logs i
  exact ⟨hpos, fun rec hrec => (h.bound.committed h.going i rec hrec).trans_le hle, (h.books.context i).sorted,
    gone, hgone, fun sent hsent => (hbefore sent hsent).trans_le hle⟩

end Progress

/-! ## The start -/

theorem keeps_started (cfg : SimulationConfig) (sends : List SendRecord) :
    (∀ id starter, Keeps (fun s : Simulation Q σ => ∃ more, s.hist.sends = sends ++ more ∧
      ∀ r ∈ more, r.cause.isStart) (runStarter cfg id starter)) := by
  intro id starter
  induction starter with
  | done state => exact keeps_modify fun s h => h
  | throw state what => exact keeps_bind (keeps_modify fun s h => h) fun _ => keeps_throw _
  | send asked next ih =>
      refine keeps_observe_bind (fun s ⟨more, hsends, hmore⟩ => ?_) fun r => ih _
      obtain ⟨noted, hnoted, hcause, -⟩ := send_noted cfg (.start id) asked s
      refine ⟨more ++ noted, by rw [hnoted, hsends, List.append_assoc], fun r hr => ?_⟩
      rcases List.mem_append.mp hr with hr | hr
      · exact hmore r hr
      · rw [(hcause r hr).1]
        rfl

theorem startAll_sends (model : Model σ) (cfg : SimulationConfig) (ids : List LPId) (s : Simulation Q σ) :
    ∃ more, (exec (startAll model cfg ids) s).2.hist.sends = s.hist.sends ++ more ∧ ∀ r ∈ more, r.cause.isStart := by
  have hkeeps : ∀ sends, Keeps (fun s : Simulation Q σ => ∃ more, s.hist.sends = sends ++ more ∧
      ∀ r ∈ more, r.cause.isStart) (startAll model cfg ids) := by
    intro sends
    induction ids with
    | nil => exact keeps_pure _
    | cons id rest ih => exact keeps_get_bind fun s => keeps_bind (keeps_started cfg sends id _) fun _ => ih
  exact hkeeps s.hist.sends s ⟨[], by simp, by simp⟩

/-! ## The other phases -/

/-- Nothing has been sent, or a directory has been notified. -/
theorem restClosed_sends (sends : List SendRecord) :
    RestClosed model cfg fun s : Simulation Q σ => s.hist.sends = sends ∨ ∃ r ∈ s.hist.sends, r.cause = .notification where
  quiet hq h := by
    rw [hq]
    exact h
  receive srcRank ev h := by
    rw [receiveEvent_eq]
    exact h
  acknowledge key h := by
    rw [receiveAck_eq]
    exact h
  arrive _ h := h
  migrate _ h := h
  misplace _ h := h
  notify {s} asked _ h := by
    obtain ⟨more, hsends, hcause, -⟩ := send_noted cfg .notification asked s
    rw [hsends]
    rcases h with h | ⟨r, hr, hnote⟩
    · cases more with
      | nil => exact Or.inl (by rw [h, List.append_nil])
      | cons r more => exact Or.inr ⟨r, by simp, (hcause r (by simp)).1⟩
    · exact Or.inr ⟨r, List.mem_append_left _ hr, hnote⟩
  peek h := h
  advance _ h := h
  prune h := h
  flip h := h
  reset h := h
  finish h := h

/-! ## Ledgers through a run -/

section

variable {i : LPId} {ι β : Type} [DecidableEq ι] {mode : SnapshotMode (model i) ι β} {Admits : Event → Prop}

/-- Until the LPs are started the LP is as constructed, and it has a ledger. -/
structure AccountInv (mode : SnapshotMode (model i) ι β) (s : Simulation Q σ) : Prop where
  unstarted : s.started = false → (s.ctx i).lp = (model i).init
  ledger : ∃ start turns, (model i).Begins start ∧ mode.Ledger start turns s

theorem AccountInv.keep {s t : Simulation Q σ} (h : AccountInv mode s) (hlp : (t.ctx i).lp = (s.ctx i).lp)
    (hkept : (t.ctx i).kept = (s.ctx i).kept) (hsends : t.hist.sends = s.hist.sends)
    (hstarted : s.started = true → t.started = true) : AccountInv mode t := by
  obtain ⟨start, turns, hbegins, hledger⟩ := h.ledger
  refine ⟨fun ht => ?_, start, turns, hbegins, hledger.keep hlp hkept hsends⟩
  rw [hlp]
  refine h.unstarted (Bool.eq_false_iff.mpr fun hs => ?_)
  exact absurd (ht.symm.trans (hstarted hs)) (by simp)

theorem AccountInv.start {s : Simulation Q σ} (h : AccountInv mode s) (hkeeps : mode.Kept Admits)
    (hids : s.lpIds.Nodup) (hbooks : BooksInv s.atRest) (hbase : BaseInv s.atRest) : AccountInv mode (Phase.start.after model cfg s) := by
  have hframe : RestFrame (s.ctx i) ((Phase.start.after model cfg s).ctx i) :=
    Phase.after_restFrame (fun h => by cases h) hbooks hbase (show Phase.Ready s .start from trivial) i
  have hstarted : (Phase.start.after model cfg s).started = true := (startIfNeeded_moves model cfg hbase).2
  cases hs : s.started with
  | true =>
      have hsame : Phase.start.after model cfg s = s := by
        change (exec (startIfNeeded model cfg) s).2 = s
        unfold startIfNeeded
        rw [exec_get_bind, exec_ite, if_pos hs]
        rfl
      rwa [hsame]
  | false =>
      refine ⟨fun hnot => absurd (hnot.symm.trans hstarted) (by simp), ?_⟩
      have hlp := startAll_lp model cfg hids i { s with started := true }
      obtain ⟨more, hsends, hmore⟩ := startAll_sends model cfg s.lpIds { s with started := true }
      have hafter : Phase.start.after model cfg s =
          (exec (startAll model cfg s.lpIds) { s with started := true }).2 := by
        change (exec (startIfNeeded model cfg) s).2 = _
        unfold startIfNeeded
        rw [exec_get_bind, exec_ite, if_neg (by simp [hs]), exec_modify_bind]
      rw [← hafter] at hlp hsends
      dsimp only at hlp hsends
      rw [h.unstarted hs] at hlp
      have hnone : (s.ctx i).kept = [] := by
        have hperm := (hbooks.ledger i).balanced
        rw [(hbase.started hs).2.2 i] at hperm
        exact (List.append_eq_nil_iff.mp hperm.nil_eq.symm).2
      have hbegins : (model i).Begins ((Phase.start.after model cfg s).ctx i).lp := by
        rcases hlp with hlp | ⟨-, hends⟩
        · rw [hlp]
          exact .constructed
        · exact .started hends
      obtain ⟨start, turns, -, hledger⟩ := h.ledger
      have hturns : turns = [] := List.map_eq_nil_iff.mp (hledger.records.trans hnone)
      refine ⟨_, [], hbegins, hkeeps.begins _ hbegins, .nil, ?_, ?_⟩
      · rw [hframe.kept, hnone]
        rfl
      · have hmine : starts i more = more.filter (·.Mine i) := by
          refine List.filter_congr fun r hr => ?_
          simp [hmore r hr]
        have hcause : ∀ r ∈ more, r.cause ≠ .rollback i := by
          intro r hr heq
          have hstart := hmore r hr
          rw [heq] at hstart
          cases hstart
        rw [hsends, outstanding_sent hcause, starts_append, hmine, hledger.sends, hturns]
        simp

/-- The phase neither sets an LP up nor starts the LPs. -/
def Phase.Driven : Phase → Prop
  | .addLp _ => False
  | .start => False
  | _ => True

/-- Once LPs are set up and started, each phase keeps the ledger of the LP, and only dispatching changes it. -/
theorem SnapshotMode.Ledger.after {p : Phase} {s : Simulation Q σ} {start : σ} {turns : List Turn}
    (h : mode.Ledger start turns s) (hkeeps : mode.Kept Admits) (hadmits : ∀ ev ∈ s.entered cfg, ev.dst = i → Admits ev)
    (hoff : cfg.enableInstallBeforeUseBuffering = false) (hdriven : p.Driven) (hp : p.Ready s) (hs : Progress cfg s)
    (hd : Disciplined s.hist) (hd' : Disciplined (p.after model cfg s).hist) :
    (∃ turns', mode.Ledger start turns' (p.after model cfg s)) ∧
      (p ≠ .dispatch → ((p.after model cfg s).ctx i).lp = (s.ctx i).lp) := by
  have hsame : ((p.after model cfg s).ctx i).lp = (s.ctx i).lp → ((p.after model cfg s).ctx i).kept = (s.ctx i).kept →
      (p.after model cfg s).hist.sends = s.hist.sends →
      (∃ turns', mode.Ledger start turns' (p.after model cfg s)) ∧
        (p ≠ .dispatch → ((p.after model cfg s).ctx i).lp = (s.ctx i).lp) := fun hlp hkept hsends =>
    ⟨⟨turns, h.keep hlp hkept hsends⟩, fun _ => hlp⟩
  have hrest : p.IsRest → (∃ turns', mode.Ledger start turns' (p.after model cfg s)) ∧
      (p ≠ .dispatch → ((p.after model cfg s).ctx i).lp = (s.ctx i).lp) := by
    intro hrest
    have hne : p ≠ .dispatch := by
      rintro rfl
      exact hrest
    have hrests : Rests i (s.ctx i).lp (p.after model cfg s) :=
      (restClosed_rests i (s.ctx i).lp).after hrest (Or.inr rfl)
    have hclosed : RestClosed model cfg _ := restClosed_sends (Q := Q) s.hist.sends
    have hsends := hclosed.after hrest (Or.inl rfl)
    refine hsame ?_ (Phase.after_restFrame hne hs.books hs.base hp i).kept ?_
    · exact hrests.resolve_left fun ⟨step, hstep, hinto⟩ => hd'.migrations step hstep i hinto
    · refine hsends.resolve_right fun ⟨r, hr, hnote⟩ => ?_
      have hr' := hd'.sends r hr
      unfold SendRecord.Disciplined at hr'
      rwa [hnote] at hr'
  cases p with
  | addLp id => exact hdriven.elim
  | start => exact hdriven.elim
  | schedule ev => exact hsame rfl rfl rfl
  | send ev =>
      have hwork := (send_frame cfg .host ev s).work i
      obtain ⟨more, hsends, hcause, -⟩ := send_noted cfg .host ev s
      have hafter : (Phase.send ev).after model cfg s = (exec (WarpSim.send .host cfg ev) s).2 :=
        exec_bind_pure_state ..
      rw [hafter] at hd' hsame ⊢
      have hnone : more = [] := by
        refine List.eq_nil_iff_forall_not_mem.mpr fun r hr => ?_
        have hr' := hd'.sends r (hsends ▸ List.mem_append_right _ hr)
        unfold SendRecord.Disciplined at hr'
        rwa [(hcause r hr).1] at hr'
      rw [hnone, List.append_nil] at hsends
      exact hsame hwork.lp hwork.books.kept hsends
  | poll polled => exact hrest trivial
  | collect env doCollectives => exact hrest trivial
  | finalize env => exact hrest trivial
  | dispatch =>
      refine ⟨?_, fun hne => absurd rfl hne⟩
      rcases dispatch_phase_smooth hoff hs.logs.loggable hd'.lost with hsame | ⟨ev, htop, hstep⟩
      · exact ⟨turns, h.same hsame⟩
      · have hpending : ev ∈ Q.elems s.pending := mem_discardPending (mem_of_top? htop)
        have hroll : ∀ target, (target = ev.ts ∨ ∃ r ∈ (s.ctx i).processed, target = r.ev.ts) →
            Rollable i target s := by
          rintro target (rfl | ⟨r, hr, rfl⟩)
          · exact hs.rollable (hs.pending_positive hd hpending) (hs.bound.held _ (.pending hpending))
          · exact hs.rollable (hs.processed_positive hd hr) (hs.bound.held _ (.processed hr rfl))
        exact hstep.ledger hkeeps (hadmits ev (entered_of_pending hs.present hpending)) hd'.sends hroll h

/-- Each phase keeps the ledger of the LP. -/
theorem AccountInv.after {p : Phase} {s : Simulation Q σ} (h : AccountInv mode s) (hkeeps : mode.Kept Admits)
    (hadmits : ∀ ev ∈ s.entered cfg, ev.dst = i → Admits ev)
    (hoff : cfg.enableInstallBeforeUseBuffering = false) (hp : p.Ready s) (hids : s.lpIds.Nodup)
    (hs : Progress cfg s) (hd : Disciplined s.hist) (hd' : Disciplined (p.after model cfg s).hist) :
    AccountInv mode (p.after model cfg s) := by
  have hmoves := (Phase.after_moves model cfg hs.base hp).1
  have hstarted : s.started = true → (p.after model cfg s).started = true := AllMoves.started_mono hmoves
  have hdriven : p.Driven → AccountInv mode (p.after model cfg s) := by
    intro hdriven
    obtain ⟨start, turns, hbegins, hledger⟩ := h.ledger
    obtain ⟨⟨turns', hledger'⟩, hlp⟩ := hledger.after hkeeps hadmits hoff hdriven hp hs hd hd'
    refine ⟨fun hnot => ?_, start, turns', hbegins, hledger'⟩
    have hs' : s.started = false := Bool.eq_false_iff.mpr fun hs => absurd (hnot.symm.trans (hstarted hs)) (by simp)
    rw [hlp (by rintro rfl; exact absurd (hs'.symm.trans hp) (by simp))]
    exact h.unstarted hs'
  cases p with
  | addLp id =>
      change AccountInv mode (exec (WarpSim.addLp model id) s).2
      unfold WarpSim.addLp
      rw [exec_get_bind, exec_ite]
      split
      · exact h
      · next hid =>
        rw [exec_modify]
        by_cases hi : i = id
        · subst hi
          obtain ⟨start, turns, -, hledger⟩ := h.ledger
          have hturns : turns = [] :=
            List.map_eq_nil_iff.mp (hledger.records.trans (hs.books.kept_of_fresh hid))
          refine ⟨fun _ => by simp, (model i).init, [], .constructed, hkeeps.begins _ .constructed, ?_, ?_, ?_⟩
          · simp only [Function.update_self]
            exact .nil
          · simp only [Function.update_self]
            rfl
          · rw [hturns] at hledger
            exact hledger.sends
        · have hctx : Function.update s.ctx id { lp := (model id).init } i = s.ctx i := Function.update_of_ne hi ..
          exact h.keep (congrArg LPContext.lp hctx) (congrArg LPContext.kept hctx) rfl fun hs => hs
  | start => exact h.start hkeeps hids hs.books hs.base
  | _ => exact hdriven trivial

theorem UnderWay.accountInv {s : Simulation Q σ} (h : UnderWay model cfg (Simulation.create Q model) s)
    (hkeeps : mode.Kept Admits) (hadmits : ∀ ev ∈ s.entered cfg, ev.dst = i → Admits ev)
    (hoff : cfg.enableInstallBeforeUseBuffering = false) (ht : Covered s.hist) (hd : Disciplined s.hist) :
    AccountInv mode s := by
  induction h with
  | refl => exact ⟨fun _ => rfl, (model i).init, [], .constructed, hkeeps.begins _ .constructed, .nil, rfl, rfl⟩
  | @step t p hrun hready _ ih =>
      have hprogress : BaseInv t.atRest := hrun.baseInv
      have hle : t.hist.Extends (p.after model cfg t).hist :=
        AllMoves.extends (Phase.after_moves model cfg hprogress hready).1
      have hdt := hd.mono hle
      have htt := ht.mono hle
      have hadmits' : ∀ ev ∈ t.entered cfg, ev.dst = i → Admits ev := fun ev hev =>
        hadmits ev ((entered_sublist hle).subset hev)
      exact (ih hadmits' htt hdt).after hkeeps hadmits' hoff hready hrun.lpIds_nodup (UnderWay.progress hrun htt hdt) hdt hd

end

end WarpSim

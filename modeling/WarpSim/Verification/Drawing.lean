import WarpSim.Verification.FailedSend
import WarpSim.Verification.Sequential.Turns

/-! # Sequence numbers

A send that leaves its sequence number to the kernel draws one from the counters of its source. What handlers
draw is counted here by the sends they have noted. -/

namespace WarpSim

variable {Q : EventQueue} {σ : Type} {model : Model σ} {cfg : SimulationConfig}

open Prog Simulation

/-! ## Numbers drawn -/

/-- The counters for normal and for control sequence numbers. -/
def LPContext.seq (c : LPContext σ) (control : Bool) : UInt64 :=
  if control then c.nextSeqControl else c.nextSeqNormal

/-- What the record has saved of them. -/
def ProcessedRecord.seq (rec : ProcessedRecord) (control : Bool) : UInt64 :=
  if control then rec.preNextSeqControl else rec.preNextSeqNormal

/-- Whether the event draws its sequence number from the counter for control events. -/
def SimulationConfig.controls (cfg : SimulationConfig) (ev : Event) : Bool :=
  match cfg.isControlEvent with
  | none => false
  | some isControlEvent => isControlEvent ev

/-- The event has been sent with a number from a counter of the LP. -/
def SendRecord.Draws (cfg : SimulationConfig) (i : LPId) (control : Bool) (r : SendRecord) : Prop :=
  r.asked.src = i ∧ r.asked.ts.sequence = 0 ∧ cfg.controls { r.asked with uid := r.ev.uid } = control

instance (cfg : SimulationConfig) (i : LPId) (control : Bool) (r : SendRecord) : Decidable (r.Draws cfg i control) :=
  inferInstanceAs (Decidable (_ ∧ _ ∧ _))

/-- How many numbers the sends have drawn from a counter of the LP. -/
def draws (cfg : SimulationConfig) (i : LPId) (control : Bool) (sends : List SendRecord) : ℕ :=
  sends.countP (·.Draws cfg i control)

theorem draws_append (cfg : SimulationConfig) (i : LPId) (control : Bool) (sends more : List SendRecord) :
    draws cfg i control (sends ++ more) = draws cfg i control sends + draws cfg i control more :=
  List.countP_append

theorem draws_eq_zero {i : LPId} {control : Bool} {sends : List SendRecord}
    (h : ∀ r ∈ sends, ¬ (r.asked.src = i ∧ r.asked.ts.sequence = 0)) : draws cfg i control sends = 0 := by
  refine List.countP_eq_zero.mpr fun r hr => ?_
  have hnot := h r hr
  rw [decide_eq_true_eq]
  exact fun hdraws => hnot ⟨hdraws.1, hdraws.2.1⟩

theorem seq_ext {c c' : LPContext σ} (hnormal : c'.nextSeqNormal = c.nextSeqNormal)
    (hcontrol : c'.nextSeqControl = c.nextSeqControl) : c'.seq = c.seq := by
  funext control
  unfold LPContext.seq
  rw [hnormal, hcontrol]

theorem SameCounters.seq {c c' : LPContext σ} (h : SameCounters c c') : c'.seq = c.seq :=
  seq_ext h.normal h.control

theorem seq_renumber_of_ne {id i : LPId} (hi : id ≠ i) (u n k : UInt64) (w : Bool) (s : Simulation Q σ) :
    ((renumber id u n k w s).ctx i).seq = (s.ctx i).seq := by
  rw [renumber_of_ne hi.symm]

theorem seq_renumber_uid (id i : LPId) (u : UInt64) (w : Bool) (s : Simulation Q σ) :
    ((renumber id u (s.ctx id).nextSeqNormal (s.ctx id).nextSeqControl w s).ctx i).seq = (s.ctx i).seq := by
  by_cases hi : id = i
  · subst hi
    rw [renumber_ctx_self]
    exact seq_ext rfl rfl
  · exact seq_renumber_of_ne hi ..

theorem assignUid_seq (asked : Event) (s : Simulation Q σ) (i : LPId) :
    ((exec (assignUid asked) s).2.ctx i).seq = (s.ctx i).seq := by
  have hout := assignUid_outcome asked s
  generalize exec (assignUid asked) s = res at hout ⊢
  obtain ⟨r, t⟩ := res
  dsimp only at hout ⊢
  cases hout with
  | given => rfl
  | assigned =>
      rw [bumpUid_eq]
      exact seq_renumber_uid ..
  | exhausted =>
      rw [bumpUid_eq]
      exact seq_renumber_uid ..
  | unknown => rfl

/-- No number is drawn for an event of another LP, or for one that has been given its number. -/
theorem SequenceOutcome.spares {ev : Event} {s s' : Simulation Q σ} {r : Except String Event} {i : LPId}
    (h : SequenceOutcome cfg ev s r s') (hnot : ¬ (ev.src = i ∧ ev.ts.sequence = 0)) :
    (s'.ctx i).seq = (s.ctx i).seq := by
  have hother : ev.ts.sequence = 0 → ev.src ≠ i := fun hseq hsrc => hnot ⟨hsrc, hseq⟩
  cases h with
  | given => rfl
  | unknown => rfl
  | plain hseq | normal hseq | exhaustedNormal hseq =>
      rw [bumpSeqNormal_eq]
      exact seq_renumber_of_ne (hother hseq) ..
  | control hseq | exhaustedControl hseq =>
      rw [bumpSeqControl_eq]
      exact seq_renumber_of_ne (hother hseq) ..

theorem toNat_succ {n : UInt64} (h : n + 1 ≠ 0) : (n + 1).toNat = n.toNat + 1 := by
  have hne : (n + 1).toNat ≠ 0 := fun hzero => h (UInt64.toNat_inj.mp hzero)
  have hlt := n.toNat_lt
  rw [UInt64.toNat_add, UInt64.toNat_one] at hne ⊢
  omega

/-- An event without a number that is given one draws it. -/
theorem SequenceOutcome.draws {ev ev' : Event} {s s' : Simulation Q σ} (h : SequenceOutcome cfg ev s (.ok ev') s')
    (hseq : ev.ts.sequence = 0) (hw : s'.hist.wrapped = false) (control : Bool) :
    ((s'.ctx ev.src).seq control).toNat =
      ((s.ctx ev.src).seq control).toNat + if cfg.controls ev = control then 1 else 0 := by
  have hnormal : (bumpSeqNormal ev.src s).hist.wrapped = false →
      (((bumpSeqNormal ev.src s).ctx ev.src).seq control).toNat =
        ((s.ctx ev.src).seq control).toNat + if false = control then 1 else 0 := by
    intro hw
    have hne : (s.ctx ev.src).nextSeqNormal + 1 ≠ 0 := by
      simpa using (Bool.or_eq_false_iff.mp hw).2
    rw [bumpSeqNormal_eq, renumber_ctx_self]
    cases control with
    | false => exact toNat_succ hne
    | true => rfl
  have hcontrol : (bumpSeqControl ev.src s).hist.wrapped = false →
      (((bumpSeqControl ev.src s).ctx ev.src).seq control).toNat =
        ((s.ctx ev.src).seq control).toNat + if true = control then 1 else 0 := by
    intro hw
    have hne : (s.ctx ev.src).nextSeqControl + 1 ≠ 0 := by
      simpa using (Bool.or_eq_false_iff.mp hw).2
    rw [bumpSeqControl_eq, renumber_ctx_self]
    cases control with
    | false => rfl
    | true => exact toNat_succ hne
  cases h with
  | given hne => exact absurd hseq hne
  | plain _ _ hcfg =>
      have hcontrols : cfg.controls ev = false := by
        unfold SimulationConfig.controls
        rw [hcfg]
      rw [hcontrols]
      exact hnormal hw
  | control _ _ hcfg hev =>
      have hcontrols : cfg.controls ev = true := by
        unfold SimulationConfig.controls
        rw [hcfg]
        exact hev
      rw [hcontrols]
      exact hcontrol hw
  | normal _ _ hcfg hev =>
      have hcontrols : cfg.controls ev = false := by
        unfold SimulationConfig.controls
        rw [hcfg]
        exact hev
      rw [hcontrols]
      exact hnormal hw

theorem stamp_spares {asked : Event} {i : LPId} (hnot : ¬ (asked.src = i ∧ asked.ts.sequence = 0))
    (s : Simulation Q σ) : ((exec (stamp cfg asked) s).2.ctx i).seq = (s.ctx i).seq := by
  have huid := assignUid_seq asked s i
  have hout := assignUid_outcome asked s
  unfold stamp
  rw [exec_bind]
  generalize exec (assignUid asked) s = res at huid hout ⊢
  obtain ⟨what | ev, s₁⟩ := res
  · exact huid
  obtain ⟨rfl, -, -⟩ := hout.exact
  dsimp only at huid ⊢
  have hframe := withUid_frame (s.ctx asked.src) asked
  have hsame : ¬ ((withUid (s.ctx asked.src) asked).src = i ∧
      (withUid (s.ctx asked.src) asked).ts.sequence = 0) := by
    rw [hframe]
    exact hnot
  have hsequence : SequenceOutcome cfg _ s₁ _ _ := assignSequence_outcome (withUid (s.ctx asked.src) asked) s₁
  have hspares := hsequence.spares hsame
  rw [exec_bind]
  generalize exec (assignSequence cfg (withUid (s.ctx asked.src) asked)) s₁ = res at hspares ⊢
  obtain ⟨what | ev, s₂⟩ := res
  · exact hspares.trans huid
  · exact (sameCounters_routeTarget cfg ev s₂ i).seq.trans (hspares.trans huid)

theorem stamp_draws {asked ev : Event} {s t : Simulation Q σ} (h : exec (stamp cfg asked) s = (.ok ev, t))
    (hseq : asked.ts.sequence = 0) (hw : t.hist.wrapped = false) (control : Bool) :
    ((t.ctx asked.src).seq control).toNat = ((s.ctx asked.src).seq control).toNat +
      if cfg.controls { asked with uid := ev.uid } = control then 1 else 0 := by
  have hfrom := stamp_exact cfg asked s
  rw [h] at hfrom
  have hframe := withUid_frame (s.ctx asked.src) asked
  rw [hfrom.2.uid, ← hframe]
  have huid := assignUid_seq asked s asked.src
  have hout := assignUid_outcome asked s
  unfold stamp at h
  rw [exec_bind] at h
  generalize exec (assignUid asked) s = res at huid hout h
  obtain ⟨what | ev₁, s₁⟩ := res
  · cases h
  obtain ⟨rfl, -, -⟩ := hout.exact
  dsimp only at huid h
  set numbered := withUid (s.ctx asked.src) asked with hnumbered
  have hsrc : numbered.src = asked.src := by rw [hframe]
  have hts : numbered.ts = asked.ts := by rw [hframe]
  have hsequence : SequenceOutcome cfg numbered s₁ _ _ := assignSequence_outcome numbered s₁
  rw [exec_bind] at h
  generalize exec (assignSequence cfg numbered) s₁ = res at hsequence h
  obtain ⟨what | ev₂, s₂⟩ := res
  · cases h
  dsimp only at hsequence h
  have ht : t = (exec (routeTarget cfg ev₂) s₂).2 := by rw [h]
  obtain ⟨dirs, hroute⟩ := routeTarget_directoriesOnly cfg ev₂ s₂
  rw [hroute] at ht
  rw [ht] at hw ⊢
  have hdraws := hsequence.draws (by rw [hts]; exact hseq) hw control
  rw [hsrc, huid] at hdraws
  exact hdraws

theorem deliver_wrapped (cause : SendCause) (cfg : SimulationConfig) (asked ev : Event) (s : Simulation Q σ) :
    (exec (deliver cause cfg asked ev) s).2.hist.wrapped = s.hist.wrapped := by
  have hout := deliver_outcome cfg cause asked ev s
  generalize exec (deliver cause cfg asked ev) s = res at hout ⊢
  obtain ⟨r, t⟩ := res
  dsimp only at hout ⊢
  cases hout with
  | sent _ hquiet =>
      rw [hquiet.hist]
      change (posted cause cfg asked (stampColor cfg s ev) s).hist.wrapped = _
      rw [posted_eq]
  | unlogged _ _ hquiet =>
      rw [hquiet.hist, posted_eq]

/-- `send` moves the counters of the LP on by the numbers it draws, if it refuses no event that is to have one. -/
theorem send_draws (cause : SendCause) (cfg : SimulationConfig) {asked : Event} {s : Simulation Q σ} {i : LPId}
    (hown : asked.src = i → asked.ts.sequence = 0 → (exec (send cause cfg asked) s).1.toOption.isSome)
    (hw : (exec (send cause cfg asked) s).2.hist.wrapped = false) :
    ∃ noted, (exec (send cause cfg asked) s).2.hist.sends = s.hist.sends ++ noted ∧
      (∀ r ∈ noted, r.cause = cause) ∧
      ∀ control, (((exec (send cause cfg asked) s).2.ctx i).seq control).toNat =
        ((s.ctx i).seq control).toNat + draws cfg i control noted := by
  have hvalid := quiet_validate cfg s
  by_cases hdraw : asked.src = i ∧ asked.ts.sequence = 0
  · obtain ⟨rfl, hseq⟩ := hdraw
    have hok := hown rfl hseq
    have hsends := stamp_sends cfg asked (validateInvariants cfg s)
    unfold send at hok hw ⊢
    rw [exec_modify_bind, exec_bind] at hok hw ⊢
    rcases hstamp : exec (stamp cfg asked) (validateInvariants cfg s) with ⟨what | ev, t⟩
    · rw [hstamp] at hok
      cases hok
    rw [hstamp] at hw hsends
    dsimp only at hw hsends ⊢
    rw [deliver_wrapped] at hw
    refine ⟨_, (deliver_sends cause asked ev t).trans (by rw [hsends, hvalid.hist]), by simp [sendRecord],
      fun control => ?_⟩
    rw [(sameCounters_deliver cause cfg asked ev t asked.src).seq, stamp_draws hstamp hseq hw control, hvalid.ctx]
    have huid : (stampColor cfg t ev).uid = ev.uid := by rw [stampColor_eq]
    simp [draws, SendRecord.Draws, sendRecord, hseq, huid, List.countP_cons]
  · obtain ⟨noted, hnoted, hmore, -⟩ := send_noted cfg cause asked s
    refine ⟨noted, hnoted, fun r hr => (hmore r hr).1, fun control => ?_⟩
    have hnone : draws cfg i control noted = 0 := draws_eq_zero fun r hr => (hmore r hr).2.1 ▸ hdraw
    have hspares : ((exec (stamp cfg asked) (validateInvariants cfg s)).2.ctx i).seq = _ := stamp_spares hdraw _
    rw [hnone, Nat.add_zero]
    unfold send
    rw [exec_modify_bind, exec_bind]
    generalize exec (stamp cfg asked) (validateInvariants cfg s) = res at hspares ⊢
    obtain ⟨what | ev, t⟩ := res
    · rw [hspares, hvalid.ctx]
    · rw [(sameCounters_deliver cause cfg asked ev t i).seq, hspares, hvalid.ctx]

/-! ## Numbers drawn by handlers -/

/-- The handler of the LP is refused no event that is to have a number of the LP, and throws only with the
counters at `start`. -/
def Handler.Tidy (cfg : SimulationConfig) (i : LPId) (execTs : TimeStamp) (start : Bool → UInt64) :
    Handler σ → Simulation Q σ → Prop
  | .done _, _ => True
  | .throw _ _, s => (s.ctx i).seq = start
  | .requestWrite _ _ next, s => Handler.Tidy cfg i execTs start next s
  | .emitCommitted ts _ next, s =>
    Handler.Tidy cfg i execTs start (next (if ts = execTs then none
      else some "emit_committed: ts must match the current event timestamp")) s
  | .send asked next, s =>
    let res := exec (WarpSim.send (.handler i execTs) cfg asked) s
    (asked.src = i → asked.ts.sequence = 0 → res.1.toOption.isSome) ∧
      Handler.Tidy cfg i execTs start (next (exceptionOf res.1)) res.2

/-- What a handler, which was to fill the record, has drawn, and what it has sent meanwhile. -/
structure Drawn (cfg : SimulationConfig) (i : LPId) (start : Bool → UInt64) (blank : ProcessedRecord)
    (s : Simulation Q σ) (res : Except String ProcessedRecord × Simulation Q σ) (more : List SendRecord) : Prop where
  sends : res.2.hist.sends = s.hist.sends ++ more
  cause : ∀ r ∈ more, r.cause = .handler i blank.ev.ts
  returned : ∀ rec, res.1 = .ok rec → SameOrigin blank rec ∧ ∀ control,
    ((res.2.ctx i).seq control).toNat = ((s.ctx i).seq control).toNat + draws cfg i control more
  thrown : ∀ what, res.1 = .error what → (res.2.ctx i).seq = start

theorem runHandler_wrapped (model : Model σ) (cfg : SimulationConfig) (id : LPId) (handler : Handler σ)
    (rec : ProcessedRecord) (s : Simulation Q σ)
    (hw : (exec (runHandler model cfg id handler rec) s).2.hist.wrapped = false) : s.hist.wrapped = false := by
  induction handler generalizing rec s with
  | done state => exact hw
  | throw state what => exact hw
  | send asked next ih =>
      unfold runHandler at hw
      rw [exec_observe_bind] at hw
      exact (send_frame cfg (.handler id rec.ev.ts) asked s).wrapped (ih _ _ _ hw)
  | requestWrite state entity next ih => exact ih _ s hw
  | emitCommitted ts payload next ih =>
      unfold runHandler at hw
      split at hw
      · exact ih none _ s hw
      · exact ih _ rec s hw

theorem seq_setLp (i : LPId) (state : σ) (s : Simulation Q σ) : ((setLp i state s).ctx i).seq = (s.ctx i).seq := by
  rw [setLp_self]
  exact seq_ext rfl rfl

theorem runHandler_drawn (model : Model σ) {i : LPId} {start : Bool → UInt64} (handler : Handler σ)
    (rec : ProcessedRecord) {s : Simulation Q σ} (htidy : handler.Tidy cfg i rec.ev.ts start s)
    (hw : (exec (runHandler model cfg i handler rec) s).2.hist.wrapped = false) :
    ∃ more, Drawn cfg i start rec s (exec (runHandler model cfg i handler rec) s) more := by
  induction handler generalizing rec s with
  | done state =>
      refine ⟨[], (List.append_nil _).symm, by simp, fun rec' hrec' => ?_, fun what hwhat => (by cases hwhat)⟩
      cases hrec'
      refine ⟨⟨rfl, rfl, rfl⟩, fun control => ?_⟩
      exact congrArg (fun seq => (seq control).toNat) (seq_setLp i state s)
  | throw state what =>
      refine ⟨[], (List.append_nil _).symm, by simp, fun rec' hrec' => (by cases hrec'), fun _ _ => ?_⟩
      exact (seq_setLp i state s).trans htidy
  | send asked next ih =>
      obtain ⟨hown, hnext⟩ := htidy
      unfold runHandler at hw ⊢
      rw [exec_observe_bind] at hw ⊢
      have hw' := runHandler_wrapped model cfg i _ _ _ hw
      obtain ⟨noted, hnoted, hcause, hdraws⟩ := send_draws (.handler i rec.ev.ts) cfg hown hw'
      generalize exec (send (.handler i rec.ev.ts) cfg asked) s = res at hnext hw hnoted hdraws ⊢
      obtain ⟨r, t⟩ := res
      obtain ⟨more, hmore⟩ := ih (exceptionOf r) { rec with sent := rec.sent ++ r.toOption.toList } hnext hw
      refine ⟨noted ++ more, ?_, fun q hq => ?_, fun rec' hrec' => ?_, hmore.thrown⟩
      · exact hmore.sends.trans (by rw [hnoted, List.append_assoc])
      · exact (List.mem_append.mp hq).elim (hcause q) (hmore.cause q)
      · obtain ⟨horigin, hcount⟩ := hmore.returned rec' hrec'
        refine ⟨horigin.of_eq rfl rfl rfl, fun control => ?_⟩
        rw [hcount control, hdraws control, draws_append, Nat.add_assoc]
  | requestWrite state entity next ih =>
      have hev := requestWrite_ev (model i) state entity rec
      have hsaved := requestWrite_counters (model i) state entity rec
      obtain ⟨more, hmore⟩ := ih (requestWrite (model i) state entity rec) (hev ▸ htidy) hw
      refine ⟨more, hmore.sends, fun r hr => by rw [hmore.cause r hr, hev], fun rec' hrec' => ?_, hmore.thrown⟩
      obtain ⟨horigin, hcount⟩ := hmore.returned rec' hrec'
      exact ⟨horigin.of_eq hev hsaved.1 hsaved.2, hcount⟩
  | emitCommitted ts payload next ih =>
      unfold runHandler at hw ⊢
      unfold Handler.Tidy at htidy
      split at htidy
      · next hts =>
        rw [if_pos hts] at hw ⊢
        obtain ⟨more, hmore⟩ := ih none { rec with committed := rec.committed ++ [⟨ts, payload⟩] } htidy hw
        refine ⟨more, hmore.sends, hmore.cause, fun rec' hrec' => ?_, hmore.thrown⟩
        obtain ⟨horigin, hcount⟩ := hmore.returned rec' hrec'
        exact ⟨horigin.of_eq rfl rfl rfl, hcount⟩
      · next hts =>
        rw [if_neg hts] at hw ⊢
        exact ih _ rec htidy hw

/-! ## Logged events have numbers -/

theorem outstanding_subset (i : LPId) (sends : List SendRecord) : outstanding i sends ⊆ sends := by
  induction sends using List.reverseRecOn with
  | nil => exact List.Subset.refl _
  | append_singleton sends r ih =>
      rw [outstanding_append, account]
      split
      · intro q hq
        have hmem : q ∈ (outstanding i sends).reverse := List.eraseP_subset (List.mem_reverse.mp hq)
        exact List.mem_append_left _ (ih (List.mem_reverse.mp hmem))
      · split
        · exact List.append_subset.mpr ⟨fun q hq => List.mem_append_left _ (ih hq), List.subset_append_right _ _⟩
        · exact fun q hq => List.mem_append_left _ (ih hq)

theorem AllMoves.sequenced {sound final : Prop} {x y : Situation Q σ} (h : AllMoves sound final model cfg x y)
    (hseed : SeedInv x) (hx : ∀ r ∈ x.state.hist.sends, r.ev.ts.sequence ≠ 0)
    (hw : y.state.hist.wrapped = false) : ∀ r ∈ y.state.hist.sends, r.ev.ts.sequence ≠ 0 := by
  induction h with
  | refl => exact hx
  | @tail y z hmoves hm ih =>
      have hext : y.state.hist.Extends z.state.hist := hm.elim Move.extends GvtMove.extends
      have hw' := hext.wrapped hw
      rcases hm with hm | hm
      · rcases (hm.counterStep 0).sends_cases with hsends | ⟨r, hsends⟩
        · rw [hsends]
          exact ih hw'
        · have hnew := hm.newSend (AllMoves.seedInv hmoves hseed hw') hw hsends
          intro q hq
          rw [hsends] at hq
          rcases List.mem_append.mp hq with hq | hq
          · exact ih hw' q hq
          · rw [List.mem_singleton.mp hq]
            exact hnew.sequence
      · rw [hm.logStep.2.2.1]
        exact ih hw'

theorem PhaseRun.logged_sequence {allowed : Phase → Simulation Q σ → Prop} {s : Simulation Q σ}
    (h : PhaseRun model cfg allowed (Simulation.create Q model) s) (hw : s.hist.wrapped = false) (i : LPId) :
    ∀ sent ∈ (s.ctx i).sentLog, sent.msgTime.sequence ≠ 0 := by
  intro sent hsent
  obtain ⟨r, hr, rfl⟩ := List.mem_map.mp ((h.sentLogInv.logged i).subset hsent)
  exact AllMoves.sequenced (h.moves baseInv_create) seedInv_create (by simp [Simulation.create, Simulation.atRest])
    hw r (outstanding_subset i _ hr)

end WarpSim

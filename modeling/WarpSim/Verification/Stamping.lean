import WarpSim.Verification.Simulates

/-! # What `send` makes of an event

When `send` accepts an event, and the stamp and the destination it gives it. -/

namespace WarpSim

variable {Q : EventQueue} {σ : Type} {model : Model σ} {cfg : SimulationConfig}

open Prog Simulation

/-! ## Numbers and destinations -/

/-- The event once it has a uid. -/
def withUid (c : LPContext σ) (asked : Event) : Event :=
  if asked.uid ≠ 0 then asked else { asked with uid := c.nextUid }

/-- The sequence number that the counters of the source provide for an event. -/
def autoSequence (cfg : SimulationConfig) (c : LPContext σ) (ev : Event) : UInt64 :=
  match cfg.isControlEvent with
  | none => c.nextSeqNormal
  | some isControlEvent =>
    if isControlEvent ev then c.nextSeqControl else ((1 : UInt64) <<< 63) ||| c.nextSeqNormal

/-- The stamp of an event once it has a sequence number. -/
def stampedTs (cfg : SimulationConfig) (c : LPContext σ) (ev : Event) : TimeStamp :=
  if ev.ts.sequence ≠ 0 then ev.ts else ⟨ev.ts.time, autoSequence cfg c ev⟩

/-- With priorities, a counter that has wrapped to 0 has no numbers left. -/
def SequenceLeft (cfg : SimulationConfig) (c : LPContext σ) (ev : Event) : Prop :=
  ∀ isControlEvent, cfg.isControlEvent = some isControlEvent →
    (if isControlEvent ev then c.nextSeqControl else c.nextSeqNormal) ≠ 0

/-- The destination that `resolveTarget` finds. -/
def resolvedDst (cfg : SimulationConfig) (s : Simulation Q σ) (ev : Event) : Option LPId :=
  match cfg.directoryForEntity with
  | some directoryForEntity =>
    if directoryForEntity ev.target = 0 then none
    else some (if ev.src ≠ directoryForEntity ev.target then directoryForEntity ev.target else ev.dst)
  | none => some ((s.entityOwner ev.target).getD ev.dst)

/-- The destination of an event after routing, if it has one. -/
def routedDst (cfg : SimulationConfig) (s : Simulation Q σ) (ev : Event) : Option LPId :=
  if ev.target = 0 then some ev.dst else (resolvedDst cfg s ev).filter (· ≠ unsetDst)

/-- The events that `send` accepts. -/
structure Sendable (cfg : SimulationConfig) (s : Simulation Q σ) (asked : Event) : Prop where
  uid : asked.uid = 0 → asked.src ∈ s.lpIds ∧ (s.ctx asked.src).nextUid ≠ 0
  sequence : asked.ts.sequence = 0 → asked.src ∈ s.lpIds ∧
    SequenceLeft cfg (s.ctx asked.src) (withUid (s.ctx asked.src) asked)
  routed : (routedDst cfg s asked).isSome

/-- The event that `stamp` makes of one it accepts. -/
structure StampedFrom (cfg : SimulationConfig) (s : Simulation Q σ) (asked ev : Event) : Prop where
  frame : ev = { asked with ts := ev.ts, dst := ev.dst, uid := ev.uid }
  uid : ev.uid = (withUid (s.ctx asked.src) asked).uid
  ts : ev.ts = stampedTs cfg (s.ctx asked.src) (withUid (s.ctx asked.src) asked)
  dst : routedDst cfg s asked = some ev.dst

/-! ## Stamping -/

theorem withUid_ts (c : LPContext σ) (asked : Event) : (withUid c asked).ts = asked.ts := by
  unfold withUid
  split <;> rfl

theorem withUid_frame (c : LPContext σ) (asked : Event) :
    withUid c asked = { asked with uid := (withUid c asked).uid } := by
  unfold withUid
  split <;> rfl

theorem UidOutcome.exact {asked : Event} {s s' : Simulation Q σ} {r : Except String Event}
    (h : UidOutcome asked s r s') :
    match r with
    | .ok ev => ev = withUid (s.ctx asked.src) asked ∧
        (asked.uid = 0 → asked.src ∈ s.lpIds ∧ (s.ctx asked.src).nextUid ≠ 0) ∧
        ∃ uid wraps, s' = renumber asked.src uid (s.ctx asked.src).nextSeqNormal
          (s.ctx asked.src).nextSeqControl wraps s
    | .error _ => asked.uid = 0 ∧ ¬ (asked.src ∈ s.lpIds ∧ (s.ctx asked.src).nextUid ≠ 0) := by
  cases h with
  | given huid =>
      exact ⟨(if_pos huid).symm, fun h => absurd h huid, _, false, (renumber_same _ _).symm⟩
  | assigned huid hsrc hne =>
      exact ⟨(if_neg (not_not.mpr huid)).symm, fun _ => ⟨hsrc, hne⟩, _, _, bumpUid_eq _ _⟩
  | exhausted huid hsrc hzero => exact ⟨huid, fun h => h.2 hzero⟩
  | unknown huid hsrc => exact ⟨huid, fun h => hsrc h.1⟩

theorem SequenceOutcome.exact {ev : Event} {s s' : Simulation Q σ} {r : Except String Event}
    (h : SequenceOutcome cfg ev s r s') :
    match r with
    | .ok ev' => ev' = { ev with ts := stampedTs cfg (s.ctx ev.src) ev } ∧
        (ev.ts.sequence = 0 → ev.src ∈ s.lpIds ∧ SequenceLeft cfg (s.ctx ev.src) ev) ∧
        s'.entityOwner = s.entityOwner
    | .error _ => ev.ts.sequence = 0 ∧ ¬ (ev.src ∈ s.lpIds ∧ SequenceLeft cfg (s.ctx ev.src) ev) := by
  cases h with
  | given hseq =>
      exact ⟨by rw [stampedTs, if_pos hseq], fun h => absurd h hseq, rfl⟩
  | plain hseq hsrc hcfg =>
      refine ⟨?_, fun _ => ⟨hsrc, fun f hf => ?_⟩, rfl⟩
      · rw [stampedTs, if_neg (not_not.mpr hseq), autoSequence, hcfg]
      · rw [hcfg] at hf
        cases hf
  | control hseq hsrc hcfg hev hne =>
      refine ⟨?_, fun _ => ⟨hsrc, fun f hf => ?_⟩, rfl⟩
      · rw [stampedTs, if_neg (not_not.mpr hseq), autoSequence, hcfg]
        simp only [hev, if_true]
      · obtain rfl := Option.some.inj (hcfg.symm.trans hf)
        rw [if_pos hev]
        exact hne
  | normal hseq hsrc hcfg hev hne =>
      refine ⟨?_, fun _ => ⟨hsrc, fun f hf => ?_⟩, rfl⟩
      · rw [stampedTs, if_neg (not_not.mpr hseq), autoSequence, hcfg]
        simp only [hev, Bool.false_eq_true, if_false]
      · obtain rfl := Option.some.inj (hcfg.symm.trans hf)
        simp only [hev, Bool.false_eq_true, if_false]
        exact hne
  | exhaustedControl hseq hcfg hev hzero =>
      exact ⟨hseq, fun h => h.2 _ hcfg (by rw [if_pos hev]; exact hzero)⟩
  | exhaustedNormal hseq hcfg hev hzero =>
      exact ⟨hseq, fun h => h.2 _ hcfg (by simp only [hev, Bool.false_eq_true, if_false]; exact hzero)⟩
  | unknown hseq hsrc => exact ⟨hseq, fun h => hsrc h.1⟩

theorem resolveTarget_exact (cfg : SimulationConfig) (ev : Event) (s : Simulation Q σ) :
    (exec (resolveTarget cfg ev) s).1.toOption =
      (resolvedDst cfg s ev).map ({ ev with dst := · }) := by
  unfold resolveTarget resolvedDst
  rw [exec_get_bind]
  cases cfg.directoryForEntity with
  | none => cases s.entityOwner ev.target <;> rfl
  | some directoryForEntity =>
      dsimp only
      rw [exec_ite]
      split
      · rfl
      · rw [exec_modify_bind]
        split <;> rfl

/-- Routing finds the destination `routedDst`. -/
theorem routeTarget_exact (cfg : SimulationConfig) (ev : Event) (s : Simulation Q σ) :
    (exec (routeTarget cfg ev) s).1.toOption = (routedDst cfg s ev).map ({ ev with dst := · }) := by
  have hresolve := resolveTarget_exact cfg ev s
  unfold routeTarget routedDst
  rw [exec_ite]
  split
  · rfl
  · rw [exec_bind]
    generalize exec (resolveTarget cfg ev) s = res at hresolve ⊢
    generalize resolvedDst cfg s ev = dst at hresolve ⊢
    obtain ⟨what | routed, s'⟩ := res
    · cases dst with
      | none => rfl
      | some dst => cases hresolve
    · cases dst with
      | none => cases hresolve
      | some dst =>
          obtain rfl : routed = { ev with dst := dst } := Option.some.inj hresolve
          dsimp only
          rw [exec_ite]
          by_cases hdst : dst = unsetDst
          · rw [if_pos hdst, Option.filter_eq_none_iff.mpr (by simp [hdst])]
            rfl
          · rw [if_neg hdst, Option.filter_some_pos (by simp [hdst])]
            rfl

/-- `stamp` accepts the sendable events, and gives them the stamp and the destination named
above. -/
theorem stamp_exact (cfg : SimulationConfig) (asked : Event) (s : Simulation Q σ) :
    match (exec (stamp cfg asked) s).1 with
    | .ok ev => Sendable cfg s asked ∧ StampedFrom cfg s asked ev
    | .error _ => ¬ Sendable cfg s asked := by
  unfold stamp
  refine exec_bind_cases (T := fun r _ => match r with
      | .ok ev => Sendable cfg s asked ∧ StampedFrom cfg s asked ev
      | .error _ => ¬ Sendable cfg s asked)
    (assignUid_outcome asked s) (fun ev₁ s₁ huid => ?_) fun what s₁ huid => ?_
  swap
  · exact fun h => huid.exact.2 (h.uid huid.exact.1)
  obtain ⟨rfl, hleft, uid, wraps, rfl⟩ := huid.exact
  set numbered := withUid (s.ctx asked.src) asked with hnumbered
  have hframe : numbered = { asked with uid := numbered.uid } := withUid_frame _ _
  have hsrc : numbered.src = asked.src := by rw [hframe]
  have hts : numbered.ts = asked.ts := by rw [hframe]
  refine exec_bind_cases (T := fun r _ => match r with
      | .ok ev => Sendable cfg s asked ∧ StampedFrom cfg s asked ev
      | .error _ => ¬ Sendable cfg s asked)
    (assignSequence_outcome _ _) (fun ev₂ s₂ hseq => ?_) fun what s₂ hseq => ?_
  swap
  · have h := hseq.exact
    rw [hsrc, hts, renumber_ctx_self, renumber_lpIds] at h
    exact fun hsend => h.2 (hsend.sequence h.1)
  obtain ⟨hev₂, hseqLeft, howner⟩ := hseq.exact
  rw [hsrc, hts, renumber_ctx_self, renumber_lpIds] at hseqLeft
  rw [hsrc, renumber_ctx_self] at hev₂
  set ts := stampedTs cfg { s.ctx asked.src with nextUid := uid } numbered with hstamp
  have hasked : ev₂ = { asked with ts := ts, uid := numbered.uid } := by
    rw [hev₂]
    rw [hframe]
  have hdst : routedDst cfg s₂ ev₂ = routedDst cfg s asked := by
    rw [hasked]
    unfold routedDst resolvedDst
    rw [howner]
    rfl
  have hroute := routeTarget_exact cfg ev₂ s₂
  rw [hdst] at hroute
  generalize exec (routeTarget cfg ev₂) s₂ = res at hroute ⊢
  obtain ⟨what | ev, s₃⟩ := res
  · have hnone : routedDst cfg s asked = none := Option.map_eq_none_iff.mp hroute.symm
    intro hsend
    have hsome := hsend.routed
    rw [hnone] at hsome
    cases hsome
  · obtain ⟨dst, hsome, rfl⟩ := Option.map_eq_some_iff.mp hroute.symm
    rw [hasked]
    exact ⟨⟨hleft, hseqLeft, by simp [hsome]⟩, rfl, rfl, rfl, hsome⟩

/-! ## The log of sends -/

theorem Quiet.hist {s s' : Simulation Q σ} (h : Quiet s s') : s'.hist = s.hist := by rw [h]

/-- The counters of an LP are the same. -/
structure SameCounters (c c' : LPContext σ) : Prop where
  uid : c'.nextUid = c.nextUid
  normal : c'.nextSeqNormal = c.nextSeqNormal
  control : c'.nextSeqControl = c.nextSeqControl

theorem SameCounters.symm {c c' : LPContext σ} (h : SameCounters c c') : SameCounters c' c :=
  ⟨h.uid.symm, h.normal.symm, h.control.symm⟩

theorem SameCounters.withUid {c c' : LPContext σ} (h : SameCounters c c') (asked : Event) :
    withUid c' asked = withUid c asked := by
  unfold WarpSim.withUid
  rw [h.uid]

theorem SameCounters.autoSequence {c c' : LPContext σ} (h : SameCounters c c') (ev : Event) :
    autoSequence cfg c' ev = autoSequence cfg c ev := by
  unfold WarpSim.autoSequence
  rw [h.normal, h.control]

theorem Sendable.congr {s s' : Simulation Q σ} {asked : Event} (hs : Sendable cfg s asked)
    (hids : s'.lpIds = s.lpIds) (howner : s'.entityOwner = s.entityOwner)
    (hctx : SameCounters (s.ctx asked.src) (s'.ctx asked.src)) : Sendable cfg s' asked := by
  refine ⟨fun h => ?_, fun h => ?_, ?_⟩
  · rw [hids, hctx.uid]
    exact hs.uid h
  · rw [hids, hctx.withUid]
    refine ⟨(hs.sequence h).1, fun f hf => ?_⟩
    rw [hctx.normal, hctx.control]
    exact (hs.sequence h).2 f hf
  · have hroute := hs.routed
    unfold routedDst resolvedDst at hroute ⊢
    rw [howner]
    exact hroute

theorem Quiet.sendable {s s' : Simulation Q σ} (h : Quiet s s') {asked : Event} :
    Sendable cfg s' asked ↔ Sendable cfg s asked := by
  have howner : s'.entityOwner = s.entityOwner := by rw [h]
  have hctx : SameCounters (s.ctx asked.src) (s'.ctx asked.src) := by
    rw [h.ctx]
    exact ⟨rfl, rfl, rfl⟩
  exact ⟨fun hs => hs.congr h.lpIds.symm howner.symm hctx.symm,
    fun hs => hs.congr h.lpIds howner hctx⟩

theorem stamp_sends (cfg : SimulationConfig) (asked : Event) (s : Simulation Q σ) :
    (exec (stamp cfg asked) s).2.hist.sends = s.hist.sends := by
  have hout : StampOutcome cfg asked s _ _ := stamp_outcome asked s
  generalize exec (stamp cfg asked) s = res at hout ⊢
  obtain ⟨r, s'⟩ := res
  cases hout with
  | stamped _ hquiet =>
      rw [hquiet.hist]
      rfl
  | refused _ _ hquiet =>
      rw [hquiet.hist]
      rfl

/-- Once an event is stamped, its send is recorded. -/
theorem deliver_sends (cause : SendCause) (asked ev : Event) (s : Simulation Q σ) :
    (exec (deliver cause cfg asked ev) s).2.hist.sends = s.hist.sends ++
      [sendRecord cause asked (stampColor cfg s ev) (cfg.rankOf (stampColor cfg s ev).dst) s] := by
  have hout := deliver_outcome cfg cause asked ev s
  generalize exec (deliver cause cfg asked ev) s = res at hout ⊢
  obtain ⟨r, s'⟩ := res
  cases hout with
  | sent _ hquiet => exact (congrArg History.sends hquiet.hist).trans (posted_sends ..)
  | unlogged _ _ hquiet => exact (congrArg History.sends hquiet.hist).trans (posted_sends ..)

/-- A call of `send` is recorded if the event is sendable, with the stamp it gets. -/
theorem send_sends (cause : SendCause) (cfg : SimulationConfig) (asked : Event)
    (s : Simulation Q σ) :
    (¬ Sendable cfg s asked ∧ (exec (send cause cfg asked) s).2.hist.sends = s.hist.sends) ∨
      (Sendable cfg s asked ∧ ∃ r, (exec (send cause cfg asked) s).2.hist.sends = s.hist.sends ++ [r] ∧
        r.cause = cause ∧ r.ev.ts = stampedTs cfg (s.ctx asked.src) (withUid (s.ctx asked.src) asked)) := by
  have hquiet := quiet_validate cfg s
  have hexact := stamp_exact cfg asked (validateInvariants cfg s)
  have hsends := stamp_sends cfg asked (validateInvariants cfg s)
  rw [hquiet.hist] at hsends
  unfold send
  rw [exec_modify_bind, exec_bind]
  generalize exec (stamp cfg asked) (validateInvariants cfg s) = res at hexact hsends ⊢
  obtain ⟨what | ev, s₁⟩ := res
  · exact Or.inl ⟨fun h => hexact (hquiet.sendable.mpr h), hsends⟩
  · obtain ⟨hsendable, hstamped⟩ := hexact
    have hts := hstamped.ts
    rw [hquiet.ctx] at hts
    refine Or.inr ⟨hquiet.sendable.mp hsendable,
      sendRecord cause asked (stampColor cfg s₁ ev) (cfg.rankOf (stampColor cfg s₁ ev).dst) s₁,
      (deliver_sends cause asked ev s₁).trans (by rw [hsends]), rfl,
      (stampColor_ts s₁ ev).trans hts⟩

end WarpSim

import WarpSim.Verification.Stamping

/-! # Sends that fail

What a call of `send` that ends with an exception has done before. -/

namespace WarpSim

variable {Q : EventQueue} {σ : Type} {cfg : SimulationConfig}

open Prog Simulation

/-! ## Effects -/

/-- The call throws, and not because an invariant check failed. -/
structure SendThrows (cause : SendCause) (cfg : SimulationConfig) (asked : Event) (s t : Simulation Q σ) : Prop where
  throws : ∃ what, exec (send cause cfg asked) s = (.error what, t)
  checks : cfg.enableInvariantChecks = true → t.checksPassed = true

/-- Nothing was enqueued, handed to the transport, numbered, logged, tracked or counted. -/
structure NoEffect (s t : Simulation Q σ) : Prop where
  pending : t.pending = s.pending
  outbox : t.outbox = s.outbox
  numbers : ∀ id, SameCounters (s.ctx id) (t.ctx id)
  sentLog : ∀ id, (t.ctx id).sentLog = (s.ctx id).sentLog
  inflight : t.inflightByUid = s.inflightByUid ∧ t.inflightTs = s.inflightTs
  colors : t.gvtSentByColor = s.gvtSentByColor ∧ t.gvtRecvByColor = s.gvtRecvByColor ∧
    t.gvtMinRedSentTs = s.gvtMinRedSentTs
  sent : t.counters.sentEvents = s.counters.sentEvents ∧ t.counters.sentAnti = s.counters.sentAnti

/-- The entity's directory is 0, or the destination is unset after routing. -/
def NoRoute (cfg : SimulationConfig) (s : Simulation Q σ) (asked : Event) : Prop :=
  asked.target ≠ 0 ∧
    match cfg.directoryForEntity with
    | some directoryForEntity =>
      directoryForEntity asked.target = 0 ∨
        (if asked.src ≠ directoryForEntity asked.target then directoryForEntity asked.target else asked.dst) =
          unsetDst
    | none => (s.entityOwner asked.target).getD asked.dst = unsetDst

/-- The source is missed when a number is to be assigned; or both numbers are given, and there is no route. -/
def RefusedAtOnce (cfg : SimulationConfig) (s : Simulation Q σ) (asked : Event) : Prop :=
  ((asked.uid = 0 ∨ asked.ts.sequence = 0) ∧ asked.src ∉ s.lpIds) ∨
    ((asked.uid ≠ 0 ∧ asked.ts.sequence ≠ 0) ∧ NoRoute cfg s asked)

theorem routedDst_eq_none_iff {s : Simulation Q σ} {asked : Event} :
    routedDst cfg s asked = none ↔ NoRoute cfg s asked := by
  unfold routedDst resolvedDst NoRoute
  by_cases htarget : asked.target = 0
  · simp [htarget]
  · rw [if_neg htarget]
    cases hdir : cfg.directoryForEntity with
    | none => simp [htarget]
    | some directoryForEntity =>
        by_cases hzero : directoryForEntity asked.target = 0
        · simp [htarget, hzero]
        · simp [htarget, hzero]

theorem SameCounters.trans {c d e : LPContext σ} (h : SameCounters c d) (h' : SameCounters d e) :
    SameCounters c e :=
  ⟨h'.uid.trans h.uid, h'.normal.trans h.normal, h'.control.trans h.control⟩

namespace NoEffect

theorem trans {s t u : Simulation Q σ} (h : NoEffect s t) (h' : NoEffect t u) : NoEffect s u where
  pending := h'.pending.trans h.pending
  outbox := h'.outbox.trans h.outbox
  numbers id := (h.numbers id).trans (h'.numbers id)
  sentLog id := (h'.sentLog id).trans (h.sentLog id)
  inflight := ⟨h'.inflight.1.trans h.inflight.1, h'.inflight.2.trans h.inflight.2⟩
  colors := ⟨h'.colors.1.trans h.colors.1, h'.colors.2.1.trans h.colors.2.1, h'.colors.2.2.trans h.colors.2.2⟩
  sent := ⟨h'.sent.1.trans h.sent.1, h'.sent.2.trans h.sent.2⟩

theorem symm {s t : Simulation Q σ} (h : NoEffect s t) : NoEffect t s where
  pending := h.pending.symm
  outbox := h.outbox.symm
  numbers id := (h.numbers id).symm
  sentLog id := (h.sentLog id).symm
  inflight := ⟨h.inflight.1.symm, h.inflight.2.symm⟩
  colors := ⟨h.colors.1.symm, h.colors.2.1.symm, h.colors.2.2.symm⟩
  sent := ⟨h.sent.1.symm, h.sent.2.symm⟩

theorem directoryLps (s : Simulation Q σ) (dirs : List LPId) : NoEffect s { s with directoryLps := dirs } :=
  ⟨rfl, rfl, fun _ => ⟨rfl, rfl, rfl⟩, fun _ => rfl, ⟨rfl, rfl⟩, ⟨rfl, rfl, rfl⟩, ⟨rfl, rfl⟩⟩

theorem validate (cfg : SimulationConfig) (s : Simulation Q σ) : NoEffect s (validateInvariants cfg s) := by
  unfold validateInvariants
  split
  · exact ⟨rfl, rfl, fun _ => ⟨rfl, rfl, rfl⟩, fun _ => rfl, ⟨rfl, rfl⟩, ⟨rfl, rfl, rfl⟩, ⟨rfl, rfl⟩⟩
  · exact .directoryLps s s.directoryLps

end NoEffect

/-! ## Routing -/

/-- All but the noted directories is as it was. -/
def DirectoriesOnly (s t : Simulation Q σ) : Prop := ∃ dirs, t = { s with directoryLps := dirs }

theorem resolveTarget_directoriesOnly (cfg : SimulationConfig) (ev : Event) (s : Simulation Q σ) :
    DirectoriesOnly s (exec (resolveTarget cfg ev) s).2 := by
  unfold resolveTarget
  rw [exec_get_bind]
  cases cfg.directoryForEntity with
  | none => cases s.entityOwner ev.target <;> exact ⟨s.directoryLps, rfl⟩
  | some directoryForEntity =>
      dsimp only
      rw [exec_ite]
      split
      · exact ⟨s.directoryLps, rfl⟩
      · rw [exec_modify_bind]
        split <;> exact ⟨_, rfl⟩

theorem routeTarget_directoriesOnly (cfg : SimulationConfig) (ev : Event) (s : Simulation Q σ) :
    DirectoriesOnly s (exec (routeTarget cfg ev) s).2 := by
  unfold routeTarget
  rw [exec_ite]
  split
  · exact ⟨s.directoryLps, rfl⟩
  · apply exec_bind_cases (R := fun _ => DirectoriesOnly s) (T := fun _ => DirectoriesOnly s)
      (resolveTarget_directoriesOnly cfg ev s)
    · intro routed t ht
      rw [exec_ite]
      split <;> exact ht
    · exact fun _ _ ht => ht

/-! ## Numbers stay assigned -/

theorem sameCounters_routeTarget (cfg : SimulationConfig) (ev : Event) (s : Simulation Q σ) (id : LPId) :
    SameCounters (s.ctx id) ((exec (routeTarget cfg ev) s).2.ctx id) := by
  obtain ⟨dirs, ht⟩ := routeTarget_directoriesOnly cfg ev s
  rw [ht]
  exact ⟨rfl, rfl, rfl⟩

theorem sameCounters_logged (ev : Event) (s : Simulation Q σ) (id : LPId) :
    SameCounters (s.ctx id) ((logged ev s).ctx id) := by
  by_cases hid : id = ev.src
  · subst hid
    constructor <;> simp [logged, modifyCtx]
  · simpa [logged, modifyCtx, Function.update_of_ne hid] using SameCounters.mk rfl rfl rfl

theorem sameCounters_deliver (cause : SendCause) (cfg : SimulationConfig) (asked ev : Event) (s : Simulation Q σ)
    (id : LPId) : SameCounters (s.ctx id) ((exec (deliver cause cfg asked ev) s).2.ctx id) := by
  have hout := deliver_outcome cfg cause asked ev s
  generalize exec (deliver cause cfg asked ev) s = res at hout ⊢
  obtain ⟨r, t⟩ := res
  dsimp only at hout ⊢
  cases hout with
  | sent hlog hquiet =>
      have hkept := sameCounters_logged (stampColor cfg s ev) (posted cause cfg asked (stampColor cfg s ev) s) id
      rwa [← hquiet.ctx, posted_ctx] at hkept
  | unlogged hanti hsrc hquiet =>
      rw [hquiet.ctx, posted_ctx]
      exact ⟨rfl, rfl, rfl⟩

theorem succ_ne (x : UInt64) : x + 1 ≠ x := by
  intro h
  simp at h

/-- The counter that is to provide a uid moves on, whatever comes of it. -/
theorem assignUid_moves {asked : Event} {s : Simulation Q σ} (huid : asked.uid = 0) (hsrc : asked.src ∈ s.lpIds) :
    ((exec (assignUid asked) s).2.ctx asked.src).nextUid = (s.ctx asked.src).nextUid + 1 := by
  have hout := assignUid_outcome asked s
  generalize exec (assignUid asked) s = res at hout ⊢
  obtain ⟨r, t⟩ := res
  dsimp only at hout ⊢
  cases hout with
  | given hne => exact absurd huid hne
  | assigned => simp [bumpUid_eq]
  | exhausted => simp [bumpUid_eq]
  | unknown _ hunknown => exact absurd hsrc hunknown

theorem assignSequence_nextUid (cfg : SimulationConfig) (ev : Event) (s : Simulation Q σ) (id : LPId) :
    ((exec (assignSequence cfg ev) s).2.ctx id).nextUid = (s.ctx id).nextUid := by
  have hkept : ∀ normal control wraps,
      ((renumber ev.src (s.ctx ev.src).nextUid normal control wraps s).ctx id).nextUid = (s.ctx id).nextUid := by
    intro normal control wraps
    by_cases hid : id = ev.src
    · subst hid
      simp
    · simp [renumber, modifyCtx, Function.update_of_ne hid]
  have hout : SequenceOutcome cfg ev s _ _ := assignSequence_outcome ev s
  generalize exec (assignSequence cfg ev) s = res at hout ⊢
  obtain ⟨r, t⟩ := res
  dsimp only at hout ⊢
  cases hout with
  | given => rfl
  | unknown => rfl
  | plain => exact hkept ..
  | control => exact hkept ..
  | normal => exact hkept ..
  | exhaustedControl => exact hkept ..
  | exhaustedNormal => exact hkept ..

/-- The same of sequence numbers. -/
theorem assignSequence_moves {ev : Event} {s : Simulation Q σ} (hseq : ev.ts.sequence = 0)
    (hsrc : ev.src ∈ s.lpIds) :
    ¬ SameCounters (s.ctx ev.src) ((exec (assignSequence cfg ev) s).2.ctx ev.src) := by
  intro hsame
  have hnormal := hsame.normal
  have hcontrol := hsame.control
  have hout : SequenceOutcome cfg ev s _ _ := assignSequence_outcome ev s
  generalize exec (assignSequence cfg ev) s = res at hout hnormal hcontrol
  obtain ⟨r, t⟩ := res
  dsimp only at hout hnormal hcontrol
  cases hout with
  | given hne => exact absurd hseq hne
  | unknown _ hunknown => exact absurd hsrc hunknown
  | plain | normal | exhaustedNormal =>
      rw [bumpSeqNormal_eq, renumber_ctx_self] at hnormal
      exact succ_ne _ hnormal
  | control | exhaustedControl =>
      rw [bumpSeqControl_eq, renumber_ctx_self] at hcontrol
      exact succ_ne _ hcontrol

/-! ## The ways to fail -/

theorem exec_assignUid_given {asked : Event} (s : Simulation Q σ) (huid : asked.uid ≠ 0) :
    exec (assignUid asked) s = (.ok asked, s) := by
  unfold assignUid
  rw [exec_ite, if_pos huid]
  rfl

/-- A source that is missed when a number is to be assigned. -/
theorem exec_stamp_unknown (cfg : SimulationConfig) {asked : Event} {s : Simulation Q σ} (hauto : asked.uid = 0 ∨ asked.ts.sequence = 0)
    (hsrc : asked.src ∉ s.lpIds) : exec (stamp cfg asked) s = (.error "Unknown LPId", s) := by
  unfold stamp
  by_cases huid : asked.uid = 0
  · apply exec_bind_of_error
    unfold assignUid
    rw [exec_ite, if_neg (not_not.mpr huid), exec_lookupCtx_bind, if_neg hsrc]
  · have hseq : asked.ts.sequence = 0 := hauto.resolve_left huid
    rw [exec_bind_of_ok (exec_assignUid_given s huid)]
    apply exec_bind_of_error
    unfold assignSequence
    rw [exec_ite, if_neg (not_not.mpr hseq), exec_lookupCtx_bind, if_neg hsrc]

/-- With both numbers given there is only the routing to do. -/
theorem exec_stamp_given {asked : Event} (s : Simulation Q σ) (huid : asked.uid ≠ 0)
    (hseq : asked.ts.sequence ≠ 0) : exec (stamp cfg asked) s = exec (routeTarget cfg asked) s := by
  have hsequence : exec (assignSequence cfg asked) s = (.ok asked, s) := by
    unfold assignSequence
    rw [exec_ite, if_pos hseq]
    rfl
  unfold stamp
  rw [exec_bind_of_ok (exec_assignUid_given s huid), exec_bind_of_ok hsequence]

/-- A number was assigned, or used up. -/
theorem stamp_moves {asked : Event} {s : Simulation Q σ} (hauto : asked.uid = 0 ∨ asked.ts.sequence = 0)
    (hsrc : asked.src ∈ s.lpIds) :
    ¬ SameCounters (s.ctx asked.src) ((exec (stamp cfg asked) s).2.ctx asked.src) := by
  unfold stamp
  by_cases huid : asked.uid = 0
  · let Moved (t : Simulation Q σ) : Prop := (t.ctx asked.src).nextUid = (s.ctx asked.src).nextUid + 1
    have hmoved : ((exec (assignUid asked >>= fun ev => assignSequence cfg ev >>= routeTarget cfg) s).2.ctx
        asked.src).nextUid = (s.ctx asked.src).nextUid + 1 := by
      apply exec_bind_cases (R := fun _ => Moved) (T := fun _ => Moved) (assignUid_moves huid hsrc)
      · intro ev t ht
        have ht : Moved (exec (assignSequence cfg ev) t).2 := (assignSequence_nextUid cfg ev t asked.src).trans ht
        apply exec_bind_cases (R := fun _ => Moved) (T := fun _ => Moved) ht
        · exact fun ev t ht => (sameCounters_routeTarget cfg ev t asked.src).uid.trans ht
        · exact fun _ _ ht => ht
      · exact fun _ _ ht => ht
    intro hsame
    exact succ_ne _ (hmoved.symm.trans hsame.uid)
  · have hseq : asked.ts.sequence = 0 := hauto.resolve_left huid
    rw [exec_bind_of_ok (exec_assignUid_given s huid)]
    apply exec_bind_cases (R := fun _ (t : Simulation Q σ) => ¬ SameCounters (s.ctx asked.src) (t.ctx asked.src))
      (T := fun _ (t : Simulation Q σ) => ¬ SameCounters (s.ctx asked.src) (t.ctx asked.src))
      (assignSequence_moves hseq hsrc)
    · intro ev t ht hsame
      exact ht (hsame.trans (sameCounters_routeTarget cfg ev t asked.src).symm)
    · exact fun _ _ ht => ht

/-- Both numbers are given and the event is routed: what fails is the log, after the delivery. -/
theorem deliver_effect {cause : SendCause} {asked ev : Event} {s t : Simulation Q σ} {what : String}
    (h : exec (deliver cause cfg asked ev) s = (.error what, t)) : ¬ NoEffect s t := by
  have hout := deliver_outcome cfg cause asked ev s
  rw [h] at hout
  intro hno
  have hsame : t.weight = s.weight := by
    unfold Simulation.weight
    rw [hno.pending, hno.outbox]
  cases hout with
  | unlogged hanti hsrc hquiet =>
    rw [hquiet.weight, weight_posted] at hsame
    omega

/-! ## Failing sends -/

theorem NoEffect.routeTarget (cfg : SimulationConfig) (asked : Event) (s : Simulation Q σ) :
    NoEffect s (exec (routeTarget cfg asked) s).2 := by
  obtain ⟨dirs, ht⟩ := routeTarget_directoriesOnly cfg asked s
  rw [ht]
  exact .directoryLps s dirs

/-- A number that was assigned has no event. -/
theorem moved_of_error (cause : SendCause) (cfg : SimulationConfig) {asked : Event} {s : Simulation Q σ}
    (hauto : asked.uid = 0 ∨ asked.ts.sequence = 0) (hsrc : asked.src ∈ s.lpIds) :
    ¬ SameCounters (s.ctx asked.src)
      ((exec (stamp cfg asked >>= fun ev => deliver cause cfg asked ev) s).2.ctx asked.src) := by
  apply exec_bind_cases (R := fun _ (t : Simulation Q σ) => ¬ SameCounters (s.ctx asked.src) (t.ctx asked.src))
    (T := fun _ (t : Simulation Q σ) => ¬ SameCounters (s.ctx asked.src) (t.ctx asked.src))
    (stamp_moves hauto hsrc)
  · intro ev t ht hsame
    exact ht (hsame.trans (sameCounters_deliver cause cfg asked ev t asked.src).symm)
  · exact fun _ _ ht => ht

/-- With both numbers given, a send that fails has no effect if and only if it fails in the routing. -/
theorem given_no_effect_iff {cause : SendCause} {asked : Event} {s t : Simulation Q σ} {what : String}
    (huid : asked.uid ≠ 0) (hseq : asked.ts.sequence ≠ 0)
    (h : exec (stamp cfg asked >>= fun ev => deliver cause cfg asked ev) s = (.error what, t)) :
    NoEffect s t ↔ NoRoute cfg s asked := by
  have hexact := routeTarget_exact cfg asked s
  have hrouted := NoEffect.routeTarget cfg asked s
  have hstamp : exec (stamp cfg asked) s = exec (routeTarget cfg asked) s := exec_stamp_given s huid hseq
  rw [← routedDst_eq_none_iff]
  generalize exec (routeTarget cfg asked) s = res at hexact hrouted hstamp
  obtain ⟨what' | ev, t'⟩ := res
  · -- routing fails
    rw [exec_bind_of_error hstamp] at h
    obtain ⟨-, rfl⟩ := Prod.mk.inj h
    exact iff_of_true hrouted (Option.map_eq_none_iff.mp hexact.symm)
  · -- the event is delivered, and not logged
    rw [exec_bind_of_ok hstamp] at h
    have hsome : routedDst cfg s asked ≠ none := by
      intro hnone
      rw [hnone] at hexact
      cases hexact
    exact iff_of_false (fun hno => deliver_effect h (hrouted.symm.trans hno)) hsome

/-- A send that fails has no effect if and only if it is refused before it has assigned a number. -/
theorem failed_send_no_effect_iff {cause : SendCause} {asked : Event} {s t : Simulation Q σ}
    (h : SendThrows cause cfg asked s t) : NoEffect s t ↔ RefusedAtOnce cfg s asked := by
  obtain ⟨⟨what, hexec⟩, -⟩ := h
  have hquiet : Quiet s (validateInvariants cfg s) := quiet_validate cfg s
  have hvalid := NoEffect.validate cfg s
  replace hexec : exec (stamp cfg asked >>= fun ev => deliver cause cfg asked ev) (validateInvariants cfg s) =
      (.error what, t) := hexec
  have howner : NoRoute cfg (validateInvariants cfg s) asked ↔ NoRoute cfg s asked := by
    unfold NoRoute
    rw [hquiet]
  have hfrom : NoEffect s t ↔ NoEffect (validateInvariants cfg s) t :=
    ⟨fun hno => hvalid.symm.trans hno, fun hno => hvalid.trans hno⟩
  rw [hfrom]
  generalize validateInvariants cfg s = s₀ at *
  by_cases hauto : asked.uid = 0 ∨ asked.ts.sequence = 0
  · have hgiven : ¬ (asked.uid ≠ 0 ∧ asked.ts.sequence ≠ 0) := fun hne => hauto.elim hne.1 hne.2
    by_cases hsrc : asked.src ∈ s.lpIds
    · have hmoved := moved_of_error cause cfg hauto (hquiet.lpIds ▸ hsrc)
      rw [hexec] at hmoved
      refine iff_of_false (fun hno => hmoved (hno.numbers asked.src)) ?_
      rintro (⟨-, hunknown⟩ | ⟨hne, -⟩)
      · exact hunknown hsrc
      · exact hgiven hne
    · have hstamp := exec_stamp_unknown cfg hauto (hquiet.lpIds ▸ hsrc)
      rw [exec_bind_of_error hstamp] at hexec
      obtain ⟨-, rfl⟩ := Prod.mk.inj hexec
      exact iff_of_true (.directoryLps _ _) (Or.inl ⟨hauto, hsrc⟩)
  · have hne := not_or.mp hauto
    rw [given_no_effect_iff hne.1 hne.2 hexec, howner]
    constructor
    · exact fun hroute => Or.inr ⟨hne, hroute⟩
    · rintro (⟨hzero, -⟩ | ⟨-, hroute⟩)
      · exact absurd hzero hauto
      · exact hroute

/-- A kernel that hosts the LP 1. -/
def soloKernel : Simulation sortedEventQueue Unit := { lpIds := [1], ctx := fun _ => { lp := () } }

/-- An event of an unknown source that is to be numbered is refused at once. -/
theorem failed_send_no_effect_unknown :
    ∃ t, SendThrows .host {} { ts := ⟨5, 0⟩, src := 2, dst := 1 } soloKernel t ∧ NoEffect soloKernel t := by
  have hthrows : SendThrows .host {} { ts := ⟨5, 0⟩, src := 2, dst := 1 } soloKernel soloKernel :=
    ⟨⟨_, rfl⟩, by decide⟩
  exact ⟨_, hthrows, (failed_send_no_effect_iff hthrows).mpr (Or.inl (by decide))⟩

/-- An event of an unknown source, with its numbers given. -/
def strayEvent : Event := { ts := ⟨5, 1⟩, src := 2, dst := 1, uid := 1 }

/-- An event of the LP 1 without a route. -/
def lostEvent : Event := { ts := ⟨5, 0⟩, src := 1, dst := unsetDst, target := 7 }

/-- The stray event is in the queue when its source is missed. The lost event uses up a uid and a sequence
number. -/
theorem failed_sends_have_effects :
    (∃ t, SendThrows .host {} strayEvent soloKernel t ∧ sortedEventQueue.elems t.pending = {strayEvent} ∧
      ¬ NoEffect soloKernel t) ∧
    ∃ t, SendThrows .host {} lostEvent soloKernel t ∧
      ((t.ctx 1).nextUid, (t.ctx 1).nextSeqNormal) = (2, 2) ∧ ¬ NoEffect soloKernel t := by
  constructor
  · refine ⟨(exec (send .host {} strayEvent) soloKernel).2, ⟨⟨"Unknown LPId", rfl⟩, by decide⟩, by decide,
      fun hno => ?_⟩
    exact absurd (congrArg sortedEventQueue.elems hno.pending) (by decide)
  · refine ⟨(exec (send .host {} lostEvent) soloKernel).2, ⟨⟨_, Prod.ext rfl rfl⟩, by decide⟩, by decide,
      fun hno => ?_⟩
    exact absurd (hno.numbers 1).uid (by decide)

end WarpSim

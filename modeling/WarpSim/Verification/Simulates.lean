import WarpSim.Verification.Moves

/-! # The kernel makes moves only -/

namespace WarpSim

variable {Q : EventQueue} {σ : Type} {model : Model σ} {cfg : SimulationConfig}

open Prog Simulation

/-! ## Quiet steps -/

theorem Quiet.refl (s : Simulation Q σ) : Quiet s s := rfl

theorem Quiet.trans {s s' s'' : Simulation Q σ} (h : Quiet s s') (h' : Quiet s' s'') :
    Quiet s s'' := by
  unfold Quiet at *
  rw [h] at h'
  exact h'

theorem quiet_validate (cfg : SimulationConfig) (s : Simulation Q σ) : Quiet s (validateInvariants cfg s) := by
  unfold validateInvariants
  split <;> rfl

/-! ## Stamping -/

theorem exec_lookupCtx_bind {α : Type} (id : LPId) (k : LPContext σ → KernelM Q σ α)
    (s : Simulation Q σ) :
    exec (lookupCtx id >>= k) s =
      if id ∈ s.lpIds then exec (k (s.ctx id)) s else (.error "Unknown LPId", s) := by
  by_cases h : id ∈ s.lpIds
  · have hok : exec (lookupCtx id) s = (.ok (s.ctx id), s) := by simp [lookupCtx, h]
    rw [exec_bind_of_ok hok, if_pos h]
  · have herror : exec (lookupCtx id) s = (.error "Unknown LPId", s) := by simp [lookupCtx, h]
    rw [exec_bind_of_error herror, if_neg h]

@[simp] theorem renumber_ctx_self (id : LPId) (u n k : UInt64) (w : Bool) (s : Simulation Q σ) :
    (renumber id u n k w s).ctx id =
      { s.ctx id with nextUid := u, nextSeqNormal := n, nextSeqControl := k } := by
  simp [renumber, Simulation.modifyCtx]

@[simp] theorem renumber_lpIds (id : LPId) (u n k : UInt64) (w : Bool) (s : Simulation Q σ) :
    (renumber id u n k w s).lpIds = s.lpIds := rfl

theorem renumber_renumber (id : LPId) (u n k u' n' k' : UInt64) (w w' : Bool)
    (s : Simulation Q σ) :
    renumber id u n k w (renumber id u' n' k' w' s) = renumber id u n k (w' || w) s := by
  simp [renumber, Simulation.modifyCtx, Bool.or_assoc]

theorem renumber_same (id : LPId) (s : Simulation Q σ) :
    renumber id (s.ctx id).nextUid (s.ctx id).nextSeqNormal (s.ctx id).nextSeqControl false s = s := by
  simp [renumber, Simulation.modifyCtx]

theorem bumpUid_eq (id : LPId) (s : Simulation Q σ) :
    bumpUid id s = renumber id ((s.ctx id).nextUid + 1) (s.ctx id).nextSeqNormal
      (s.ctx id).nextSeqControl ((s.ctx id).nextUid + 1 == 0) s := rfl

theorem bumpSeqNormal_eq (id : LPId) (s : Simulation Q σ) :
    bumpSeqNormal id s = renumber id (s.ctx id).nextUid ((s.ctx id).nextSeqNormal + 1)
      (s.ctx id).nextSeqControl ((s.ctx id).nextSeqNormal + 1 == 0) s := rfl

theorem bumpSeqControl_eq (id : LPId) (s : Simulation Q σ) :
    bumpSeqControl id s = renumber id (s.ctx id).nextUid (s.ctx id).nextSeqNormal
      ((s.ctx id).nextSeqControl + 1) ((s.ctx id).nextSeqControl + 1 == 0) s := rfl

/-- The ways in which `assignUid` can end. -/
inductive UidOutcome (asked : Event) (s : Simulation Q σ) :
    Except String Event → Simulation Q σ → Prop where
  | given : asked.uid ≠ 0 → UidOutcome asked s (.ok asked) s
  | assigned : asked.uid = 0 → asked.src ∈ s.lpIds → (s.ctx asked.src).nextUid ≠ 0 →
      UidOutcome asked s (.ok { asked with uid := (s.ctx asked.src).nextUid }) (bumpUid asked.src s)
  | exhausted {what} : asked.uid = 0 → asked.src ∈ s.lpIds → (s.ctx asked.src).nextUid = 0 →
      UidOutcome asked s (.error what) (bumpUid asked.src s)
  | unknown {what} : asked.uid = 0 → asked.src ∉ s.lpIds → UidOutcome asked s (.error what) s

theorem assignUid_outcome (asked : Event) (s : Simulation Q σ) :
    UidOutcome asked s (exec (assignUid asked) s).1 (exec (assignUid asked) s).2 := by
  unfold assignUid
  rw [exec_ite]
  split
  · next h => exact .given h
  · next h =>
    have huid : asked.uid = 0 := not_not.mp h
    rw [exec_lookupCtx_bind]
    split
    · next hsrc =>
      rw [exec_modify_bind, exec_ite]
      split
      · next hzero => exact .exhausted huid hsrc hzero
      · next hzero => exact .assigned huid hsrc hzero
    · next hsrc => exact .unknown huid hsrc

/-- The ways in which `assignSequence` can end. -/
inductive SequenceOutcome (cfg : SimulationConfig) (ev : Event) (s : Simulation Q σ) :
    Except String Event → Simulation Q σ → Prop where
  | given : ev.ts.sequence ≠ 0 → SequenceOutcome cfg ev s (.ok ev) s
  | plain : ev.ts.sequence = 0 → ev.src ∈ s.lpIds → cfg.isControlEvent = none →
      SequenceOutcome cfg ev s (.ok { ev with ts := ⟨ev.ts.time, (s.ctx ev.src).nextSeqNormal⟩ })
        (bumpSeqNormal ev.src s)
  | control {isControlEvent} : ev.ts.sequence = 0 → ev.src ∈ s.lpIds →
      cfg.isControlEvent = some isControlEvent → isControlEvent ev = true →
      (s.ctx ev.src).nextSeqControl ≠ 0 →
      SequenceOutcome cfg ev s (.ok { ev with ts := ⟨ev.ts.time, (s.ctx ev.src).nextSeqControl⟩ })
        (bumpSeqControl ev.src s)
  | normal {isControlEvent} : ev.ts.sequence = 0 → ev.src ∈ s.lpIds →
      cfg.isControlEvent = some isControlEvent → isControlEvent ev = false →
      (s.ctx ev.src).nextSeqNormal ≠ 0 →
      SequenceOutcome cfg ev s
        (.ok { ev with ts := ⟨ev.ts.time, ((1 : UInt64) <<< 63) ||| (s.ctx ev.src).nextSeqNormal⟩ })
        (bumpSeqNormal ev.src s)
  | exhaustedControl {isControlEvent what} : ev.ts.sequence = 0 →
      cfg.isControlEvent = some isControlEvent → isControlEvent ev = true →
      (s.ctx ev.src).nextSeqControl = 0 →
      SequenceOutcome cfg ev s (.error what) (bumpSeqControl ev.src s)
  | exhaustedNormal {isControlEvent what} : ev.ts.sequence = 0 →
      cfg.isControlEvent = some isControlEvent → isControlEvent ev = false →
      (s.ctx ev.src).nextSeqNormal = 0 →
      SequenceOutcome cfg ev s (.error what) (bumpSeqNormal ev.src s)
  | unknown {what} : ev.ts.sequence = 0 → ev.src ∉ s.lpIds →
      SequenceOutcome cfg ev s (.error what) s

theorem assignSequence_outcome (ev : Event) (s : Simulation Q σ) :
    SequenceOutcome cfg ev s (exec (assignSequence cfg ev) s).1
      (exec (assignSequence cfg ev) s).2 := by
  unfold assignSequence
  rw [exec_ite]
  split
  · next h => exact .given h
  · next h =>
    have hseq : ev.ts.sequence = 0 := not_not.mp h
    rw [exec_lookupCtx_bind]
    split
    · next hsrc =>
      split
      · next hcontrol => exact .plain hseq hsrc hcontrol
      · next isControlEvent hcontrol =>
        rw [exec_ite]
        split
        · next hev =>
          rw [exec_modify_bind, exec_ite]
          split
          · next hzero => exact .exhaustedControl hseq hcontrol hev hzero
          · next hzero => exact .control hseq hsrc hcontrol hev hzero
        · next hev =>
          rw [exec_modify_bind, exec_ite]
          split
          · next hzero => exact .exhaustedNormal hseq hcontrol (by simpa using hev) hzero
          · next hzero => exact .normal hseq hsrc hcontrol (by simpa using hev) hzero
    · next hsrc => exact .unknown hseq hsrc

theorem resolveTarget_spec (cfg : SimulationConfig) (ev : Event) (s : Simulation Q σ) :
    Quiet s (exec (resolveTarget cfg ev) s).2 ∧
      ((∃ dst, (exec (resolveTarget cfg ev) s).1 = .ok { ev with dst := dst } ∧
          (cfg.directoryForEntity = none → dst = (s.entityOwner ev.target).getD ev.dst)) ∨
        ∃ what, (exec (resolveTarget cfg ev) s).1 = .error what ∧ ¬ PlainRouting cfg s) := by
  unfold resolveTarget
  rw [exec_get_bind]
  split
  · next directoryForEntity hdir =>
    have hplain : ¬ PlainRouting cfg s := fun h => by simp [h.1] at hdir
    rw [exec_ite]
    split
    · exact ⟨Quiet.refl s, Or.inr ⟨_, rfl, hplain⟩⟩
    · rw [exec_modify_bind]
      refine ⟨rfl, Or.inl ?_⟩
      split
      · exact ⟨_, rfl, fun h => absurd (hdir.symm.trans h) (by simp)⟩
      · exact ⟨_, rfl, fun h => absurd (hdir.symm.trans h) (by simp)⟩
  · split
    · next owner howner =>
      exact ⟨Quiet.refl s, Or.inl ⟨_, rfl, fun _ => by rw [howner]; rfl⟩⟩
    · next howner => exact ⟨Quiet.refl s, Or.inl ⟨ev.dst, rfl, fun _ => by rw [howner]; rfl⟩⟩

/-- The ways in which `routeTarget` can end. -/
inductive RouteOutcome (cfg : SimulationConfig) (ev : Event) (s : Simulation Q σ) :
    Except String Event → Simulation Q σ → Prop where
  | routed {dst s'} : Quiet s s' → (ev.target = 0 → dst = ev.dst) →
      (cfg.directoryForEntity = none → ev.target ≠ 0 → dst = (s.entityOwner ev.target).getD ev.dst) →
      (PlainRouting cfg s → dst = ev.dst ∧ unroutable ev = none) →
      RouteOutcome cfg ev s (.ok { ev with dst := dst }) s'
  | refused {what s'} : Quiet s s' → (PlainRouting cfg s → unroutable ev = some what) →
      ev.target ≠ 0 → RouteOutcome cfg ev s (.error what) s'

theorem routeTarget_outcome (cfg : SimulationConfig) (ev : Event) (s : Simulation Q σ) :
    RouteOutcome cfg ev s (exec (routeTarget cfg ev) s).1 (exec (routeTarget cfg ev) s).2 := by
  unfold routeTarget
  rw [exec_ite]
  split
  · next h =>
    have hsame : RouteOutcome cfg ev s (.ok { ev with dst := ev.dst }) s :=
      .routed (Quiet.refl s) (fun _ => rfl) (fun _ h' => absurd h h') fun _ => ⟨rfl, by simp [unroutable, h]⟩
    exact hsame
  · next h =>
    obtain ⟨hquiet, ⟨dst, hres, howned⟩ | ⟨what, hres, hplain⟩⟩ := resolveTarget_spec cfg ev s
    · have hplain : PlainRouting cfg s → dst = ev.dst := fun hp => by
        rw [howned hp.1, hp.2]
        rfl
      rw [exec_bind_of_ok (Prod.ext hres rfl), exec_ite]
      split
      · next hdst =>
        refine .refused hquiet (fun hp => ?_) h
        have : ev.dst = unsetDst := (hplain hp).symm.trans hdst
        simp [unroutable, h, this]
      · next hdst =>
        refine .routed hquiet (fun h' => absurd h' h) (fun hd _ => howned hd) fun hp => ⟨hplain hp, ?_⟩
        have : ev.dst ≠ unsetDst := fun heq => hdst (by rw [hplain hp]; exact heq)
        simp [unroutable, this]
    · rw [exec_bind_of_error (Prod.ext hres rfl)]
      exact .refused hquiet (fun hp => absurd hp hplain) h

/-- What `assignUid` contributes to `Stamped`. -/
structure UidStamped (s : Simulation Q σ) (asked ev : Event) (uid : UInt64) (wraps : Bool) :
    Prop where
  frame : ev = { asked with uid := ev.uid }
  given : asked.uid ≠ 0 → ev.uid = asked.uid ∧ uid = (s.ctx asked.src).nextUid
  auto : asked.uid = 0 →
    ev.uid = (s.ctx asked.src).nextUid ∧ uid = (s.ctx asked.src).nextUid + 1
  ne_zero : ev.uid ≠ 0
  wraps : wraps = false → asked.uid = 0 → uid ≠ 0
  registered : asked.uid = 0 → asked.src ∈ s.lpIds

theorem UidOutcome.stamped {asked ev : Event} {s s' : Simulation Q σ}
    (h : UidOutcome asked s (.ok ev) s') : ∃ uid wraps, UidStamped s asked ev uid wraps ∧
      s' = renumber asked.src uid (s.ctx asked.src).nextSeqNormal (s.ctx asked.src).nextSeqControl
        wraps s := by
  cases h with
  | given huid =>
      refine ⟨(s.ctx asked.src).nextUid, false, ⟨rfl, fun _ => ⟨rfl, rfl⟩, fun h => absurd h huid,
        huid, fun _ h => absurd h huid, fun h => absurd h huid⟩, (renumber_same _ _).symm⟩
  | assigned huid hsrc hne =>
      refine ⟨_, _, ⟨rfl, fun h => absurd huid h, fun _ => ⟨rfl, rfl⟩, hne, fun hw _ => ?_,
        fun _ => hsrc⟩, bumpUid_eq _ _⟩
      simpa using hw

/-- What `assignSequence` contributes to `Stamped`. -/
structure SequenceStamped (cfg : SimulationConfig) (ids : List LPId) (c : LPContext σ)
    (asked ev : Event) (normal control : UInt64) (wraps : Bool) : Prop where
  frame : ev = { asked with ts := ev.ts }
  time : ev.ts.time = asked.ts.time
  given : asked.ts.sequence ≠ 0 →
    ev.ts = asked.ts ∧ normal = c.nextSeqNormal ∧ control = c.nextSeqControl
  ne_zero : c.nextSeqNormal ≠ 0 → ev.ts.sequence ≠ 0
  tagged : cfg.isControlEvent ≠ none → ev.ts.sequence ≠ 0
  counters_ne_zero : wraps = false → c.nextSeqNormal ≠ 0 → normal ≠ 0
  registered : asked.ts.sequence = 0 → asked.src ∈ ids

theorem tagged_ne_zero (n : UInt64) : ((1 : UInt64) <<< 63) ||| n ≠ 0 := by
  intro h
  have hbits := congrArg UInt64.toBitVec h
  have hbit := congrArg (fun b => b.getLsbD 63) hbits
  simp at hbit

theorem SequenceOutcome.stamped {asked ev : Event} {s s' : Simulation Q σ}
    (h : SequenceOutcome cfg asked s (.ok ev) s') : ∃ normal control wraps,
      SequenceStamped cfg s.lpIds (s.ctx asked.src) asked ev normal control wraps ∧
      s' = renumber asked.src (s.ctx asked.src).nextUid normal control wraps s := by
  cases h with
  | given hseq =>
      exact ⟨_, _, false, ⟨rfl, rfl, fun _ => ⟨rfl, rfl, rfl⟩, fun _ => hseq, fun _ => hseq,
        fun _ h => h, fun h => absurd h hseq⟩, (renumber_same _ _).symm⟩
  | plain hseq hsrc hcfg =>
      refine ⟨_, _, _, ⟨rfl, rfl, fun h => absurd hseq h, fun h => h, fun h => absurd hcfg h,
        fun hw _ => ?_, fun _ => hsrc⟩, bumpSeqNormal_eq _ _⟩
      simpa using hw
  | control hseq hsrc hcfg hev hne =>
      exact ⟨_, _, _, ⟨rfl, rfl, fun h => absurd hseq h, fun _ => hne, fun _ => hne, fun _ h => h,
        fun _ => hsrc⟩, bumpSeqControl_eq _ _⟩
  | normal hseq hsrc hcfg hev hne =>
      refine ⟨_, _, _, ⟨rfl, rfl, fun h => absurd hseq h, fun _ => tagged_ne_zero _,
        fun _ => tagged_ne_zero _, fun hw _ => ?_, fun _ => hsrc⟩, bumpSeqNormal_eq _ _⟩
      simpa using hw

/-- The ways in which `stamp` can end. -/
inductive StampOutcome (cfg : SimulationConfig) (asked : Event) (s : Simulation Q σ) :
    Except String Event → Simulation Q σ → Prop where
  | stamped {ev uid normal control wraps s'} :
      Stamped cfg s asked ev uid normal control wraps →
      Quiet (renumber asked.src uid normal control wraps s) s' → StampOutcome cfg asked s (.ok ev) s'
  | refused {what uid normal control wraps s'} :
      Refusable cfg s asked what →
      (wraps = false → (s.ctx asked.src).nextUid ≤ uid ∧
        ((s.ctx asked.src).nextSeqNormal ≠ 0 → normal ≠ 0)) →
      Quiet (renumber asked.src uid normal control wraps s) s' →
      StampOutcome cfg asked s (.error what) s'

theorem le_succ_of_ne_zero {n : UInt64} (h : n + 1 ≠ 0) : n ≤ n + 1 := by
  have hlt := n.toNat_lt
  rw [UInt64.le_iff_toNat_le, UInt64.toNat_add]
  have hne : (n.toNat + 1) % 2 ^ 64 ≠ 0 := by
    intro hzero
    apply h
    rw [← UInt64.toNat_inj, UInt64.toNat_add]
    simpa using hzero
  simp only [UInt64.toNat_one]
  omega

theorem UidStamped.le {s : Simulation Q σ} {asked ev : Event} {uid : UInt64} {wraps : Bool}
    (h : UidStamped s asked ev uid wraps) (hw : wraps = false) :
    (s.ctx asked.src).nextUid ≤ uid := by
  by_cases huid : asked.uid = 0
  · have hne := h.wraps hw huid
    rw [(h.auto huid).2] at hne ⊢
    exact le_succ_of_ne_zero hne
  · rw [(h.given huid).2]
    exact UInt64.le_refl _

theorem UidOutcome.refused {asked : Event} {s s' : Simulation Q σ} {what : String}
    (h : UidOutcome asked s (.error what) s') : ∃ uid wraps,
      (asked.src ∈ s.lpIds → (s.ctx asked.src).nextUid = 0) ∧ asked.uid = 0 ∧
      (wraps = false → (s.ctx asked.src).nextUid ≤ uid) ∧
      s' = renumber asked.src uid (s.ctx asked.src).nextSeqNormal (s.ctx asked.src).nextSeqControl
        wraps s := by
  cases h with
  | exhausted huid hsrc hzero =>
      exact ⟨_, _, fun _ => hzero, huid, fun hw => le_succ_of_ne_zero (by simpa using hw), bumpUid_eq _ _⟩
  | unknown huid hsrc =>
      exact ⟨_, false, fun h => absurd h hsrc, huid, fun _ => UInt64.le_refl _,
        (renumber_same _ _).symm⟩

theorem SequenceOutcome.refused {asked : Event} {s s' : Simulation Q σ} {what : String}
    (h : SequenceOutcome cfg asked s (.error what) s') : ∃ normal control wraps,
      asked.ts.sequence = 0 ∧ (asked.src ∉ s.lpIds ∨ cfg.isControlEvent ≠ none) ∧
      (wraps = false → (s.ctx asked.src).nextSeqNormal ≠ 0 → normal ≠ 0) ∧
      s' = renumber asked.src (s.ctx asked.src).nextUid normal control wraps s := by
  cases h with
  | exhaustedControl hseq hcfg _ _ =>
      exact ⟨_, _, _, hseq, Or.inr (by simp [hcfg]), fun _ h => h, bumpSeqControl_eq _ _⟩
  | exhaustedNormal hseq hcfg _ hzero =>
      exact ⟨_, _, _, hseq, Or.inr (by simp [hcfg]), fun _ h => absurd hzero h, bumpSeqNormal_eq _ _⟩
  | unknown hseq hsrc =>
      exact ⟨_, _, false, hseq, Or.inl hsrc, fun _ h => h, (renumber_same _ _).symm⟩

theorem stamp_outcome (asked : Event) (s : Simulation Q σ) :
    StampOutcome cfg asked s (exec (stamp cfg asked) s).1 (exec (stamp cfg asked) s).2 := by
  unfold stamp
  refine exec_bind_cases (assignUid_outcome asked s) (fun ev₁ s₁ huid => ?_) fun what s₁ huid => ?_
  swap
  · obtain ⟨uid, w, hzero, hunset, hle, hs₁⟩ := huid.refused
    refine .refused ⟨fun _ hin hne => absurd (hzero hin) hne, fun _ => Or.inl hunset⟩
      (fun hw => ⟨hle hw, fun h => h⟩) (show Quiet (renumber asked.src uid
        (s.ctx asked.src).nextSeqNormal (s.ctx asked.src).nextSeqControl w s) s₁ from ?_)
    rw [← hs₁]
    exact Quiet.refl _
  obtain ⟨uid, w₁, hu, hs₁⟩ := huid.stamped
  have hsrc₁ : ev₁.src = asked.src := by rw [hu.frame]
  have hts₁ : ev₁.ts = asked.ts := by rw [hu.frame]
  have hctx₁ : s₁.ctx asked.src = { s.ctx asked.src with nextUid := uid } := by
    rw [hs₁, renumber_ctx_self]
  have hids₁ : s₁.lpIds = s.lpIds := by rw [hs₁, renumber_lpIds]
  refine exec_bind_cases (assignSequence_outcome ev₁ s₁) (fun ev₂ s₂ hseq => ?_)
    fun what s₂ hseq => ?_
  swap
  · obtain ⟨normal, control, w₂, hzero, hcause, hne, hs₂⟩ := hseq.refused
    rw [hsrc₁, hctx₁] at hs₂
    rw [hs₁, renumber_renumber] at hs₂
    rw [hts₁] at hzero
    rw [hsrc₁, hctx₁] at hne
    rw [hsrc₁, hids₁] at hcause
    refine .refused ⟨fun _ _ _ h => absurd hzero h, fun _ => Or.inr ⟨hzero, hcause⟩⟩ (fun hw => ?_)
      (by rw [← hs₂]; exact Quiet.refl _)
    obtain ⟨hw₁, hw₂⟩ := Bool.or_eq_false_iff.mp hw
    exact ⟨hu.le hw₁, hne hw₂⟩
  obtain ⟨normal, control, w₂, hq, hs₂⟩ := hseq.stamped
  rw [hsrc₁, hctx₁] at hs₂
  rw [hs₁, renumber_renumber] at hs₂
  rw [hsrc₁, hctx₁, hids₁] at hq
  have hplain : PlainRouting cfg s₂ ↔ PlainRouting cfg s := by rw [hs₂]; rfl
  have huid₂ : ev₂.uid = ev₁.uid := by rw [hq.frame]
  have hev₂ : ev₂ = { asked with ts := ev₂.ts, uid := ev₂.uid } := by
    rw [hq.frame, hu.frame]
  have hdst₂ : ev₂.dst = asked.dst := by rw [hev₂]
  have htarget₂ : ev₂.target = asked.target := by rw [hev₂]
  have hunroutable : unroutable ev₂ = unroutable asked := by
    unfold unroutable
    rw [hdst₂, htarget₂]
  have hout := routeTarget_outcome cfg ev₂ s₂
  generalize exec (routeTarget cfg ev₂) s₂ = res at hout ⊢
  obtain ⟨r, s₃⟩ := res
  dsimp only at hout ⊢
  cases hout with
  | refused hquiet hpl htarget =>
      refine .refused ⟨fun hp _ _ _ => hunroutable ▸ hpl (hplain.mpr hp),
        fun h => absurd (htarget₂.trans h) htarget⟩ (fun hw => ?_) (hs₂ ▸ hquiet)
      obtain ⟨hw₁, hw₂⟩ := Bool.or_eq_false_iff.mp hw
      exact ⟨hu.le hw₁, hq.counters_ne_zero hw₂⟩
  | routed hquiet huntargeted howned hpl =>
      refine .stamped ?_ (hs₂ ▸ hquiet)
      exact {
        frame := by rw [hev₂]
        time := hq.time.trans (congrArg TimeStamp.time hts₁)
        uid_given := fun h => ⟨huid₂.trans (hu.given h).1, (hu.given h).2⟩
        uid_auto := fun h => ⟨huid₂.trans (hu.auto h).1, (hu.auto h).2⟩
        uid_ne_zero := fun h => hu.ne_zero (huid₂.symm.trans h)
        uid_wraps := fun hw => hu.wraps (Bool.or_eq_false_iff.mp hw).1
        sequence_given := fun h => hts₁ ▸ hq.given (hts₁ ▸ h)
        sequence_ne_zero := hq.ne_zero
        sequence_tagged := hq.tagged
        counters_ne_zero := fun hw => hq.counters_ne_zero (Bool.or_eq_false_iff.mp hw).2
        untargeted := fun h => (huntargeted (htarget₂.trans h)).trans hdst₂
        owned := fun hd ht => by
          have hdst := howned hd (htarget₂ ▸ ht)
          rw [htarget₂, hdst₂, show s₂.entityOwner = s.entityOwner by rw [hs₂]; rfl] at hdst
          exact hdst
        plain := fun hp => (hpl (hplain.mpr hp)).1.trans hdst₂
        routed := fun hp => hunroutable ▸ (hpl (hplain.mpr hp)).2
        registered := fun h => h.elim hu.registered fun h => hsrc₁ ▸ hq.registered (hts₁ ▸ h) }

/-! ## Delivering -/

theorem Quiet.logged {s s' : Simulation Q σ} (h : Quiet s s') (ev : Event) :
    Quiet (logged ev s) (logged ev s') := by
  unfold Quiet at h
  rw [h]
  rfl

theorem logged_of_anti {ev : Event} (h : ev.isAnti = true) (s : Simulation Q σ) :
    logged ev s = s := by
  simp [WarpSim.logged, logEntries, h, Simulation.modifyCtx]

theorem Quiet.trackInflightSend {s s' : Simulation Q σ} (h : Quiet s s') (ev : Event) :
    Quiet (s.trackInflightSend ev) (s'.trackInflightSend ev) := by
  unfold Quiet at h
  rw [h]
  unfold Simulation.trackInflightSend Simulation.inflightTs?
  dsimp only
  split <;> rfl

theorem Quiet.posted {s s' : Simulation Q σ} (h : Quiet s s') (cause : SendCause)
    (asked ev : Event) : Quiet (posted cause cfg asked ev s) (posted cause cfg asked ev s') := by
  unfold WarpSim.posted
  dsimp only
  split
  · unfold Quiet at h
    rw [h]
    rfl
  · split
    · have h' := h.trackInflightSend ev
      unfold Quiet at h'
      rw [h']
      rfl
    · unfold Quiet at h
      rw [h]
      rfl

theorem Quiet.ctx {s s' : Simulation Q σ} (h : Quiet s s') : s'.ctx = s.ctx := by rw [h]

theorem Quiet.lpIds {s s' : Simulation Q σ} (h : Quiet s s') : s'.lpIds = s.lpIds := by rw [h]

/-- The ways in which `logSend` can end. -/
theorem logSend_spec (ev : Event) (s : Simulation Q σ) :
    (ev.isAnti = true ∨ ev.src ∈ s.lpIds) ∧ exec (logSend ev) s = (.ok (), logged ev s) ∨
      ev.isAnti = false ∧ ev.src ∉ s.lpIds ∧ exec (logSend ev) s = (.error "Unknown LPId", s) := by
  unfold logSend
  rw [exec_ite]
  split
  · next h => exact Or.inl ⟨Or.inl h, by rw [logged_of_anti h]; rfl⟩
  · next h =>
    rw [exec_lookupCtx_bind]
    split
    · next hsrc => exact Or.inl ⟨Or.inr hsrc, by simp [logged, logEntries, h, Simulation.modifyCtx]⟩
    · next hsrc => exact Or.inr ⟨by simpa using h, hsrc, rfl⟩

/-- The ways in which `deliver` can end. -/
inductive DeliverOutcome (cause : SendCause) (cfg : SimulationConfig) (asked ev : Event)
    (s : Simulation Q σ) : Except String Event → Simulation Q σ → Prop where
  | sent {s'} : ev.isAnti = true ∨ ev.src ∈ s.lpIds →
      Quiet (logged (stampColor cfg s ev) (posted cause cfg asked (stampColor cfg s ev) s)) s' →
      DeliverOutcome cause cfg asked ev s (.ok (stampColor cfg s ev)) s'
  | unlogged {what s'} : ev.isAnti = false → ev.src ∉ s.lpIds →
      Quiet (posted cause cfg asked (stampColor cfg s ev) s) s' →
      DeliverOutcome cause cfg asked ev s (.error what) s'

theorem stampColor_src (s : Simulation Q σ) (ev : Event) : (stampColor cfg s ev).src = ev.src := by
  unfold stampColor
  split <;> rfl

theorem stampColor_isAnti (s : Simulation Q σ) (ev : Event) :
    (stampColor cfg s ev).isAnti = ev.isAnti := by
  unfold stampColor
  split <;> rfl

theorem stampColor_ts (s : Simulation Q σ) (ev : Event) : (stampColor cfg s ev).ts = ev.ts := by
  unfold stampColor
  split <;> rfl

theorem stampColor_dst (s : Simulation Q σ) (ev : Event) : (stampColor cfg s ev).dst = ev.dst := by
  unfold stampColor
  split <;> rfl

/-- Once the event is out, `deliver` logs it and ends. -/
theorem DeliverOutcome.of_posted {cause : SendCause} {asked ev : Event} {s s' : Simulation Q σ}
    {m : KernelM Q σ Event} (hs' : Quiet (posted cause cfg asked (stampColor cfg s ev) s) s')
    (hm : ∃ f : Simulation Q σ → Simulation Q σ, (∀ t, Quiet t (f t)) ∧
      m = logSend (stampColor cfg s ev) >>= fun _ => modify f >>= fun _ => pure (stampColor cfg s ev)) :
    DeliverOutcome cause cfg asked ev s (exec m s').1 (exec m s').2 := by
  obtain ⟨f, hf, rfl⟩ := hm
  have hids : s'.lpIds = s.lpIds := by rw [hs'.lpIds, posted_eq]
  rcases logSend_spec (stampColor cfg s ev) s' with ⟨hsrc, hlog⟩ | ⟨hanti, hsrc, hlog⟩
  · rw [exec_bind_of_ok hlog, exec_modify_bind]
    rw [stampColor_isAnti, stampColor_src, hids] at hsrc
    exact .sent hsrc ((hs'.logged _).trans (hf _))
  · rw [exec_bind_of_error hlog]
    rw [stampColor_isAnti] at hanti
    rw [stampColor_src, hids] at hsrc
    exact .unlogged hanti hsrc hs'

theorem stampColor_of_ack (h : cfg.gvtMode = .ackInflight) (s : Simulation Q σ) (ev : Event) :
    stampColor cfg s ev = ev := if_neg (not_not.mpr h)

theorem stampColor_of_colored (h : cfg.gvtMode ≠ .ackInflight) (s : Simulation Q σ) (ev : Event) :
    stampColor cfg s ev = { ev with gvtColor := s.gvtColor } := if_pos h

theorem posted_local (cause : SendCause) (asked : Event) {ev : Event} (s : Simulation Q σ)
    (h : cfg.rankOf ev.dst = cfg.rank) :
    posted cause cfg asked ev s = recordSend cause asked ev cfg.rank (s.enqueue ev) := by
  simp [posted, h]

theorem posted_ack (cause : SendCause) (asked : Event) {ev : Event} (s : Simulation Q σ)
    (h : cfg.rankOf ev.dst ≠ cfg.rank) (hmode : cfg.gvtMode = .ackInflight) :
    posted cause cfg asked ev s = recordSend cause asked ev (cfg.rankOf ev.dst)
      ((s.trackInflightSend ev).transmit (.event cfg.rank (cfg.rankOf ev.dst) ev)) := by
  simp [posted, h, hmode]

theorem posted_colored (cause : SendCause) (asked ev : Event) (s : Simulation Q σ)
    (h : cfg.rankOf ev.dst ≠ cfg.rank) (hmode : cfg.gvtMode ≠ .ackInflight) :
    posted cause cfg asked ev s = recordSend cause asked ev (cfg.rankOf ev.dst)
      ((countColored ev s).transmit (.event cfg.rank (cfg.rankOf ev.dst) ev)) := by
  simp [posted, h, hmode]

/-- The number of events in the queue and of messages for the transport. -/
def Simulation.weight (s : Simulation Q σ) : ℕ := (Q.elems s.pending).card + s.outbox.length

theorem Quiet.weight {s t : Simulation Q σ} (h : Quiet s t) : t.weight = s.weight := by
  rw [h]
  rfl

/-- An event that goes out adds to the queue or to the messages. -/
theorem weight_posted (cause : SendCause) (asked ev : Event) (s : Simulation Q σ) :
    (posted cause cfg asked ev s).weight = s.weight + 1 := by
  unfold posted
  dsimp only
  split
  · simp [Simulation.weight, recordSend, enqueue, Q.elems_push]
    omega
  · split
    · have hquiet : ((s.trackInflightSend ev).pending, (s.trackInflightSend ev).outbox) =
          (s.pending, s.outbox) := by
        unfold Simulation.trackInflightSend
        split <;> rfl
      obtain ⟨hpending, houtbox⟩ := Prod.mk.inj hquiet
      simp [Simulation.weight, recordSend, transmit, hpending, houtbox]
      omega
    · simp [Simulation.weight, recordSend, transmit, countColored]
      omega

theorem weight_renumber (id : LPId) (uid normal control : UInt64) (wraps : Bool)
    (s : Simulation Q σ) : (renumber id uid normal control wraps s).weight = s.weight := rfl

theorem weight_logged (ev : Event) (s : Simulation Q σ) : (logged ev s).weight = s.weight := rfl

theorem deliver_outcome (cfg : SimulationConfig) (cause : SendCause) (asked ev : Event) (s : Simulation Q σ) :
    DeliverOutcome cause cfg asked ev s (exec (deliver cause cfg asked ev) s).1
      (exec (deliver cause cfg asked ev) s).2 := by
  unfold deliver
  rw [exec_get_bind]
  dsimp only
  rw [exec_ite]
  split
  · next hrank =>
    rw [exec_modify_bind, exec_modify_bind, exec_modify_bind]
    refine .of_posted ?_ ⟨id, Quiet.refl, rfl⟩
    refine Quiet.trans ?_ (quiet_validate cfg _)
    rw [posted_local _ _ _ (by rw [stampColor_dst]; exact hrank), ← hrank]
    rfl
  · next hrank =>
    rw [exec_ite]
    split
    · next hmode =>
      rw [exec_modify_bind, exec_modify_bind, exec_modify_bind]
      refine .of_posted ?_ ⟨validateInvariants cfg, quiet_validate cfg, by
        rw [stampColor_of_ack hmode]⟩
      rw [stampColor_of_ack hmode, posted_ack _ _ _ hrank hmode]
      rfl
    · next hmode =>
      rw [exec_modify_bind, exec_modify_bind, exec_modify_bind]
      refine .of_posted ?_ ⟨validateInvariants cfg, quiet_validate cfg, by
        rw [stampColor_of_colored hmode]⟩
      rw [stampColor_of_colored hmode,
        posted_colored cause asked { ev with gvtColor := s.gvtColor } s hrank hmode]
      rfl

/-! ## `send` -/

/-- The ways in which `send` can end, once it has validated the invariants. -/
inductive SendOutcome (cause : SendCause) (cfg : SimulationConfig) (asked : Event)
    (s : Simulation Q σ) : Except String Event → Simulation Q σ → Prop where
  | sent {ev uid normal control wraps s'} : Stamped cfg s asked ev uid normal control wraps →
      asked.isAnti = true ∨ asked.src ∈ s.lpIds →
      Quiet (logged (stampColor cfg s ev) (posted cause cfg asked (stampColor cfg s ev)
        (renumber asked.src uid normal control wraps s))) s' →
      SendOutcome cause cfg asked s (.ok (stampColor cfg s ev)) s'
  | unlogged {ev uid normal control wraps what s'} :
      Stamped cfg s asked ev uid normal control wraps →
      asked.isAnti = false → asked.src ∉ s.lpIds →
      Quiet (posted cause cfg asked (stampColor cfg s ev)
        (renumber asked.src uid normal control wraps s)) s' →
      SendOutcome cause cfg asked s (.error what) s'
  | refused {what uid normal control wraps s'} :
      Refusable cfg s asked what →
      (wraps = false → (s.ctx asked.src).nextUid ≤ uid ∧
        ((s.ctx asked.src).nextSeqNormal ≠ 0 → normal ≠ 0)) →
      Quiet (renumber asked.src uid normal control wraps s) s' →
      SendOutcome cause cfg asked s (.error what) s'

theorem send_outcome (cfg : SimulationConfig) (cause : SendCause) (asked : Event) (s : Simulation Q σ) :
    SendOutcome cause cfg asked (validateInvariants cfg s) (exec (send cause cfg asked) s).1
      (exec (send cause cfg asked) s).2 := by
  unfold send
  rw [exec_modify_bind]
  generalize validateInvariants cfg s = t
  refine exec_bind_cases (stamp_outcome asked t) (fun ev s₁ hstamp => ?_) fun what s₁ hstamp => ?_
  swap
  · cases hstamp with
    | refused hplain hcount hquiet => exact .refused hplain hcount hquiet
  cases hstamp with
  | stamped hst hquiet =>
      have hsrc : ev.src = asked.src := by rw [hst.frame]
      have hanti : ev.isAnti = asked.isAnti := by rw [hst.frame]
      have hids : s₁.lpIds = t.lpIds := by rw [hquiet.lpIds, renumber_lpIds]
      have hcolor : stampColor cfg s₁ ev = stampColor cfg t ev := by
        unfold stampColor
        rw [show s₁.gvtColor = t.gvtColor by rw [hquiet]; rfl]
      have hout := deliver_outcome cfg cause asked ev s₁
      generalize exec (deliver cause cfg asked ev) s₁ = res at hout ⊢
      obtain ⟨r, s₂⟩ := res
      dsimp only at hout ⊢
      cases hout with
      | sent hlog hquiet' =>
          rw [hsrc, hanti, hids] at hlog
          rw [hcolor] at hquiet' ⊢
          exact .sent hst hlog (.trans ((hquiet.posted _ _ _).logged _) hquiet')
      | unlogged hpos hlog hquiet' =>
          rw [hanti] at hpos
          rw [hsrc, hids] at hlog
          rw [hcolor] at hquiet'
          exact .unlogged hst hpos hlog (.trans (hquiet.posted _ _ _) hquiet')

/-- What every call of `send` leaves as it was. -/
structure SendFrame (s s' : Simulation Q σ) : Prop where
  lpIds : s'.lpIds = s.lpIds
  work : ∀ id, SameWork (s.ctx id) (s'.ctx id)
  cancelled : s'.cancelledByUid = s.cancelledByUid
  lastGvt : s'.lastGvt = s.lastGvt
  started : s'.started = s.started
  migrations : s'.pendingMigrations = s.pendingMigrations
  wrapped : s'.hist.wrapped = false → s.hist.wrapped = false

theorem Quiet.sendFrame {s t s' : Simulation Q σ} (hs : Quiet s s') (h : SendFrame s' t) :
    SendFrame s t := by
  have hctx := hs.ctx
  refine ⟨h.lpIds.trans hs.lpIds, fun id => hctx ▸ h.work id, ?_, ?_, ?_, ?_, fun hw => ?_⟩
  · rw [h.cancelled, hs]
  · rw [h.lastGvt, hs]
  · rw [h.started, hs]
  · rw [h.migrations, hs]
  · have := h.wrapped hw
    rwa [hs] at this

theorem SendFrame.quiet {s t t' : Simulation Q σ} (h : SendFrame s t) (ht : Quiet t t') :
    SendFrame s t' := by
  have hctx := ht.ctx
  refine ⟨ht.lpIds.trans h.lpIds, fun id => hctx ▸ h.work id, ?_, ?_, ?_, ?_, fun hw => ?_⟩
  · rw [ht, ← h.cancelled]
  · rw [ht, ← h.lastGvt]
  · rw [ht, ← h.started]
  · rw [ht, ← h.migrations]
  · rw [ht] at hw
    exact h.wrapped hw

theorem send_frame (cfg : SimulationConfig) (cause : SendCause) (asked : Event) (s : Simulation Q σ) :
    SendFrame s (exec (send cause cfg asked) s).2 := by
  suffices hframe : SendFrame (validateInvariants cfg s) (exec (send cause cfg asked) s).2 from
    (quiet_validate cfg s).sendFrame hframe
  have hout := send_outcome cfg cause asked s
  generalize validateInvariants cfg s = t at hout ⊢
  generalize exec (send cause cfg asked) s = res at hout ⊢
  obtain ⟨r, s'⟩ := res
  dsimp only at hout ⊢
  cases hout with
  | @sent ev u n k w _ hst hlog hquiet =>
      refine SendFrame.quiet ?_ hquiet
      rw [posted_eq]
      refine ⟨rfl, ?_, rfl, rfl, rfl, rfl, fun hw => (Bool.or_eq_false_iff.mp hw).1⟩
      exact fun i => (sameWork_renumber asked.src u n k w t i).trans (sameWork_logged _ _ i)
  | @unlogged ev u n k w _ _ hst hpos hlog hquiet =>
      refine SendFrame.quiet ?_ hquiet
      rw [posted_eq]
      exact ⟨rfl, sameWork_renumber asked.src u n k w t, rfl, rfl, rfl, rfl,
        fun hw => (Bool.or_eq_false_iff.mp hw).1⟩
  | @refused _ u n k w _ hplain hcount hquiet =>
      refine SendFrame.quiet ?_ hquiet
      exact ⟨rfl, sameWork_renumber asked.src u n k w t, rfl, rfl, rfl, rfl,
        fun hw => (Bool.or_eq_false_iff.mp hw).1⟩

variable {x₀ : Situation Q σ}

/-- The kernel has got from `x₀` to the state by moves. -/
def Reached (model : Model σ) (cfg : SimulationConfig) (x₀ : Situation Q σ) (a : Activity σ)
    (owed : List (LPId × SentRecord)) (s : Simulation Q σ) : Prop :=
  Moves model cfg x₀ ⟨a, owed, s⟩

theorem Reached.move {a a' : Activity σ} {owed owed' : List (LPId × SentRecord)}
    {s s' : Simulation Q σ} (h : Reached model cfg x₀ a owed s)
    (hm : Move model cfg ⟨a, owed, s⟩ ⟨a', owed', s'⟩) : Reached model cfg x₀ a' owed' s' :=
  Relation.ReflTransGen.tail h hm

theorem Reached.quiet {a : Activity σ} {owed : List (LPId × SentRecord)} {s s' : Simulation Q σ}
    (h : Reached model cfg x₀ a owed s) (hq : Quiet s s') : Reached model cfg x₀ a owed s' :=
  h.move (.quiet hq)

theorem Quiet.allows {s s' : Simulation Q σ} (h : Quiet s s') {a : Activity σ} {cause : SendCause}
    {asked : Event} : a.Allows s' cause asked ↔ a.Allows s cause asked := by
  have hg : s'.lastGvt = s.lastGvt := by rw [h]
  cases a <;> cases cause <;> simp [Activity.Allows, hg]

/-- A call of `send` is a move. -/
theorem send_moves {a : Activity σ} (cause : SendCause) (asked : Event) {s : Simulation Q σ}
    (h : Reached model cfg x₀ a [] s) (ha : a.Allows s cause asked) :
    Reached model cfg x₀ (a.noteCall asked (exec (send cause cfg asked) s).1) []
      (exec (send cause cfg asked) s).2 := by
  have hq := quiet_validate cfg s
  have hout := send_outcome cfg cause asked s
  rw [← hq.allows] at ha
  generalize exec (send cause cfg asked) s = res at hout ⊢
  obtain ⟨r, s'⟩ := res
  dsimp only at hout ⊢
  cases hout with
  | sent hst hlog hquiet => exact ((h.quiet hq).move (.sent ha hst hlog)).quiet hquiet
  | unlogged hst hpos hlog hquiet => exact ((h.quiet hq).move (.unlogged ha hst hpos hlog)).quiet hquiet
  | refused hplain hcount hquiet => exact ((h.quiet hq).move (.refused hplain hcount)).quiet hquiet

/-! ## Rolling back -/

theorem Quiet.modifyCtx {s s' : Simulation Q σ} (h : Quiet s s') (id : LPId)
    (f : LPContext σ → LPContext σ) : Quiet (s.modifyCtx id f) (s'.modifyCtx id f) := by
  unfold Quiet at h
  rw [h]
  rfl

theorem Quiet.lose {s s' : Simulation Q σ} (h : Quiet s s') (ev : Event) :
    Quiet (lose ev s) (lose ev s') := by
  unfold Quiet at h
  rw [h]
  rfl

/-- A dispatch has thrown; what is left is to note that its event is lost. -/
def Interrupted (model : Model σ) (cfg : SimulationConfig) (x₀ : Situation Q σ) (ev : Event)
    (s : Simulation Q σ) : Prop :=
  Reached model cfg x₀ .idle [] (lose ev s)

/-- The anti-message of a logged send, and the entry taken off the log. -/
theorem annul_moves {a : Activity σ} {ev : Event} (ha : a.unwinding = some ev) (id : LPId)
    (sent : SentRecord) (owed : List (LPId × SentRecord)) {s : Simulation Q σ}
    (h : Reached model cfg x₀ a ((id, sent) :: owed) s) :
    Exits (fun s' => Reached model cfg x₀ a owed
        (s'.modifyCtx id fun c => { c with sentLog := c.sentLog.dropLast }))
      (Interrupted model cfg x₀ ev)
      (exec (send (.rollback id) cfg (antiOf id sent)) s).1
      (exec (send (.rollback id) cfg (antiOf id sent)) s).2 := by
  have hq := quiet_validate cfg s
  have hout := send_outcome cfg (.rollback id) (antiOf id sent) s
  generalize exec (send (.rollback id) cfg (antiOf id sent)) s = res at hout ⊢
  obtain ⟨r, s'⟩ := res
  dsimp only at hout ⊢
  cases hout with
  | sent hst hlog hquiet =>
      refine ((h.quiet hq).move (.annul hst)).quiet ?_
      refine Quiet.modifyCtx (Quiet.trans ?_ hquiet) _ _
      rw [logged_of_anti (by rw [stampColor_isAnti, hst.frame]; rfl)]
      exact Quiet.refl _
  | unlogged hst hpos hlog hquiet => exact absurd hpos (by simp [antiOf])
  | refused hrefuse hcount hquiet =>
      exact ((h.quiet hq).move (.stuck ha hrefuse hcount)).quiet (hquiet.lose ev)

theorem emitAntis_moves {a : Activity σ} {ev : Event} (ha : a.unwinding = some ev) (id : LPId)
    (log : List SentRecord) {s : Simulation Q σ}
    (h : Reached model cfg x₀ a (log.map (id, ·)) s) :
    Exits (Reached model cfg x₀ a []) (Interrupted model cfg x₀ ev)
      (exec (emitAntis cfg id log) s).1 (exec (emitAntis cfg id log) s).2 := by
  induction log generalizing s with
  | nil => exact h
  | cons sent rest ih =>
      unfold emitAntis
      refine exits_bind_const (annul_moves ha id sent (rest.map (id, ·)) h) fun _ s' hs' => ?_
      rw [exec_modify_bind]
      exact ih hs'

theorem rollback_moves {a : Activity σ} (a' : Activity σ) {ev : Event} (ha' : a'.unwinding = some ev) {id : LPId}
    {target : TimeStamp} {s : Simulation Q σ} (h : Reached model cfg x₀ a [] s)
    (hm : ∀ t : Simulation Q σ, t.lpIds = s.lpIds → t.ctx = s.ctx →
      Move model cfg ⟨a, [], t⟩ ⟨a', owedAntis id target t, unwound model id target t⟩) :
    Exits (Reached model cfg x₀ a' []) (Interrupted model cfg x₀ ev)
      (exec (rollback model cfg id target) s).1 (exec (rollback model cfg id target) s).2 := by
  have hq := quiet_validate cfg s
  unfold rollback
  rw [exec_modify_bind, exec_modify_bind, exec_modify_bind, exec_modify_bind, exec_get_bind]
  set t : Simulation Q σ := { validateInvariants cfg s with
    counters := { (validateInvariants cfg s).counters with
      rollbacksTotal := (validateInvariants cfg s).counters.rollbacksTotal + 1 } } with ht
  have hqt : Quiet s t := hq.trans rfl
  have hreach := (h.quiet hqt).move (hm t hqt.lpIds hqt.ctx)
  have hlog : ((unwound model id target t).ctx id).sentLog = (t.ctx id).sentLog := by
    rw [unwound_eq]
    simp only [Function.update_self, LPContext.rewind]
    split <;> rfl
  refine exits_bind_const (emitAntis_moves ha' id _ ?_) fun _ s' hs' => hs'.quiet (quiet_validate cfg _)
  change Reached model cfg x₀ a' (List.map (id, ·)
    (cancelledSends target ((unwound model id target t).ctx id).sentLog)) (unwound model id target t)
  rw [hlog]
  exact hreach

/-! ## Executing -/

@[simp] theorem requestWrite_ev (lp : LogicalProcess σ) (state : σ) (entity : EntityId)
    (rec : ProcessedRecord) : (requestWrite lp state entity rec).ev = rec.ev := by
  unfold requestWrite
  split
  · rfl
  · split
    · rfl
    · split <;> rfl

@[simp] theorem setLp_lp (id : LPId) (state : σ) (s : Simulation Q σ) :
    ((setLp id state s).ctx id).lp = state := by
  simp [setLp, Simulation.modifyCtx]

/-- What is reached when a handler that has made `calls` returns, and when it throws. -/
def HandlerReached (model : Model σ) (cfg : SimulationConfig) (x₀ : Situation Q σ)
    (before : LPContext σ) (ev : Event) (handler : Handler σ) (rec : ProcessedRecord)
    (calls : List (Event × Except String Event)) (r : Except String ProcessedRecord)
    (s : Simulation Q σ) : Prop :=
  match r with
  | .ok rec' => ∃ made, Reached model cfg x₀ (.executing before ev (calls ++ made)) [] s ∧
      Handler.Run (model ev.dst) handler rec made (s.ctx ev.dst).lp rec'
  | .error _ => ∃ made, Reached model cfg x₀ (.executing before ev made) [] s

theorem HandlerReached.of_next {before : LPContext σ} {ev : Event} {handler next : Handler σ}
    {rec rec₁ : ProcessedRecord} {calls : List (Event × Except String Event)}
    (made : List (Event × Except String Event))
    {r : Except String ProcessedRecord} {s : Simulation Q σ}
    (h : HandlerReached model cfg x₀ before ev next rec₁ (calls ++ made) r s)
    (hrun : ∀ made' state rec', Handler.Run (model ev.dst) next rec₁ made' state rec' →
      Handler.Run (model ev.dst) handler rec (made ++ made') state rec') :
    HandlerReached model cfg x₀ before ev handler rec calls r s := by
  cases r with
  | error what => exact h
  | ok rec' =>
      obtain ⟨made', hreach, hnext⟩ := h
      exact ⟨made ++ made', by simpa using hreach, hrun _ _ _ hnext⟩

/-- A handler makes the moves of its sends and fills its record as `Handler.Run` says. -/
theorem runHandler_moves {before : LPContext σ} {ev : Event} (handler : Handler σ)
    (rec : ProcessedRecord) (hrec : rec.ev = ev) (calls : List (Event × Except String Event))
    (hends : ∀ state, handler.Ends state → ((model ev.dst).onEvent before.lp ev).Ends state)
    {s : Simulation Q σ} (h : Reached model cfg x₀ (.executing before ev calls) [] s) :
    HandlerReached model cfg x₀ before ev handler rec calls
      (exec (runHandler model cfg ev.dst handler rec) s).1
      (exec (runHandler model cfg ev.dst handler rec) s).2 := by
  induction handler generalizing rec calls s with
  | done state =>
      have hdone : Reached model cfg x₀ (.executing before ev calls) [] (setLp ev.dst state s) :=
        h.move (.store (hends _ (.done state)))
      unfold runHandler
      rw [exec_modify_bind]
      refine ⟨[], by rw [List.append_nil]; exact hdone, ?_⟩
      rw [exec_pure, setLp_lp]
      exact .done state rec
  | throw state what => exact ⟨calls, h.move (.store (hends _ (.throw state what)))⟩
  | send asked next ih =>
      have hsend := send_moves (.handler ev.dst rec.ev.ts) asked h ⟨rfl, by rw [hrec]⟩
      unfold runHandler
      rw [exec_observe_bind]
      refine HandlerReached.of_next _ (ih _ { rec with sent := rec.sent ++ _ } hrec _
        (fun _ he => hends _ (.send _ he)) hsend) fun made state rec' hrun => ?_
      exact .send hrun
  | requestWrite state entity next ih =>
      unfold runHandler
      refine HandlerReached.of_next [] (ih _ (by simpa using hrec) _ (fun _ he => hends _ (.write he))
        (by simpa using h)) fun made st rec' hrun => ?_
      exact .write hrun
  | emitCommitted ts payload next ih =>
      unfold runHandler
      by_cases hts : ts = rec.ev.ts
      · rw [if_pos hts]
        refine HandlerReached.of_next [] (ih _ _ (by exact hrec) _ (fun _ he => hends _ (.emit _ he))
          (by simpa using h)) fun made st rec' hrun => ?_
        exact .emit hts hrun
      · rw [if_neg hts]
        refine HandlerReached.of_next [] (ih _ _ hrec _ (fun _ he => hends _ (.emit _ he))
          (by simpa using h)) fun made st rec' hrun => ?_
        exact .emitRefused hts hrun

/-- What is reached when a dispatch returns, and when it throws. -/
abbrev Dispatched (model : Model σ) (cfg : SimulationConfig) (x₀ : Situation Q σ) (ev : Event) :
    Except String Unit → Simulation Q σ → Prop :=
  Exits (Reached model cfg x₀ .idle []) (Interrupted model cfg x₀ ev)

theorem executeEvent_moves {ev : Event} {s : Simulation Q σ}
    (h : Reached model cfg x₀ (.holding ev) [] s) (hanti : ev.isAnti = false)
    (hdst : ev.dst ∈ s.lpIds) (hvt : ¬ ev.ts < (s.ctx ev.dst).vt) :
    Dispatched model cfg x₀ ev (exec (executeEvent model cfg ev (s.ctx ev.dst)) s).1
      (exec (executeEvent model cfg ev (s.ctx ev.dst)) s).2 := by
  unfold executeEvent
  rw [exec_modify_bind, exec_observe_bind, exec_modify_bind]
  have hrun := runHandler_moves (s := entered ev s) ((model ev.dst).onEvent (s.ctx ev.dst).lp ev)
    (newRecord ev (s.ctx ev.dst)) rfl [] (fun _ he => he) (h.move (.enter hanti hdst hvt))
  change HandlerReached model cfg x₀ _ _ _ _ _ (exec (runHandler model cfg ev.dst
    ((model ev.dst).onEvent (s.ctx ev.dst).lp ev) (newRecord ev (s.ctx ev.dst)))
    (s.modifyCtx ev.dst fun c => { c with vt := ev.ts, inEvent := true, currentExecTs := ev.ts })).1
    (exec (runHandler model cfg ev.dst
    ((model ev.dst).onEvent (s.ctx ev.dst).lp ev) (newRecord ev (s.ctx ev.dst)))
    (s.modifyCtx ev.dst fun c => { c with vt := ev.ts, inEvent := true, currentExecTs := ev.ts })).2 at hrun
  generalize exec (runHandler model cfg ev.dst _ _) _ = res at hrun ⊢
  obtain ⟨what | rec, s₁⟩ := res
  · obtain ⟨made, hreach⟩ := hrun
    dsimp only
    rw [exec_ite]
    split
    · next hdefer =>
      rw [exec_modify_bind, exec_modify_bind]
      exact (hreach.move (.defer hdefer.1)).quiet (quiet_validate cfg _)
    · exact (hreach.move .abort).move (.lose (Or.inl hanti))
  · obtain ⟨made, hreach, hfill⟩ := hrun
    dsimp only
    rw [exec_modify_bind]
    have hidle := hreach.move (.finish hfill)
    rw [exec_ite]
    split
    · next hrelease =>
      rw [exec_modify_bind, exec_modify_bind]
      refine (Reached.move hidle (show Move model cfg _ ⟨.idle, [], released ev
        (pushProcessed ev.dst rec (left ev.dst s₁))⟩ from .release hrelease.1)).quiet
        (.trans ?_ (quiet_validate cfg _))
      exact rfl
    · rw [exec_modify_bind]
      refine hidle.quiet (.trans ?_ (quiet_validate cfg _))
      exact rfl

/-- The rollback before a straggler is put back. -/
theorem straggle_moves {ev : Event} {s : Simulation Q σ}
    (h : Reached model cfg x₀ (.holding ev) [] s) (hdst : ev.dst ∈ s.lpIds)
    (hvt : ev.ts < (s.ctx ev.dst).vt) :
    Exits (Reached model cfg x₀ (.holding ev) []) (Interrupted model cfg x₀ ev)
      (exec (rollback model cfg ev.dst ev.ts) (countStraggler s)).1
      (exec (rollback model cfg ev.dst ev.ts) (countStraggler s)).2 := by
  refine rollback_moves (.holding ev) rfl (h.quiet (show Quiet s (countStraggler s) from rfl))
    fun t hids hctx => ?_
  refine .straggle (by rw [hids]; exact hdst) ?_
  rw [hctx]
  exact hvt

theorem dispatchPositive_moves {ev : Event} {s : Simulation Q σ}
    (h : Reached model cfg x₀ (.holding ev) [] s) (hanti : ev.isAnti = false) :
    Dispatched model cfg x₀ ev (exec (dispatchPositive model cfg ev) s).1
      (exec (dispatchPositive model cfg ev) s).2 := by
  unfold dispatchPositive
  rw [exec_lookupCtx_bind]
  split
  · next hdst =>
    rw [exec_ite]
    split
    · next hvt =>
      rw [exec_modify_bind]
      refine exits_bind_const (straggle_moves h hdst hvt) fun _ s₁ hs₁ => ?_
      rw [exec_modify_bind]
      exact (hs₁.move .requeue).quiet (quiet_validate cfg _)
    · next hvt => exact executeEvent_moves h hanti hdst hvt
  · next hdst => exact h.move (.lose (Or.inr hdst))

theorem cancel_moves (rec : ProcessedRecord) {s : Simulation Q σ}
    (h : Reached model cfg x₀ (.annulling rec) [] (insertTombstone rec.ev s))
    (hdst : rec.ev.dst ∈ s.lpIds) :
    Exits (Reached model cfg x₀ (.annulled rec) []) (Interrupted model cfg x₀ rec.ev)
      (exec (cancel model cfg rec.ev) s).1 (exec (cancel model cfg rec.ev) s).2 := by
  unfold cancel
  rw [exec_modify_bind, exec_lookupCtx_bind,
    if_pos (show rec.ev.dst ∈ (insertTombstone rec.ev s).lpIds from hdst)]
  split
  · next r hfind =>
    rw [exec_modify_bind]
    refine rollback_moves (.annulled rec) rfl (h.quiet rfl) fun t hids hctx => ?_
    refine .matched (by rw [hids]; exact hdst) ?_
    rw [hctx]
    exact hfind
  · next hfind => exact (h.move (.unmatched hfind)).quiet rfl

theorem antiRecord_ev (ev : Event) (s : Simulation Q σ) : (antiRecord ev s).ev = ev := by
  unfold antiRecord
  split <;> rfl

theorem dispatchAnti_moves {ev : Event} {s : Simulation Q σ}
    (h : Reached model cfg x₀ (.holding ev) [] s) (hanti : ev.isAnti = true) :
    Dispatched model cfg x₀ ev (exec (dispatchAnti model cfg ev) s).1
      (exec (dispatchAnti model cfg ev) s).2 := by
  unfold dispatchAnti
  rw [exec_lookupCtx_bind]
  split
  · next hdst =>
    rw [exec_ite]
    split
    · next hvt =>
      rw [exec_modify_bind]
      exact exits_bind_const (straggle_moves h hdst hvt) fun _ s₁ hs₁ => hs₁.move .requeue
    · next hvt =>
      rw [exec_get_bind]
      have hmark := h.move (.mark hanti hdst hvt)
      have hcancel := cancel_moves (antiRecord ev s) (s := s)
        (by rw [antiRecord_ev]; exact hmark) (by rw [antiRecord_ev]; exact hdst)
      rw [antiRecord_ev] at hcancel
      refine exits_bind_const hcancel fun _ s₁ hs₁ => ?_
      rw [exec_modify_bind, exec_modify_bind]
      have hsettle := hs₁.move .settle
      rw [antiRecord_ev] at hsettle
      exact hsettle.quiet (quiet_validate cfg _)
  · next hdst => exact h.move (.lose (Or.inr hdst))

/-! ## The pending queue -/

theorem discardPending_top (skip : Event → Bool) (s : Simulation Q σ) {ev : Event}
    (h : Q.top? (discardPending skip s).pending = some ev) : skip ev = false :=
  Q.not_skip_top_discardWhile skip _ s.pending (le_refl _) h

/-- The scan of `pop_next_` before it pops. -/
def popScan (s : Simulation Q σ) : Simulation Q σ :=
  discardPending (fun ev => !ev.isAnti && s.tombstoned ev) s

theorem exec_popNext (s : Simulation Q σ) :
    exec popNext s = match Q.top? (popScan s).pending with
      | none => (.ok none, popScan s)
      | some ev => (.ok (some ev), { popScan s with pending := Q.pop (popScan s).pending }) := by
  unfold popNext
  rw [exec_get_bind, exec_modify_bind, exec_get_bind]
  change exec (match Q.top? (popScan s).pending with | none => _ | some ev => _) _ = _
  split <;> rfl

theorem dispatchNext_moves {s : Simulation Q σ} (h : Reached model cfg x₀ .idle [] s)
    (hstart : s.started = true) :
    Reached model cfg x₀ .idle [] (exec (dispatchNext model cfg) s).2 := by
  have hscan : Reached model cfg x₀ .idle [] (popScan s) :=
    h.move (.discard fun ev hev => (Bool.and_eq_true_iff.mp hev).2)
  unfold dispatchNext
  rw [exec_bind, exec_popNext]
  cases htop : Q.top? (popScan s).pending with
  | none => exact hscan
  | some ev =>
      have hskip : ev.isAnti = true ∨ (popScan s).tombstoned ev = false := by
        have hfront := discardPending_top _ s htop
        rw [Bool.and_eq_false_iff] at hfront
        simpa [show (popScan s).tombstoned ev = s.tombstoned ev from rfl] using hfront
      have hpop := hscan.move (.pop hstart htop hskip)
      have hdisp : Dispatched model cfg x₀ ev
          (exec (dispatch model cfg ev) { popScan s with pending := Q.pop (popScan s).pending }).1
          (exec (dispatch model cfg ev) { popScan s with pending := Q.pop (popScan s).pending }).2 := by
        unfold dispatch
        rw [exec_modify_bind, exec_modify_bind, exec_ite]
        split
        · next hanti => exact dispatchAnti_moves (hpop.quiet (quiet_validate cfg _)) hanti
        · next hanti =>
          exact dispatchPositive_moves (hpop.quiet (quiet_validate cfg _)) (by simpa using hanti)
      dsimp only
      rw [exec_observe_bind]
      generalize exec (dispatch model cfg ev) _ = res at hdisp ⊢
      obtain ⟨what | u, s₁⟩ := res
      · exact hdisp
      · exact hdisp

/-! ## Starting -/

end WarpSim

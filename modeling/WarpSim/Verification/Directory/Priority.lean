import WarpSim.Verification.Directory.Forwarding

/-! # Control events at a cutover

With the kinds of the migration protocol declared as control events, the numbers that `send` assigns
put an install before whatever the directory forwards because of it. -/

namespace WarpSim

variable {Q : EventQueue} {σ : Type} {model : Model σ} {cfg : SimulationConfig}
  {dcfg : DirectoryLPConfig} {history : σ → OwnerHistory}

open Prog Simulation

/-- The kinds of the migration protocol. -/
def IsProtocolEvent (cfg : SimulationConfig) (dcfg : DirectoryLPConfig) (ev : Event) : Prop :=
  ev.payload.kind = dcfg.updateOwnerKind ∨ ev.payload.kind = cfg.installEventKind ∨
    ev.payload.kind = dcfg.fossilCollectKind

/-- The control events are those of the migration protocol. -/
def PrioritizesProtocol (cfg : SimulationConfig) (dcfg : DirectoryLPConfig) : Prop :=
  ∃ isControlEvent, cfg.isControlEvent = some isControlEvent ∧
    ∀ ev, isControlEvent ev = true ↔ IsProtocolEvent cfg dcfg ev

/-- No sequence counter has reached the priority bit. -/
def CountersBelow (s : Simulation Q σ) : Prop :=
  ∀ id ∈ s.lpIds, (s.ctx id).nextSeqNormal.toNat < 2 ^ 63 ∧ (s.ctx id).nextSeqControl.toNat < 2 ^ 63

/-- In state `s`, `send` takes `asked`, numbers it itself, and sends it as `ev`. -/
structure AutoSequenced (cause : SendCause) (cfg : SimulationConfig) (s : Simulation Q σ)
    (asked ev : Event) : Prop where
  unnumbered : asked.ts.sequence = 0
  sent : (exec (send cause cfg asked) s).1 = .ok ev

/-! ## The numbers of `send` -/

theorem or_tag_ge (n : UInt64) : 2 ^ 63 ≤ (((1 : UInt64) <<< 63) ||| n).toNat := by
  have hbit : ((1 : UInt64) <<< 63).toNat = 2 ^ 63 := by decide
  rw [UInt64.toNat_or, hbit]
  exact Nat.left_le_or

theorem withUid_kind (c : LPContext σ) (asked : Event) :
    (withUid c asked).payload.kind = asked.payload.kind := by
  unfold withUid
  split <;> rfl

/-- A control event gets the number of the control counter, any other one has the priority bit. -/
theorem autoSequence_of_prioritizes (h : PrioritizesProtocol cfg dcfg) (c : LPContext σ) (ev : Event) :
    (IsProtocolEvent cfg dcfg ev ∧ autoSequence cfg c ev = c.nextSeqControl) ∨
      (¬ IsProtocolEvent cfg dcfg ev ∧ 2 ^ 63 ≤ (autoSequence cfg c ev).toNat) := by
  obtain ⟨isControlEvent, hcfg, hcontrol⟩ := h
  unfold autoSequence
  rw [hcfg]
  by_cases hev : IsProtocolEvent cfg dcfg ev
  · exact Or.inl ⟨hev, if_pos ((hcontrol ev).mpr hev)⟩
  · right
    refine ⟨hev, ?_⟩
    dsimp only
    rw [if_neg fun h => hev ((hcontrol ev).mp h)]
    exact or_tag_ge _

theorem send_result {cause : SendCause} {asked ev : Event} {s : Simulation Q σ}
    (h : (exec (send cause cfg asked) s).1 = .ok ev) :
    Sendable cfg s asked ∧ ev.payload = asked.payload ∧
      ev.ts = stampedTs cfg (s.ctx asked.src) (withUid (s.ctx asked.src) asked) := by
  have hq := quiet_validate cfg s
  have hexact := stamp_exact cfg asked (validateInvariants cfg s)
  unfold send at h
  rw [exec_modify_bind, exec_bind] at h
  generalize exec (stamp cfg asked) (validateInvariants cfg s) = res at hexact h
  obtain ⟨what | ev₁, s₁⟩ := res
  · cases h
  · obtain ⟨hsendable, hstamped⟩ := hexact
    have hout := deliver_outcome cfg cause asked ev₁ s₁
    dsimp only at h
    generalize exec (deliver cause cfg asked ev₁) s₁ = res at hout h
    obtain ⟨r, s₂⟩ := res
    have hts := hstamped.ts
    rw [hq.ctx] at hts
    cases hout with
    | unlogged => cases h
    | sent =>
        obtain rfl := Except.ok.inj h
        refine ⟨hq.sendable.mp hsendable, ?_, (stampColor_ts s₁ ev₁).trans hts⟩
        have hpayload : ev₁.payload = asked.payload := by rw [hstamped.frame]
        unfold stampColor
        split
        · exact hpayload
        · exact hpayload

/-- The stamp of an automatically numbered event. -/
theorem AutoSequenced.stamp {cause : SendCause} {s : Simulation Q σ} {asked ev : Event}
    (h : AutoSequenced cause cfg s asked ev) (hcfg : PrioritizesProtocol cfg dcfg)
    (hbelow : CountersBelow s) :
    ev.ts.time = asked.ts.time ∧
      ((IsProtocolEvent cfg dcfg ev ∧ ev.ts.sequence ≠ 0 ∧ ev.ts.sequence.toNat < 2 ^ 63) ∨
        (¬ IsProtocolEvent cfg dcfg ev ∧ 2 ^ 63 ≤ ev.ts.sequence.toNat)) := by
  obtain ⟨hsendable, hpayload, hts⟩ := send_result h.sent
  obtain ⟨hsrc, hleft⟩ := hsendable.sequence h.unnumbered
  set c := s.ctx asked.src with hc
  have hkind : IsProtocolEvent cfg dcfg ev ↔ IsProtocolEvent cfg dcfg (withUid c asked) := by
    unfold IsProtocolEvent
    rw [withUid_kind, hpayload]
  rw [stampedTs, withUid_ts, if_neg (not_not.mpr h.unnumbered)] at hts
  rw [hts, hkind]
  refine ⟨rfl, ?_⟩
  rcases autoSequence_of_prioritizes hcfg c (withUid c asked) with ⟨hev, hauto⟩ | ⟨hev, hauto⟩
  · left
    obtain ⟨isControlEvent, hsome, hcontrol⟩ := hcfg
    have hne := hleft isControlEvent hsome
    rw [if_pos ((hcontrol _).mpr hev)] at hne
    dsimp only
    rw [hauto]
    exact ⟨hev, hne, (hbelow asked.src hsrc).2⟩
  · exact Or.inr ⟨hev, hauto⟩

/-! ## At a cutover -/

/-- What a directory sends while it handles `ev`, in state `s`. -/
def SentWhileHandling (model : Model σ) (cfg : SimulationConfig) (dcfg : DirectoryLPConfig)
    (s : Simulation Q σ) (ev : Event) (r : SendRecord) : Prop :=
  r ∈ (exec (dispatch model cfg ev) s).2.hist.sends.drop s.hist.sends.length ∧
    ∃ execTs, r.cause = .handler dcfg.id execTs

/-- What a directory sends while it handles an event is the install of an update, or a forward. -/
theorem SentWhileHandling.stamp (host : HostsDirectory model dcfg history) {s : Simulation Q σ}
    {ev : Event} {r : SendRecord} (hdst : ev.dst = dcfg.id)
    (h : SentWhileHandling model cfg dcfg s ev r) :
    ∃ asked, DirectoryLP.asks dcfg (history (s.ctx dcfg.id).lp) ev = some asked ∧
      r.ev.ts = stampedTs cfg (s.ctx asked.src) (withUid (s.ctx asked.src) asked) := by
  obtain ⟨hr, execTs, hcause⟩ := h
  by_cases hhanded : Handed s ev
  · have hsends := dispatch_directory_sends cfg host hdst hhanded
    generalize hasks : DirectoryLP.asks dcfg (history (s.ctx dcfg.id).lp) ev = asked at hsends
    cases asked with
    | none => simp [hsends] at hr
    | some asked =>
        rcases hsends with ⟨-, hsame⟩ | ⟨-, r', hone, -, hts⟩
        · simp [hsame] at hr
        · rw [hone, List.drop_left] at hr
          rw [List.mem_singleton.mp hr]
          exact ⟨asked, rfl, hts⟩
  · obtain ⟨extra, hextra, hall⟩ := onlyAntis_dispatch model cfg hhanded
    rw [hextra, List.drop_left] at hr
    obtain ⟨id, hid⟩ := hall r hr
    rw [hid] at hcause
    cases hcause

/-- With the protocol's events as control events and all counters below the priority bit, numbered
control events come before normal ones of the same time, and a forward that the directory resolves
to the entry of an update comes after the install of that update. -/
theorem control_events_first (cfg : SimulationConfig) (host : HostsDirectory model dcfg history)
    (hcfg : PrioritizesProtocol cfg dcfg) :
    (∀ (s s' : Simulation Q σ) cause cause' asked asked' control normal,
      CountersBelow s → CountersBelow s' →
      AutoSequenced cause cfg s asked control → AutoSequenced cause' cfg s' asked' normal →
      IsProtocolEvent cfg dcfg control → ¬ IsProtocolEvent cfg dcfg normal →
      control.ts.time = normal.ts.time → control.ts < normal.ts) ∧
    (∀ (s s₁ s₂ : Simulation Q σ) cause asked update ev owner install forward,
      CountersBelow s → AutoSequenced cause cfg s asked update → DirectoryLP.isUpdateOwner dcfg update →
      update.dst = dcfg.id → SentWhileHandling model cfg dcfg s₁ update install →
      ev.dst = dcfg.id → ev.target ≠ 0 → ¬ IsProtocolEvent cfg dcfg ev →
      (DirectoryLP.timeline (history (s₂.ctx dcfg.id).lp) ev.target).floor? ev.ts =
        some (update.ts, owner) →
      SentWhileHandling model cfg dcfg s₂ ev forward → install.ev.ts < forward.ev.ts) := by
  constructor
  · intro s s' cause cause' asked asked' control normal hs hs' hcontrol hnormal hprotocol hother htime
    have hlow : control.ts.sequence.toNat < 2 ^ 63 := by
      rcases (hcontrol.stamp hcfg hs).2 with ⟨-, -, hlt⟩ | ⟨hno, -⟩
      · exact hlt
      · exact absurd hprotocol hno
    have hhigh : 2 ^ 63 ≤ normal.ts.sequence.toNat := by
      rcases (hnormal.stamp hcfg hs').2 with ⟨hyes, -⟩ | ⟨-, hge⟩
      · exact absurd hyes hother
      · exact hge
    exact TimeStamp.lt_iff.mpr (Or.inr ⟨htime, UInt64.lt_iff_toNat_lt.mpr (hlow.trans_le hhigh)⟩)
  · intro s s₁ s₂ cause asked update ev owner install forward hs hupdate hkind hudst hinstall hdst
      htarget hother hfloor hforward
    have hlow : update.ts.sequence ≠ 0 ∧ update.ts.sequence.toNat < 2 ^ 63 := by
      rcases (hupdate.stamp hcfg hs).2 with ⟨-, h⟩ | ⟨hno, -⟩
      · exact h
      · exact absurd (Or.inl hkind.2) hno
    have hentry : update.ts ≤ ev.ts := OrderedMap.floor?_le hfloor
    have hinstallTs : install.ev.ts = update.ts := by
      obtain ⟨asked, hasks, hts⟩ := hinstall.stamp host hudst
      have hnot : ¬ DirectoryLP.HandsOn dcfg update := fun h => h.update hkind
      obtain ⟨-, u, rfl⟩ := DirectoryLP.asks_of_not_handsOn hnot hasks
      rw [hts, stampedTs_install _ u hlow.1]
    have hforwardTs : forward.ev.ts.time = ev.ts.time ∧ 2 ^ 63 ≤ forward.ev.ts.sequence.toNat := by
      obtain ⟨asked, hasks, hts⟩ := hforward.stamp host hdst
      have hon : DirectoryLP.HandsOn dcfg ev :=
        ⟨fun h => hother (Or.inr (Or.inr h.2)), fun h => hother (Or.inl h.2), htarget⟩
      rw [DirectoryLP.asks_of_handsOn hon] at hasks
      obtain rfl := Option.some.inj hasks
      rw [stampedTs, withUid_ts, if_neg (by simp [DirectoryLP.forward])] at hts
      rw [hts]
      refine ⟨rfl, ?_⟩
      rcases autoSequence_of_prioritizes hcfg (s₂.ctx dcfg.id) (withUid (s₂.ctx dcfg.id)
        (DirectoryLP.forward dcfg (history (s₂.ctx dcfg.id).lp) ev)) with ⟨hyes, -⟩ | ⟨-, hge⟩
      · unfold IsProtocolEvent at hyes
        rw [withUid_kind] at hyes
        exact absurd hyes hother
      · exact hge
    rw [hinstallTs, TimeStamp.lt_iff]
    rcases TimeStamp.time_lt_or_eq hentry with hlt | heq
    · exact Or.inl (by rw [hforwardTs.1]; exact hlt)
    · exact Or.inr ⟨by rw [hforwardTs.1]; exact heq, UInt64.lt_iff_toNat_lt.mpr (hlow.2.trans_le hforwardTs.2)⟩

/-- Routing through the directory `relay`, with priorities. -/
def cutoverConfig : SimulationConfig :=
  { relayConfig with
    isControlEvent := some fun ev =>
      ev.payload.kind == 42001 || ev.payload.kind == 42002 || ev.payload.kind == 42003 }

theorem prioritizesProtocol_cutoverConfig : PrioritizesProtocol cutoverConfig relay := by
  refine ⟨_, rfl, fun ev => ?_⟩
  simp only [Bool.or_eq_true, beq_iff_eq, or_assoc]
  rfl

/-- The directory and LP 2, before anything is sent. -/
def beforeCutover : Simulation sortedEventQueue OwnerHistory :=
  hostRun (fun _ => directoryLP relay) cutoverConfig [.addLp 1, .addLp 2]
    (Simulation.create _ fun _ => directoryLP relay)

/-- The same once the directory has handled an update that LP 2 has sent. -/
def afterCutover : Simulation sortedEventQueue OwnerHistory :=
  hostRun (fun _ => directoryLP relay) cutoverConfig
    [.send { ts := ⟨5, 0⟩, src := 2, target := 7, payload := { kind := 42001 } }, .runOne {} true]
    beforeCutover

/-- LP 2 sends an update and a normal event for the same time; the directory announces the one and
forwards the other. -/
theorem control_events_first_cutover :
    let askedUpdate : Event := { ts := ⟨5, 0⟩, src := 2, target := 7, payload := { kind := 42001 } }
    let askedNormal : Event := { ts := ⟨5, 0⟩, src := 2, target := 7, payload := { kind := 9 } }
    let update : Event := { askedUpdate with ts := ⟨5, 1⟩, dst := 1, uid := 1 }
    let normal : Event := { askedNormal with ts := ⟨5, 9223372036854775809⟩, dst := 1, uid := 2 }
    (AutoSequenced .host cutoverConfig beforeCutover askedUpdate update ∧
      AutoSequenced .host cutoverConfig afterCutover askedNormal normal ∧ update.ts < normal.ts) ∧
    ∃ install forward,
      SentWhileHandling (fun _ => directoryLP relay) cutoverConfig relay beforeCutover update install ∧
      SentWhileHandling (fun _ => directoryLP relay) cutoverConfig relay afterCutover normal forward ∧
      install.ev.ts < forward.ev.ts := by
  intro askedUpdate askedNormal update normal
  have hfirst := @control_events_first sortedEventQueue _ _ _ _ cutoverConfig
    (hostsDirectory_self relay) prioritizesProtocol_cutoverConfig
  have hupdate : AutoSequenced .host cutoverConfig beforeCutover askedUpdate update :=
    ⟨rfl, by decide +kernel⟩
  have hnormal : AutoSequenced .host cutoverConfig afterCutover askedNormal normal :=
    ⟨rfl, by decide +kernel⟩
  have hbelow : CountersBelow beforeCutover := List.forall_iff_forall_mem.mp (by decide +kernel)
  have hbelow' : CountersBelow afterCutover := List.forall_iff_forall_mem.mp (by decide +kernel)
  have hother : ¬ IsProtocolEvent cutoverConfig relay normal := by unfold IsProtocolEvent; decide
  let asked : Event := { ts := ⟨5, 1⟩, src := 1, dst := 3, target := 7, payload := { kind := 42002 } }
  let copy : Event := { normal with ts := ⟨5, 0⟩, src := 1, dst := 3, uid := 0 }
  have hinstall : SentWhileHandling (fun _ => directoryLP relay) cutoverConfig relay beforeCutover update
      ⟨.handler 1 ⟨5, 1⟩, asked, { asked with uid := 1 }, 0, ⟨0, 0⟩, 0⟩ := ⟨by decide +kernel, _, rfl⟩
  have hforward : SentWhileHandling (fun _ => directoryLP relay) cutoverConfig relay afterCutover normal
      ⟨.handler 1 normal.ts, copy, { copy with ts := normal.ts, uid := 2 }, 0, ⟨0, 0⟩, 0⟩ :=
    ⟨by decide +kernel, _, rfl⟩
  refine ⟨⟨hupdate, hnormal, ?_⟩, _, _, hinstall, hforward, ?_⟩
  · exact hfirst.1 beforeCutover afterCutover _ _ _ _ _ _ hbelow hbelow' hupdate hnormal (Or.inl rfl)
      hother rfl
  · exact hfirst.2 beforeCutover beforeCutover afterCutover _ _ _ normal 3 _ _ hbelow hupdate
      (by decide) rfl hinstall rfl (by decide) hother (by decide +kernel) hforward

end WarpSim

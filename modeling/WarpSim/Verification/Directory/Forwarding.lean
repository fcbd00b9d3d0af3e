import WarpSim.Model.DirectoryLp
import WarpSim.Verification.Runs
import WarpSim.Verification.Stamping

/-! # The events a directory sends

A directory sends at most one event for each event it handles: an install with the stamp of the
update, or a forward whose sequence number comes from the directory's own counters. -/

namespace WarpSim

variable {Q : EventQueue} {σ τ : Type} {model : Model σ} {cfg : SimulationConfig}
  {dcfg : DirectoryLPConfig}

open Prog Simulation

/-! ## Handlers that ask for one send -/

/-- A handler of one state type run by an LP of another. -/
def Handler.map (f : σ → τ) : Handler σ → Handler τ
  | .done state => .done (f state)
  | .throw state what => .throw (f state) what
  | .send ev next => .send ev fun r => (next r).map f
  | .requestWrite state id next => .requestWrite (f state) id (next.map f)
  | .emitCommitted ts payload next => .emitCommitted ts payload fun r => (next r).map f

/-- The handler sends nothing. -/
def Handler.Silent : Handler σ → Prop
  | .done _ => True
  | .throw _ _ => True
  | .send _ _ => False
  | .requestWrite _ _ next => next.Silent
  | .emitCommitted _ _ next => ∀ r, (next r).Silent

/-- The handler sends the given event and no other, or nothing. -/
inductive Handler.Asks : Handler σ → Option Event → Prop where
  | silent {handler : Handler σ} : handler.Silent → Asks handler none
  | send {ev next} : (∀ r, (next r).Silent) → Asks (.send ev next) (some ev)
  | write {state id next asked} : Asks next asked → Asks (.requestWrite state id next) asked

theorem Handler.Silent.map {handler : Handler σ} (h : handler.Silent) (f : σ → τ) :
    (handler.map f).Silent := by
  induction handler with
  | done => trivial
  | throw => trivial
  | send => cases h
  | requestWrite _ _ _ ih => exact ih h
  | emitCommitted _ _ _ ih => exact fun r => ih r (h r)

theorem Handler.Asks.map {handler : Handler σ} {asked : Option Event} (h : handler.Asks asked)
    (f : σ → τ) : (handler.map f).Asks asked := by
  induction h with
  | silent h => exact .silent (h.map f)
  | send h => exact .send fun r => (h r).map f
  | write _ ih => exact .write ih

theorem runHandler_silent (id : LPId) {handler : Handler σ} (h : handler.Silent)
    (rec : ProcessedRecord) (s : Simulation Q σ) :
    (exec (runHandler model cfg id handler rec) s).2.hist.sends = s.hist.sends := by
  induction handler generalizing rec with
  | done => rfl
  | throw => rfl
  | send => cases h
  | requestWrite _ _ _ ih => exact ih h _
  | emitCommitted ts payload next ih =>
      unfold runHandler
      rw [exec_ite]
      split
      · exact ih _ (h _) _
      · exact ih _ (h _) _

/-- The log of sends after an event has been asked for, or nothing. -/
def sendsAfter (cause : SendCause) (cfg : SimulationConfig) (asked : Option Event)
    (s : Simulation Q σ) : List SendRecord :=
  match asked with
  | none => s.hist.sends
  | some ev => (exec (send cause cfg ev) s).2.hist.sends

/-- What a handler adds to the log of sends comes from the event it asks for. -/
theorem runHandler_asks (id : LPId) {handler : Handler σ} {asked : Option Event}
    (h : handler.Asks asked) (rec : ProcessedRecord) (s : Simulation Q σ) :
    (exec (runHandler model cfg id handler rec) s).2.hist.sends =
      sendsAfter (.handler id rec.ev.ts) cfg asked s := by
  induction h generalizing rec with
  | silent h => exact runHandler_silent id h rec s
  | send h =>
      unfold runHandler
      rw [exec_observe_bind]
      exact runHandler_silent id (h _) _ _
  | @write state entity _ _ _ ih =>
      have hnext := ih (requestWrite (model id) state entity rec)
      rw [requestWrite_ev] at hnext
      exact hnext

namespace DirectoryLP

/-- What the directory asks the kernel to send for an event. -/
def asks (dcfg : DirectoryLPConfig) (history : OwnerHistory) (ev : Event) : Option Event :=
  if isFossilCollect dcfg ev then none
  else if isUpdateOwner dcfg ev then
    match dcfg.decodeUpdate with
    | none => none
    | some decodeUpdate =>
      if dcfg.stateEntityId = 0 then none
      else
        match decodeUpdate ev with
        | .error _ => none
        | .ok u => if u.sendInstall then some (install dcfg ev u) else none
  else if ev.target = 0 then none
  else some (forward dcfg history ev)

theorem silent_orThrow {state : OwnerHistory} {next : Handler OwnerHistory} (h : next.Silent)
    (r : Option String) : (orThrow state next r).Silent := by
  cases r with
  | none => exact h
  | some what => trivial

theorem silent_logUpdate (updated : OwnerHistory) (ev : Event) (u : DirectoryUpdate)
    (oldOwner : LPId) : (logUpdate dcfg updated ev u oldOwner).Silent := by
  unfold logUpdate
  split
  · exact silent_orThrow trivial
  · trivial

theorem announceUpdate_asks (updated : OwnerHistory) (ev : Event) (u : DirectoryUpdate)
    (oldOwner : LPId) : (announceUpdate dcfg updated ev u oldOwner).Asks
      (if u.sendInstall then some (install dcfg ev u) else none) := by
  unfold announceUpdate
  split
  · exact .send (silent_orThrow (silent_logUpdate _ _ _ _))
  · exact .silent (silent_logUpdate _ _ _ _)

theorem onEvent_asks (dcfg : DirectoryLPConfig) (history : OwnerHistory) (ev : Event) :
    (onEvent dcfg history ev).Asks (asks dcfg history ev) := by
  unfold onEvent asks
  split
  · unfold onFossilCollect
    split
    · exact .silent trivial
    · split
      · exact .silent trivial
      · split <;> exact .silent trivial
  · split
    · unfold onUpdateOwner
      cases dcfg.decodeUpdate with
      | none => exact .silent trivial
      | some decodeUpdate =>
          dsimp only
          split
          · exact .silent trivial
          · cases decodeUpdate ev with
            | error what => exact .silent trivial
            | ok u => exact .write (announceUpdate_asks _ _ _ _)
    · split
      · exact .silent trivial
      · exact .send (silent_orThrow trivial)

/-- A directory hands on the targeted events that are neither updates nor fossil collections. -/
structure HandsOn (dcfg : DirectoryLPConfig) (ev : Event) : Prop where
  fossil : ¬ isFossilCollect dcfg ev
  update : ¬ isUpdateOwner dcfg ev
  targeted : ev.target ≠ 0

theorem asks_of_handsOn {history : OwnerHistory} {ev : Event} (h : HandsOn dcfg ev) :
    asks dcfg history ev = some (forward dcfg history ev) := by
  rw [asks, if_neg h.fossil, if_neg h.update, if_neg h.targeted]

theorem asks_of_not_handsOn {history : OwnerHistory} {ev asked : Event} (h : ¬ HandsOn dcfg ev)
    (hasked : asks dcfg history ev = some asked) :
    isUpdateOwner dcfg ev ∧ ∃ u, asked = install dcfg ev u := by
  unfold asks at hasked
  split at hasked
  · cases hasked
  · next hfossil =>
    split at hasked
    · next hupdate =>
      refine ⟨hupdate, ?_⟩
      split at hasked
      · cases hasked
      · split at hasked
        · cases hasked
        · split at hasked
          · cases hasked
          · split at hasked
            · exact ⟨_, (Option.some.inj hasked).symm⟩
            · cases hasked
    · next hupdate =>
      split at hasked
      · cases hasked
      · next htarget => exact absurd ⟨hfossil, hupdate, htarget⟩ h

end DirectoryLP

/-- The LP `dcfg.id` of the model is a directory. Its history is the part `history` of the state
of that LP. -/
structure HostsDirectory (model : Model σ) (dcfg : DirectoryLPConfig) (history : σ → OwnerHistory)
    where
  update : σ → OwnerHistory → σ
  history_update : ∀ state h, history (update state h) = h
  onEvent : ∀ state ev, (model dcfg.id).onEvent state ev =
    (DirectoryLP.onEvent dcfg (history state) ev).map (update state)

theorem Handler.map_id (handler : Handler σ) : handler.map id = handler := by
  induction handler with
  | done => rfl
  | throw => rfl
  | send ev next ih => exact congrArg (Handler.send ev) (funext ih)
  | requestWrite state id next ih => exact congrArg (Handler.requestWrite state id) ih
  | emitCommitted ts payload next ih => exact congrArg (Handler.emitCommitted ts payload) (funext ih)

/-- A model of directories only hosts a directory. -/
def hostsDirectory_self (dcfg : DirectoryLPConfig) :
    HostsDirectory (fun _ => directoryLP dcfg) dcfg id where
  update _ history := history
  history_update _ _ := rfl
  onEvent _ _ := (Handler.map_id _).symm

/-! ## The sends of a dispatch -/

/-- `dispatch_` hands the event to its LP. -/
structure Handed (s : Simulation Q σ) (ev : Event) : Prop where
  positive : ev.isAnti = false
  registered : ev.dst ∈ s.lpIds
  onTime : ¬ ev.ts < (s.ctx ev.dst).vt

theorem executeEvent_sends (ev : Event) (c : LPContext σ) (s : Simulation Q σ) :
    (exec (executeEvent model cfg ev c) s).2.hist.sends =
      (exec (runHandler model cfg ev.dst ((model ev.dst).onEvent c.lp ev) (newRecord ev c))
        (entered ev s)).2.hist.sends := by
  unfold executeEvent
  rw [exec_modify_bind, exec_observe_bind, exec_modify_bind]
  change _ = (exec (runHandler model cfg ev.dst ((model ev.dst).onEvent c.lp ev) (newRecord ev c))
    (s.modifyCtx ev.dst fun c => { c with vt := ev.ts, inEvent := true, currentExecTs := ev.ts })).2.hist.sends
  generalize exec (runHandler model cfg ev.dst _ _) _ = res
  obtain ⟨what | rec, s₁⟩ := res
  · dsimp only
    rw [exec_ite]
    split
    · rw [exec_modify_bind, exec_modify_bind, exec_modify, (quiet_validate cfg _).hist]
      rfl
    · rfl
  · dsimp only
    rw [exec_modify_bind, exec_ite]
    split
    · rw [exec_modify_bind, exec_modify_bind, exec_modify, (quiet_validate cfg _).hist,
        releaseDeferredFor_eq]
      rfl
    · rw [exec_modify_bind, exec_modify, (quiet_validate cfg _).hist]
      rfl

/-- Nothing but anti-messages of rollbacks has been sent in between. -/
def OnlyAntis (s s' : Simulation Q σ) : Prop :=
  ∃ extra, s'.hist.sends = s.hist.sends ++ extra ∧ ∀ r ∈ extra, ∃ id, r.cause = .rollback id

theorem OnlyAntis.refl (s : Simulation Q σ) : OnlyAntis s s := ⟨[], by simp, nofun⟩

variable {s₀ : Simulation Q σ}

theorem OnlyAntis.same {s s' : Simulation Q σ} (h : OnlyAntis s₀ s)
    (hs : s'.hist.sends = s.hist.sends) : OnlyAntis s₀ s' := by
  obtain ⟨extra, hextra, hall⟩ := h
  exact ⟨extra, hs.trans hextra, hall⟩

theorem onlyAntis_modify {f : Simulation Q σ → Simulation Q σ}
    (hf : ∀ s, (f s).hist.sends = s.hist.sends) :
    Keeps (OnlyAntis s₀) (modify f : KernelM Q σ PUnit) :=
  keeps_modify fun s h => h.same (hf s)

theorem onlyAntis_validate :
    Keeps (OnlyAntis s₀) (modify (validateInvariants cfg) : KernelM Q σ PUnit) :=
  onlyAntis_modify fun s => congrArg History.sends (quiet_validate cfg s).hist

theorem onlyAntis_lookupCtx_bind {α : Type} {id : LPId} {k : LPContext σ → KernelM Q σ α}
    (h : ∀ c, Keeps (OnlyAntis s₀) (k c)) : Keeps (OnlyAntis s₀) (lookupCtx id >>= k) := by
  intro s hs
  rw [exec_lookupCtx_bind]
  split
  · exact h _ s hs
  · exact hs

theorem onlyAntis_send (id : LPId) (asked : Event) :
    Keeps (OnlyAntis s₀) (send (.rollback id) cfg asked : KernelM Q σ Event) := by
  intro s hs
  rcases send_sends (.rollback id) cfg asked s with ⟨-, h⟩ | ⟨-, r, h, hcause, -⟩
  · exact hs.same h
  · obtain ⟨extra, hextra, hall⟩ := hs
    refine ⟨extra ++ [r], by rw [h, hextra, List.append_assoc], fun r' hr' => ?_⟩
    rcases List.mem_append.mp hr' with hr' | hr'
    · exact hall r' hr'
    · exact ⟨id, by rw [List.mem_singleton.mp hr']; exact hcause⟩

theorem onlyAntis_emitAntis (id : LPId) (log : List SentRecord) :
    Keeps (OnlyAntis s₀) (emitAntis cfg id log : KernelM Q σ Unit) := by
  induction log with
  | nil => exact keeps_pure _
  | cons sent rest ih =>
      unfold emitAntis
      refine keeps_bind (onlyAntis_send id _) fun _ => keeps_bind (onlyAntis_modify fun _ => rfl) ?_
      exact fun _ => ih

theorem undoProcessed_hist (id : LPId) (target : TimeStamp) (s : Simulation Q σ) :
    (undoProcessed model id target s).hist = s.hist := by
  unfold undoProcessed
  simp only [foldl_undoRecord]
  split <;> rfl

theorem onlyAntis_rollback (id : LPId) (target : TimeStamp) :
    Keeps (OnlyAntis s₀) (rollback model cfg id target) := by
  unfold rollback
  refine keeps_bind onlyAntis_validate fun _ => keeps_bind (onlyAntis_modify fun _ => rfl) fun _ => ?_
  refine keeps_bind (onlyAntis_modify fun s => congrArg History.sends (undoProcessed_hist id target s))
    fun _ => keeps_bind (onlyAntis_modify fun _ => rfl) fun _ => keeps_get_bind fun s => ?_
  exact keeps_bind (onlyAntis_emitAntis id _) fun _ => onlyAntis_validate

theorem onlyAntis_cancel (anti : Event) : Keeps (OnlyAntis s₀) (cancel model cfg anti) := by
  unfold cancel
  refine keeps_bind (onlyAntis_modify fun _ => rfl) fun _ => onlyAntis_lookupCtx_bind fun c => ?_
  split
  · exact keeps_bind (onlyAntis_modify fun _ => rfl) fun _ => onlyAntis_rollback _ _
  · exact onlyAntis_modify fun _ => rfl

theorem onlyAntis_dispatchAnti (ev : Event) : Keeps (OnlyAntis s₀) (dispatchAnti model cfg ev) := by
  unfold dispatchAnti
  refine onlyAntis_lookupCtx_bind fun c => keeps_ite (fun _ => ?_) fun _ => keeps_get_bind fun s => ?_
  · refine keeps_bind (onlyAntis_modify fun _ => rfl) fun _ => ?_
    exact keeps_bind (onlyAntis_rollback _ _) fun _ => onlyAntis_modify fun _ => rfl
  · refine keeps_bind (onlyAntis_cancel ev) fun _ => keeps_bind (onlyAntis_modify fun _ => rfl) fun _ => ?_
    exact keeps_bind (onlyAntis_modify fun _ => rfl) fun _ => onlyAntis_validate

/-- The state in which `dispatch_` turns to the event. -/
def noted (cfg : SimulationConfig) (ev : Event) (s : Simulation Q σ) : Simulation Q σ :=
  validateInvariants cfg (recordDispatch ev s)

theorem exec_dispatch (ev : Event) (s : Simulation Q σ) :
    exec (dispatch model cfg ev) s =
      if ev.isAnti then exec (dispatchAnti model cfg ev) (noted cfg ev s)
      else exec (dispatchPositive model cfg ev) (noted cfg ev s) := by
  unfold dispatch
  rw [exec_modify_bind, exec_modify_bind, exec_ite]
  rfl

theorem noted_quiet (ev : Event) (s : Simulation Q σ) :
    Quiet (recordDispatch ev s) (noted cfg ev s) :=
  quiet_validate cfg _

theorem noted_sends (ev : Event) (s : Simulation Q σ) :
    (noted cfg ev s).hist.sends = s.hist.sends := by
  rw [(noted_quiet ev s).hist]
  rfl

/-- A dispatch that does not hand over its event sends anti-messages at most. -/
theorem onlyAntis_dispatch (model : Model σ) (cfg : SimulationConfig) {ev : Event} {s : Simulation Q σ} (h : ¬ Handed s ev) :
    OnlyAntis s (exec (dispatch model cfg ev) s).2 := by
  have hstart : OnlyAntis s (noted cfg ev s) := (OnlyAntis.refl s).same (noted_sends ev s)
  rw [exec_dispatch]
  split
  · exact onlyAntis_dispatchAnti ev _ hstart
  · next hanti =>
    unfold dispatchPositive
    rw [exec_lookupCtx_bind]
    split
    · next hdst =>
      rw [exec_ite]
      split
      · have hstraggler : Keeps (OnlyAntis s) (do
            modify countStraggler
            rollback model cfg ev.dst ev.ts
            modify fun s => s.enqueue ev
            modify (validateInvariants cfg)) :=
          keeps_bind (onlyAntis_modify fun _ => rfl) fun _ =>
            keeps_bind (onlyAntis_rollback _ _) fun _ =>
              keeps_bind (onlyAntis_modify fun _ => rfl) fun _ => onlyAntis_validate
        exact hstraggler _ hstart
      · next hvt =>
        rw [(noted_quiet ev s).ctx] at hvt
        rw [(noted_quiet ev s).lpIds] at hdst
        exact absurd ⟨by simpa using hanti, hdst, hvt⟩ h
    · exact hstart

/-- A dispatch that hands over its event sends what the handler sends. -/
theorem dispatch_sends {ev : Event} {s : Simulation Q σ} (h : Handed s ev) :
    (exec (dispatch model cfg ev) s).2.hist.sends =
      (exec (runHandler model cfg ev.dst ((model ev.dst).onEvent (s.ctx ev.dst).lp ev)
        (newRecord ev (s.ctx ev.dst))) (entered ev (noted cfg ev s))).2.hist.sends := by
  have hctx : (noted cfg ev s).ctx = s.ctx := (noted_quiet ev s).ctx
  have hids : (noted cfg ev s).lpIds = s.lpIds := (noted_quiet ev s).lpIds
  rw [exec_dispatch, if_neg (by simp [h.positive])]
  unfold dispatchPositive
  rw [exec_lookupCtx_bind, if_pos (by rw [hids]; exact h.registered), exec_ite,
    if_neg (by rw [hctx]; exact h.onTime), executeEvent_sends, hctx]

/-! ## Forwarding into the past -/

/-- What the LP of `ev` sends while it handles `ev` is not stamped before `ev`. -/
def SendsNothingEarlier (model : Model σ) (cfg : SimulationConfig) (ev : Event)
    (s : Simulation Q σ) : Prop :=
  ∀ r ∈ (exec (dispatch model cfg ev) s).2.hist.sends.drop s.hist.sends.length,
    (∃ execTs, r.cause = .handler ev.dst execTs) → ev.ts ≤ r.ev.ts

variable {history : σ → OwnerHistory}

/-- The forward of `ev`, as the directory passes it to `send`. -/
def forwardOf (dcfg : DirectoryLPConfig) (history : σ → OwnerHistory) (s : Simulation Q σ)
    (ev : Event) : Event :=
  DirectoryLP.forward dcfg (history (s.ctx dcfg.id).lp) ev

/-- The directory gets `ev`, hands it on, and `send` accepts the forward. -/
structure Forwards (cfg : SimulationConfig) (dcfg : DirectoryLPConfig) (history : σ → OwnerHistory)
    (s : Simulation Q σ) (ev : Event) : Prop where
  handed : Handed s ev
  handsOn : DirectoryLP.HandsOn dcfg ev
  sendable : Sendable cfg s (forwardOf dcfg history s ev)

/-- The sequence number that the directory's counters hold for the forward of `ev`. -/
def forwardSequence (cfg : SimulationConfig) (dcfg : DirectoryLPConfig) (history : σ → OwnerHistory)
    (s : Simulation Q σ) (ev : Event) : UInt64 :=
  autoSequence cfg (s.ctx dcfg.id) (withUid (s.ctx dcfg.id) (forwardOf dcfg history s ev))

theorem sameCounters_entered (cfg : SimulationConfig) (ev : Event) (s : Simulation Q σ) (i : LPId) :
    SameCounters (s.ctx i) ((entered ev (noted cfg ev s)).ctx i) := by
  have hctx : (noted cfg ev s).ctx = s.ctx := (noted_quiet ev s).ctx
  by_cases hi : i = ev.dst
  · rw [entered, hi, modifyCtx_self, hctx]
    exact ⟨rfl, rfl, rfl⟩
  · rw [entered, modifyCtx_of_ne _ _ hi, hctx]
    exact ⟨rfl, rfl, rfl⟩

/-- The state in which the handler runs accepts the same events. -/
theorem sendable_entered {ev asked : Event} {s : Simulation Q σ} :
    Sendable cfg (entered ev (noted cfg ev s)) asked ↔ Sendable cfg s asked := by
  have hids : (entered ev (noted cfg ev s)).lpIds = s.lpIds := (noted_quiet ev s).lpIds
  have howner : (entered ev (noted cfg ev s)).entityOwner = s.entityOwner := by
    change (noted cfg ev s).entityOwner = s.entityOwner
    rw [noted_quiet ev s]
    rfl
  have hctx := sameCounters_entered cfg ev s asked.src
  exact ⟨fun h => h.congr hids.symm howner.symm hctx.symm, fun h => h.congr hids howner hctx⟩

/-- What a directory adds to the log of sends while it handles an event. -/
theorem dispatch_directory_sends (cfg : SimulationConfig) (host : HostsDirectory model dcfg history) {ev : Event}
    {s : Simulation Q σ} (hdst : ev.dst = dcfg.id) (h : Handed s ev) :
    match DirectoryLP.asks dcfg (history (s.ctx dcfg.id).lp) ev with
    | none => (exec (dispatch model cfg ev) s).2.hist.sends = s.hist.sends
    | some asked =>
      (¬ Sendable cfg s asked ∧ (exec (dispatch model cfg ev) s).2.hist.sends = s.hist.sends) ∨
      (Sendable cfg s asked ∧ ∃ r,
        (exec (dispatch model cfg ev) s).2.hist.sends = s.hist.sends ++ [r] ∧
        r.cause = .handler dcfg.id ev.ts ∧
        r.ev.ts = stampedTs cfg (s.ctx asked.src) (withUid (s.ctx asked.src) asked)) := by
  have hsends : (exec (dispatch model cfg ev) s).2.hist.sends = sendsAfter (.handler dcfg.id ev.ts) cfg
      (DirectoryLP.asks dcfg (history (s.ctx dcfg.id).lp) ev) (entered ev (noted cfg ev s)) := by
    rw [dispatch_sends h, ← hdst]
    refine runHandler_asks ev.dst ?_ _ _
    rw [hdst, host.onEvent]
    exact (DirectoryLP.onEvent_asks _ _ _).map _
  have hstart : (entered ev (noted cfg ev s)).hist.sends = s.hist.sends := noted_sends ev s
  rw [hsends]
  cases DirectoryLP.asks dcfg (history (s.ctx dcfg.id).lp) ev with
  | none => exact hstart
  | some asked =>
      have hctx := sameCounters_entered cfg ev s asked.src
      have hout := send_sends (.handler dcfg.id ev.ts) cfg asked (entered ev (noted cfg ev s))
      rw [sendable_entered, hstart] at hout
      refine hout.imp_right fun ⟨hsendable, r, hr, hcause, hts⟩ => ⟨hsendable, r, hr, hcause, ?_⟩
      rw [hts, hctx.withUid]
      unfold stampedTs
      rw [hctx.autoSequence]

/-- The forward is not stamped before `ev` if and only if the directory's counter has got as far as
the sequence number of `ev`. -/
theorem le_forward_iff (c : LPContext σ) (history : OwnerHistory) (ev : Event) :
    ev.ts ≤ stampedTs cfg c (withUid c (DirectoryLP.forward dcfg history ev)) ↔
      ev.ts.sequence ≤ autoSequence cfg c (withUid c (DirectoryLP.forward dcfg history ev)) := by
  have hts : (withUid c (DirectoryLP.forward dcfg history ev)).ts = ⟨ev.ts.time, 0⟩ := withUid_ts _ _
  rw [stampedTs, if_neg (by rw [hts]; simp), hts, TimeStamp.le_iff_key]
  simp only [TimeStamp.key, UInt64.le_iff_toNat_le]
  omega

theorem stampedTs_install (c : LPContext σ) {ev : Event} (u : DirectoryUpdate)
    (h : ev.ts.sequence ≠ 0) :
    stampedTs cfg c (withUid c (DirectoryLP.install dcfg ev u)) = ev.ts := by
  have hts : (withUid c (DirectoryLP.install dcfg ev u)).ts = ev.ts := withUid_ts _ _
  rw [stampedTs, hts, if_pos h]

/-- A directory sends nothing before the event it handles, unless it forwards an event whose sequence
number its own counter has not reached. -/
theorem sendsNothingEarlier_iff (cfg : SimulationConfig) (host : HostsDirectory model dcfg history)
    {ev : Event} (s : Simulation Q σ) (hdst : ev.dst = dcfg.id) (hseq : ev.ts.sequence ≠ 0) :
    SendsNothingEarlier model cfg ev s ↔
      (Forwards cfg dcfg history s ev → ev.ts.sequence ≤ forwardSequence cfg dcfg history s ev) := by
  by_cases hhanded : Handed s ev
  swap
  · obtain ⟨extra, hextra, hall⟩ := onlyAntis_dispatch model cfg hhanded
    refine iff_of_true (fun r hr hcause => ?_) fun h => absurd h.handed hhanded
    rw [hextra, List.drop_left] at hr
    obtain ⟨id, hid⟩ := hall r hr
    obtain ⟨execTs, hexec⟩ := hcause
    rw [hid] at hexec
    cases hexec
  have hsends := dispatch_directory_sends cfg host hdst hhanded
  by_cases hon : DirectoryLP.HandsOn dcfg ev
  · rw [DirectoryLP.asks_of_handsOn hon] at hsends
    rcases hsends with ⟨hno, hsame⟩ | ⟨hyes, r, hone, hcause, hts⟩
    · refine iff_of_true (fun r hr => ?_) fun h => absurd h.sendable hno
      simp [hsame] at hr
    · have hle : ev.ts ≤ r.ev.ts ↔ ev.ts.sequence ≤ forwardSequence cfg dcfg history s ev := by
        rw [hts]
        exact le_forward_iff _ _ _
      unfold SendsNothingEarlier
      rw [hone, List.drop_left]
      constructor
      · intro h _
        exact hle.mp (h r List.mem_cons_self ⟨ev.ts, by rw [hcause, hdst]⟩)
      · intro h r' hr' _
        rw [List.mem_singleton.mp hr']
        exact hle.mpr (h ⟨hhanded, hon, hyes⟩)
  · -- what is sent is an install, with the stamp of the update
    refine iff_of_true (fun r hr _ => ?_) fun h => absurd h.handsOn hon
    generalize hasks : DirectoryLP.asks dcfg (history (s.ctx dcfg.id).lp) ev = asked at hsends
    cases asked with
    | none => simp [hsends] at hr
    | some asked =>
        obtain ⟨-, u, rfl⟩ := DirectoryLP.asks_of_not_handsOn hon hasks
        rcases hsends with ⟨-, hsame⟩ | ⟨-, r', hone, -, hts⟩
        · simp [hsame] at hr
        · rw [hone, List.drop_left] at hr
          rw [List.mem_singleton.mp hr, hts, stampedTs_install _ u hseq]

/-- A directory that sends updates of entity ownership on to LP 3 as installs. -/
def relay : DirectoryLPConfig where
  id := 1
  id_ne_zero := by decide
  stateEntityId := 99
  updateOwnerKind := 42001
  decodeUpdate := some fun ev =>
    .ok { entity := ev.target, newOwner := 3, sendInstall := true, installPayload := { kind := 42002 } }
  fossilCollectKind := 42003
  defaultOwner := some fun _ _ => 3

/-- Routing through the directory `relay`, without priorities. -/
def relayConfig : SimulationConfig where
  directoryForEntity := some fun _ => 1

/-- A targeted event with sequence number 3 reaches a fresh directory, which forwards it with
sequence number 1. -/
theorem forward_into_the_past :
    let ev : Event := { ts := ⟨5, 3⟩, src := 2, dst := 1, target := 7, uid := 4 }
    let s := hostRun (Q := sortedEventQueue) (fun _ => directoryLP relay) relayConfig
      [.addLp 1] (Simulation.create _ fun _ => directoryLP relay)
    ¬ SendsNothingEarlier (fun _ => directoryLP relay) relayConfig ev s := by
  intro ev s h
  have hsent := h ⟨.handler 1 ⟨5, 3⟩, { ev with ts := ⟨5, 0⟩, src := 1, dst := 3, uid := 0 },
    { ev with ts := ⟨5, 1⟩, src := 1, dst := 3, uid := 1 }, 0, ⟨0, 0⟩, 0⟩ (by decide +kernel) ⟨_, rfl⟩
  exact absurd hsent (by decide)

/-- The directory forwards an event with sequence number 1 in time. -/
theorem sendsNothingEarlier_iff_relay :
    let ev : Event := { ts := ⟨5, 1⟩, src := 2, dst := 1, target := 7, uid := 4 }
    let s := hostRun (Q := sortedEventQueue) (fun _ => directoryLP relay) relayConfig
      [.addLp 1] (Simulation.create _ fun _ => directoryLP relay)
    SendsNothingEarlier (fun _ => directoryLP relay) relayConfig ev s := by
  intro ev s
  exact (sendsNothingEarlier_iff relayConfig (hostsDirectory_self relay) s rfl (by decide)).mpr
    fun _ => by decide +kernel

end WarpSim

import WarpSim.Verification.Dispatching

/-! # Sent logs

An LP logs each positive event it sends, with the time of the event it is executing, and a rollback takes
entries off the end of the log. What is still to be cancelled can also be read off the history of the
sends. -/

namespace WarpSim

variable {Q : EventQueue} {σ : Type} {sound final : Prop} {model : Model σ} {cfg : SimulationConfig}

open Simulation

/-! ## What is outstanding -/

/-- The time of the event that the LP was executing as the event was sent, and the first stamp if there
was none. -/
def SendRecord.execTs (i : LPId) (r : SendRecord) : TimeStamp :=
  match r.cause with
  | .handler id execTs => if id = i then execTs else ⟨0, 0⟩
  | _ => ⟨0, 0⟩

/-- What the LP has to remember of an event that it has sent. -/
def SendRecord.entry (i : LPId) (r : SendRecord) : SentRecord := ⟨r.execTs i, r.ev.ts, r.ev.dst, r.ev.uid⟩

/-- Take out the latest send that the anti-message is for. -/
def withdraw (i : LPId) (anti : Event) (sends : List SendRecord) : List SendRecord :=
  (sends.reverse.eraseP fun r => antiOf i (r.entry i) = anti).reverse

/-- A send makes a positive event outstanding, or cancels one. -/
def account (i : LPId) (sends : List SendRecord) (r : SendRecord) : List SendRecord :=
  if r.cause = .rollback i then withdraw i r.asked sends
  else if r.ev.src = i ∧ r.ev.isAnti = false then sends ++ [r]
  else sends

/-- The positive events of the LP that no rollback of it has cancelled. -/
def outstanding (i : LPId) (sends : List SendRecord) : List SendRecord := sends.foldl (account i) []

theorem outstanding_append (i : LPId) (sends : List SendRecord) (r : SendRecord) :
    outstanding i (sends ++ [r]) = account i (outstanding i sends) r := by
  rw [outstanding, List.foldl_append]
  rfl

theorem withdraw_last (i : LPId) (sends : List SendRecord) (r : SendRecord) :
    withdraw i (antiOf i (r.entry i)) (sends ++ [r]) = sends := by
  simp [withdraw, List.eraseP_cons_of_pos]

/-- The log of an LP is the end of what is outstanding. -/
def Logged (i : LPId) (log : List SentRecord) (sends : List SendRecord) : Prop :=
  log <:+ (outstanding i sends).map (·.entry i)

theorem Logged.sent {i : LPId} {log : List SentRecord} {sends : List SendRecord} {r : SendRecord}
    (h : Logged i log sends) (hcause : r.cause ≠ .rollback i) (hsrc : r.ev.src = i)
    (hpos : r.ev.isAnti = false) : Logged i (log ++ [r.entry i]) (sends ++ [r]) := by
  unfold Logged
  rw [outstanding_append, account, if_neg hcause, if_pos ⟨hsrc, hpos⟩, List.map_append]
  exact List.suffix_append_self_iff.mpr h

theorem Logged.other {i : LPId} {log : List SentRecord} {sends : List SendRecord} {r : SendRecord}
    (h : Logged i log sends) (hcause : r.cause ≠ .rollback i) (hr : ¬ (r.ev.src = i ∧ r.ev.isAnti = false)) :
    Logged i log (sends ++ [r]) := by
  unfold Logged
  rw [outstanding_append, account, if_neg hcause, if_neg hr]
  exact h

/-- The anti-message for the last entry withdraws the last send. -/
theorem Logged.annulled {i : LPId} {log : List SentRecord} {sends : List SendRecord} {r : SendRecord}
    {sent : SentRecord} (h : Logged i (log ++ [sent]) sends) (hcause : r.cause = .rollback i)
    (hasked : r.asked = antiOf i sent) : Logged i log (sends ++ [r]) := by
  obtain ⟨gone, hgone⟩ := h
  rw [← List.append_assoc] at hgone
  obtain ⟨rest, last, hsplit, hopen, hlast⟩ := List.map_eq_append_iff.mp hgone.symm
  obtain ⟨r', rfl, hr'⟩ := List.map_eq_singleton_iff.mp hlast
  unfold Logged
  rw [outstanding_append, account, if_pos hcause, hasked, ← hr', hsplit, withdraw_last, hopen]
  exact List.suffix_append _ _

/-! ## What a move does to a log -/

/-- What a move does to the log of the LP `i`. -/
inductive LogStep (cfg : SimulationConfig) (i : LPId) (x y : Situation Q σ) : Prop where
  | same : y.state.hist.sends = x.state.hist.sends → (y.state.ctx i).sentLog = (x.state.ctx i).sentLog →
      LogStep cfg i x y
  | registered : y.state.hist.sends = x.state.hist.sends → i ∉ x.state.lpIds →
      (y.state.ctx i).sentLog = [] → LogStep cfg i x y
  | sent (r : SendRecord) : y.state.hist.sends = x.state.hist.sends ++ [r] → r.cause ≠ .rollback i →
      r.ev.src = i → r.ev.isAnti = false → i ∈ x.state.lpIds →
      (r.ev.uid ≠ 0 ∧ (cfg.isControlEvent ≠ none → r.ev.ts.sequence ≠ 0)) →
      (y.state.ctx i).sentLog = (x.state.ctx i).sentLog ++ [r.entry i] → LogStep cfg i x y
  | other (r : SendRecord) : y.state.hist.sends = x.state.hist.sends ++ [r] → r.cause ≠ .rollback i →
      (r.ev.src = i → r.ev.isAnti = false → i ∉ x.state.lpIds) →
      (y.state.ctx i).sentLog = (x.state.ctx i).sentLog → LogStep cfg i x y
  | annulled (r : SendRecord) (sent : SentRecord) (rest : List (LPId × SentRecord)) :
      y.state.hist.sends = x.state.hist.sends ++ [r] → r.cause = .rollback i → r.asked = antiOf i sent →
      x.owed = (i, sent) :: rest → (y.state.ctx i).sentLog = (x.state.ctx i).sentLog.dropLast →
      LogStep cfg i x y

/-- A caller of `send` is at work with an LP as its log will say. -/
theorem BooksInv.execTs {a : Activity σ} {s : Simulation Q σ} (h : BooksInv ⟨a, [], s⟩) {cause : SendCause}
    {asked : Event} (hallows : a.Allows s cause asked) {r : SendRecord} (hr : r.cause = cause) (i : LPId) :
    (if (s.ctx i).inEvent then (s.ctx i).currentExecTs else ⟨0, 0⟩) = r.execTs i := by
  have hidle : a = .idle → (s.ctx i).inEvent = false := by
    rintro rfl
    exact h.idle nofun i
  cases a with
  | idle =>
      rw [hidle rfl]
      cases cause <;> simp_all [Activity.Allows, SendRecord.execTs]
  | executing before ev calls =>
      cases cause with
      | handler id execTs =>
          obtain ⟨rfl, rfl⟩ := hallows
          obtain ⟨_, _, _, hbooks⟩ := h.stage
          by_cases hi : ev.dst = i
          · subst hi
            rw [hbooks.inEvent, hbooks.currentExecTs]
            simp [SendRecord.execTs, hr, LPContext.enter]
          · have hout : (s.ctx i).inEvent = false := by
              by_contra hin
              obtain ⟨before', ev', hstage, hdst⟩ := h.executing i (by simpa using hin)
              cases hstage
              exact hi hdst
            rw [hout]
            simp [SendRecord.execTs, hr, hi]
      | _ => cases hallows
  | _ => cases cause <;> cases hallows

theorem LogStep.of_ctx {i : LPId} {x y : Situation Q σ} (hsends : y.state.hist.sends = x.state.hist.sends)
    (hctx : y.state.ctx i = x.state.ctx i) : LogStep cfg i x y :=
  .same hsends (congrArg LPContext.sentLog hctx)

theorem sentLog_setLp (id : LPId) (state : σ) (s : Simulation Q σ) (i : LPId) :
    ((setLp id state s).ctx i).sentLog = (s.ctx i).sentLog :=
  modifyCtx_proj (f := fun c => { c with lp := state }) (·.sentLog) (fun _ => rfl) s id i

theorem sentLog_left (id : LPId) (s : Simulation Q σ) (i : LPId) :
    ((left id s).ctx i).sentLog = (s.ctx i).sentLog :=
  modifyCtx_proj (f := fun c => { c with inEvent := false }) (·.sentLog) (fun _ => rfl) s id i

theorem sentLog_renumber (id : LPId) (u n k : UInt64) (w : Bool) (s : Simulation Q σ) (i : LPId) :
    ((renumber id u n k w s).ctx i).sentLog = (s.ctx i).sentLog :=
  modifyCtx_proj (f := fun c => { c with nextUid := u, nextSeqNormal := n, nextSeqControl := k })
    (·.sentLog) (fun _ => rfl) s id i

theorem sentLog_pushProcessed (id : LPId) (rec : ProcessedRecord) (s : Simulation Q σ) (i : LPId) :
    ((pushProcessed id rec s).ctx i).sentLog = (s.ctx i).sentLog :=
  modifyCtx_proj (f := fun c => { c with
    processed := c.processed ++ [rec], executed := c.executed ++ [rec] }) (·.sentLog) (fun _ => rfl) s id i

theorem sentLog_unwound (id : LPId) (target : TimeStamp) (s : Simulation Q σ) (i : LPId) :
    ((unwound model id target s).ctx i).sentLog = (s.ctx i).sentLog := by
  rw [unwound_ctx]
  by_cases hi : i = id
  · rw [hi, Function.update_self, LPContext.rewind_eq]
  · rw [Function.update_of_ne hi]

theorem sentLog_logged_self {ev : Event} (hpos : ev.isAnti = false) (s : Simulation Q σ) :
    ((logged ev s).ctx ev.src).sentLog = (s.ctx ev.src).sentLog ++
      [⟨if (s.ctx ev.src).inEvent then (s.ctx ev.src).currentExecTs else ⟨0, 0⟩, ev.ts, ev.dst, ev.uid⟩] := by
  unfold logged logEntries
  rw [modifyCtx_self, hpos]
  rfl

theorem sentLog_logged_of_ne {ev : Event} {i : LPId} (h : i ≠ ev.src) (s : Simulation Q σ) :
    ((logged ev s).ctx i).sentLog = (s.ctx i).sentLog :=
  congrArg LPContext.sentLog (modifyCtx_of_ne s _ h)

theorem Activity.Allows.cause_ne {a : Activity σ} {s : Simulation Q σ} {cause : SendCause} {asked : Event}
    (h : a.Allows s cause asked) (i : LPId) : cause ≠ .rollback i := by
  rintro rfl
  cases a <;> exact h

theorem stamped_positive {s v : Simulation Q σ} {asked ev : Event} {uid normal control : UInt64} {wraps : Bool}
    (h : Stamped cfg s asked ev uid normal control wraps) :
    (stampColor cfg v ev).src = asked.src ∧ (stampColor cfg v ev).isAnti = asked.isAnti := by
  rw [stampColor_src, stampColor_isAnti, h.frame]
  exact ⟨rfl, rfl⟩

theorem Move.logStep {x y : Situation Q σ} (h : Move model cfg x y) (hx : BooksInv x) (i : LPId) :
    LogStep cfg i x y := by
  cases h with
  | quiet hq => exact .of_ctx (by rw [hq]) (congrFun hq.ctx i)
  | @register s id hid =>
      by_cases hi : i = id
      · subst hi
        refine .registered rfl hid ?_
        dsimp only
        rw [Function.update_self]
      · exact .of_ctx rfl (Function.update_of_ne hi ..)
  | @prepare s id state => exact .same rfl (sentLog_setLp id state s i)
  | receive => exact .of_ctx (by rw [receiveEvent_eq]) (by rw [receiveEvent_eq])
  | acknowledge => exact .of_ctx (by rw [receiveAck_eq]) (by rw [receiveAck_eq])
  | @migrate s mig rest => exact .same rfl (sentLog_setLp mig.newOwner _ { s with pendingMigrations := rest } i)
  | @sent a s cause asked ev u n k w hallows hst hsrc =>
      obtain ⟨hevsrc, hevanti⟩ := stamped_positive (v := s) hst
      have hsends : (logged (stampColor cfg s ev) (posted cause cfg asked (stampColor cfg s ev)
          (renumber asked.src u n k w s))).hist.sends = s.hist.sends ++
            [sendRecord cause asked (stampColor cfg s ev) (cfg.rankOf (stampColor cfg s ev).dst)
              (renumber asked.src u n k w s)] := posted_sends ..
      have hposted : ((posted cause cfg asked (stampColor cfg s ev) (renumber asked.src u n k w s)).ctx i).sentLog =
          (s.ctx i).sentLog := by rw [posted_ctx, sentLog_renumber]
      by_cases hmine : asked.src = i ∧ asked.isAnti = false
      · obtain ⟨rfl, hpos⟩ := hmine
        refine .sent _ hsends (hallows.cause_ne _) hevsrc (hevanti.trans hpos)
          (hsrc.resolve_left (by simp [hpos])) ⟨?_, fun hcontrol => ?_⟩ ?_
        · have huid := hst.uid_ne_zero
          change (stampColor cfg s ev).uid ≠ 0
          rw [stampColor_eq]
          exact huid
        · change (stampColor cfg s ev).ts.sequence ≠ 0
          rw [stampColor_ts]
          exact hst.sequence_tagged hcontrol
        · rw [← hevsrc]
          dsimp only
          rw [sentLog_logged_self (hevanti.trans hpos), hevsrc, hposted, posted_ctx]
          have hwork := sameWork_renumber asked.src u n k w s asked.src
          have htime := hx.execTs hallows (r := sendRecord cause asked (stampColor cfg s ev)
            (cfg.rankOf (stampColor cfg s ev).dst) (renumber asked.src u n k w s)) rfl asked.src
          rw [hwork.inEvent, hwork.currentExecTs, htime]
          rfl
      · refine .other _ hsends (hallows.cause_ne _) (fun h1 h2 => ?_) ?_
        · exact absurd ⟨hevsrc.symm.trans h1, hevanti.symm.trans h2⟩ hmine
        · dsimp only
          by_cases hi : i = asked.src
          · have hanti : asked.isAnti = true := by
              by_contra hne
              exact hmine ⟨hi.symm, by simpa using hne⟩
            rw [logged_of_anti (hevanti.trans hanti), hposted]
          · rw [sentLog_logged_of_ne (by rw [hevsrc]; exact hi), hposted]
  | @unlogged a s cause asked ev u n k w what hallows hst hpos hsrc =>
      obtain ⟨hevsrc, -⟩ := stamped_positive (v := s) hst
      refine .other _ (posted_sends ..) (hallows.cause_ne _) (fun h1 _ => ?_) ?_
      · rw [← h1]
        exact hevsrc ▸ hsrc
      · dsimp only
        rw [posted_ctx, sentLog_renumber]
  | @refused a s asked u n k w => exact .same rfl (sentLog_renumber asked.src u n k w s i)
  | @straggle s ev => exact .same (by rw [unwound_eq]) (sentLog_unwound ev.dst ev.ts s i)
  | @enter s ev =>
      refine .same rfl ?_
      exact modifyCtx_proj (f := fun c => c.enter ev) (·.sentLog) (fun _ => rfl) s ev.dst i
  | @store before ev calls s state => exact .same rfl (sentLog_setLp ev.dst state s i)
  | @finish before ev calls s rec =>
      exact .same rfl ((sentLog_pushProcessed ev.dst rec (left ev.dst s) i).trans (sentLog_left ev.dst s i))
  | release => exact .of_ctx (by rw [released_eq]; rfl) (by rw [released_eq])
  | @defer before ev calls s =>
      refine .same rfl (Eq.trans ?_ (sentLog_left ev.dst s i))
      exact modifyCtx_proj (f := fun c => { c with vt := before.vt, currentExecTs := before.vt })
        (·.sentLog) (fun _ => rfl) (left ev.dst s) ev.dst i
  | @abort before ev calls s => exact .same rfl (sentLog_left ev.dst s i)
  | @matched s rec r => exact .same (by rw [unwound_eq]) (sentLog_unwound rec.ev.dst r.ev.ts s i)
  | @settle s rec =>
      refine .same rfl ((sentLog_pushProcessed rec.ev.dst rec _ i).trans ?_)
      exact modifyCtx_proj (f := fun c => { c with vt := rec.ev.ts }) (·.sentLog) (fun _ => rfl) s rec.ev.dst i
  | @annul a id log owed s ev u n k w hst =>
      have hsends : ((posted (.rollback id) cfg (antiOf id log) (stampColor cfg s ev)
          (renumber id u n k w s)).modifyCtx id fun c =>
            { c with sentLog := c.sentLog.dropLast }).hist.sends = s.hist.sends ++
          [sendRecord (.rollback id) (antiOf id log) (stampColor cfg s ev)
            (cfg.rankOf (stampColor cfg s ev).dst) (renumber id u n k w s)] := posted_sends ..
      by_cases hi : i = id
      · subst hi
        refine .annulled _ log owed hsends rfl rfl rfl ?_
        dsimp only
        rw [modifyCtx_self, posted_ctx]
        exact congrArg List.dropLast (sentLog_renumber i u n k w s i)
      · refine .other _ hsends (fun h => hi (SendCause.rollback.inj h).symm) (fun _ h => ?_) ?_
        · exact absurd ((stamped_positive (v := s) hst).2.symm.trans h) (by simp [antiOf])
        · dsimp only
          rw [modifyCtx_of_ne _ _ hi, posted_ctx, sentLog_renumber]
  | @stuck a id log owed s ev u n k w => exact .same rfl (sentLog_renumber id u n k w s i)
  | _ => exact .of_ctx rfl rfl

/-! ## The invariant -/

/-- What is owed are the last entries of the log of one LP, newest first. -/
def Situation.Owes (x : Situation Q σ) : Prop :=
  ∃ (id : LPId) (log : List SentRecord), x.owed = log.map (id, ·) ∧ log.reverse <:+ (x.state.ctx id).sentLog

theorem owes_nil {a : Activity σ} {s : Simulation Q σ} : Situation.Owes ⟨a, [], s⟩ :=
  ⟨0, [], rfl, List.nil_suffix⟩

theorem owes_unwound {a : Activity σ} {s : Simulation Q σ} (id : LPId) (target : TimeStamp) :
    Situation.Owes ⟨a, owedAntis id target s, unwound model id target s⟩ := by
  refine ⟨id, cancelledSends target (s.ctx id).sentLog, rfl, ?_⟩
  dsimp only
  rw [sentLog_unwound, cancelledSends_eq, List.reverse_reverse]
  exact List.rtakeWhile_suffix ..

theorem Move.owes {x y : Situation Q σ} (h : Move model cfg x y) (hx : x.Owes) : y.Owes := by
  cases h with
  | quiet hq =>
      obtain ⟨id, log, howed, hlog⟩ := hx
      refine ⟨id, log, howed, ?_⟩
      dsimp only
      rw [hq.ctx]
      exact hlog
  | straggle => exact owes_unwound ..
  | matched => exact owes_unwound ..
  | @annul a id log owed s ev u n k w =>
      obtain ⟨i, entries, howed, pre, hpre⟩ := hx
      cases entries with
      | nil => cases howed
      | cons head rest =>
          obtain ⟨hhead, hrest⟩ := List.cons.inj howed
          cases hhead
          refine ⟨id, rest, hrest, pre, ?_⟩
          dsimp only at hpre ⊢
          rw [modifyCtx_self, posted_ctx]
          change _ = ((renumber id u n k w s).ctx id).sentLog.dropLast
          rw [sentLog_renumber, ← hpre, List.reverse_cons, ← List.append_assoc, List.dropLast_concat]
  | _ => exact owes_nil

/-- The logs agree with the history of the sends, and all of their entries can be annulled. -/
structure SentLogInv (cfg : SimulationConfig) (x : Situation Q σ) : Prop where
  fresh : ∀ i, i ∉ x.state.lpIds → (x.state.ctx i).sentLog = []
  logged : ∀ i, Logged i (x.state.ctx i).sentLog x.state.hist.sends
  loggable : Loggable cfg x.state
  owes : x.Owes

theorem LogStep.fresh {i : LPId} {x y : Situation Q σ} (h : LogStep cfg i x y)
    (hx : (x.state.ctx i).sentLog = []) (hi : i ∉ x.state.lpIds) : (y.state.ctx i).sentLog = [] := by
  cases h with
  | same _ hlog => rw [hlog, hx]
  | registered _ _ hlog => exact hlog
  | sent _ _ _ _ _ hmem => exact absurd hmem hi
  | other _ _ _ _ hlog => rw [hlog, hx]
  | annulled _ _ _ _ _ _ _ hlog =>
      rw [hlog, hx]
      rfl

theorem LogStep.logged {i : LPId} {x y : Situation Q σ} (h : LogStep cfg i x y)
    (hx : SentLogInv cfg x) : Logged i (y.state.ctx i).sentLog y.state.hist.sends := by
  have hlogged := hx.logged i
  cases h with
  | same hsends hlog => rwa [hsends, hlog]
  | registered hsends hi hlog =>
      rw [hsends, hlog]
      exact List.nil_suffix
  | sent r hsends hcause hsrc hpos _ _ hlog =>
      rw [hsends, hlog]
      exact hlogged.sent hcause hsrc hpos
  | other r hsends hcause hother hlog =>
      rw [hsends, hlog]
      by_cases hmine : r.ev.src = i ∧ r.ev.isAnti = false
      · rw [hx.fresh i (hother hmine.1 hmine.2)]
        exact List.nil_suffix
      · exact hlogged.other hcause hmine
  | annulled r sent rest hsends hcause hasked howed hlog =>
      obtain ⟨id, log, howes, pre, hpre⟩ := hx.owes
      rw [howed] at howes
      cases log with
      | nil => cases howes
      | cons head tail =>
          cases (List.cons.inj howes).1
          rw [List.reverse_cons, ← List.append_assoc] at hpre
          rw [← hpre] at hlogged
          rw [hsends, hlog, ← hpre, List.dropLast_concat]
          exact hlogged.annulled hcause hasked

theorem LogStep.loggable {i : LPId} {x y : Situation Q σ} (h : LogStep cfg i x y)
    (hx : ∀ sent ∈ (x.state.ctx i).sentLog, sent.Annullable cfg) :
    ∀ sent ∈ (y.state.ctx i).sentLog, sent.Annullable cfg := by
  cases h with
  | same _ hlog => rwa [hlog]
  | registered _ _ hlog => simp [hlog]
  | sent r _ _ _ _ _ hvalid hlog =>
      rw [hlog]
      intro sent hsent
      rcases List.mem_append.mp hsent with hmem | hmem
      · exact hx sent hmem
      · rw [List.mem_singleton.mp hmem]
        exact ⟨hvalid.1, hvalid.2⟩
  | other _ _ _ _ hlog => rwa [hlog]
  | annulled _ _ _ _ _ _ _ hlog =>
      rw [hlog]
      exact fun sent hsent => hx sent (List.dropLast_subset _ hsent)

theorem Move.sentLogInv {x y : Situation Q σ} (h : Move model cfg x y) (hb : BooksInv x)
    (hx : SentLogInv cfg x) : SentLogInv cfg y := by
  refine ⟨fun i hi => ?_, fun i => (h.logStep hb i).logged hx, fun i => (h.logStep hb i).loggable (hx.loggable i),
    h.owes hx.owes⟩
  have hi' : i ∉ x.state.lpIds := fun hmem => hi (h.lpIds_subset hmem)
  exact (h.logStep hb i).fresh (hx.fresh i hi') hi'

theorem GvtMove.logStep {x y : Situation Q σ} (h : GvtMove sound final cfg x y) :
    y.owed = [] ∧ y.state.lpIds = x.state.lpIds ∧ y.state.hist.sends = x.state.hist.sends ∧
      ∀ i, (y.state.ctx i).sentLog <:+ (x.state.ctx i).sentLog := by
  refine ⟨?_, ?_, ?_, fun i => ?_⟩
  · cases h <;> rfl
  · cases h <;> rfl
  · cases h <;> rfl
  · rcases h.ctx_cases i with hctx | ⟨gvt, hctx⟩
    · rw [hctx]
    · rw [hctx]
      exact List.dropWhile_suffix _

theorem GvtMove.sentLogInv {x y : Situation Q σ} (h : GvtMove sound final cfg x y)
    (hx : SentLogInv cfg x) : SentLogInv cfg y := by
  obtain ⟨howed, hids, hsends, hlog⟩ := h.logStep
  refine ⟨fun i hi => ?_, fun i => ?_, fun i sent hsent => hx.loggable i sent ((hlog i).subset hsent), ?_⟩
  · rw [hids] at hi
    have hnil := hlog i
    rw [hx.fresh i hi] at hnil
    exact List.suffix_nil.mp hnil
  · rw [hsends]
    exact (hlog i).trans (hx.logged i)
  · exact ⟨0, [], howed, List.nil_suffix⟩

theorem sentLogInv_create : SentLogInv cfg (Simulation.create Q model).atRest :=
  ⟨fun _ _ => rfl, fun _ => List.nil_suffix, fun _ => nofun, owes_nil⟩

theorem AllMoves.sentLogInv {x y : Situation Q σ} (h : AllMoves sound final model cfg x y) (hb : BooksInv x)
    (hx : SentLogInv cfg x) : SentLogInv cfg y := by
  induction h with
  | refl => exact hx
  | tail hmoves hm ih =>
      exact hm.elim (fun hm => hm.sentLogInv (AllMoves.booksInv hmoves hb) ih) fun hm => hm.sentLogInv ih

theorem PhaseRun.sentLogInv {allowed : Phase → Simulation Q σ → Prop} {s : Simulation Q σ}
    (h : PhaseRun model cfg allowed (Simulation.create Q model) s) : SentLogInv cfg s.atRest :=
  AllMoves.sentLogInv (h.moves baseInv_create) booksInv_create sentLogInv_create

theorem PhaseRun.loggable {allowed : Phase → Simulation Q σ → Prop} {s : Simulation Q σ}
    (h : PhaseRun model cfg allowed (Simulation.create Q model) s) : Loggable cfg s :=
  h.sentLogInv.loggable

end WarpSim

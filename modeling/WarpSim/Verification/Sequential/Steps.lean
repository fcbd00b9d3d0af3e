import WarpSim.Verification.Sequential.Ledger

/-! # The steps of a disciplined run

In a run without exceptions and without buffering, a dispatch rolls an LP back, records an anti-message or
runs a handler to its end, and each of them keeps the ledgers of the LPs. -/

namespace WarpSim

variable {Q : EventQueue} {σ : Type} {model : Model σ} {cfg : SimulationConfig}

open Prog Simulation

/-! ## Discipline -/

/-- LPs send positive events, handlers in the name of their LP and to a later time, and nobody else sends
anything but anti-messages for rollbacks. -/
def SendRecord.Disciplined (r : SendRecord) : Prop :=
  match r.cause with
  | .start _ => r.Positive
  | .handler id execTs => r.Positive ∧ r.ev.src = id ∧ execTs < r.ev.ts
  | .rollback _ => True
  | _ => False

instance : DecidablePred SendRecord.Disciplined
  | ⟨.host, _, _, _, _, _⟩ => .isFalse id
  | ⟨.start _, _, ev, _, _, _⟩ => inferInstanceAs (Decidable (ev.isAnti = false))
  | ⟨.handler id execTs, _, ev, _, _, _⟩ =>
    inferInstanceAs (Decidable (ev.isAnti = false ∧ ev.src = id ∧ execTs < ev.ts))
  | ⟨.notification, _, _, _, _, _⟩ => .isFalse id
  | ⟨.rollback _, _, _, _, _, _⟩ => .isTrue trivial

/-- The LPs keep to the rules for sends and leave the uids to the kernel, what comes from outside is positive
and not taken for an event of theirs, no exception has lost an event, and no migration has been applied. -/
structure Disciplined (hist : History) : Prop where
  sends : ∀ r ∈ hist.sends, r.Disciplined
  uids : UidsOpen hist.sends
  wrapped : hist.wrapped = false
  delivered : ∀ d ∈ hist.delivered, d.ev.isAnti = false ∧ ⟨0, 0⟩ < d.ev.ts
  apart : ∀ d ∈ hist.delivered, ∀ r ∈ hist.sends, d.ev.uidKey ≠ r.ev.uidKey
  lost : hist.lost = []
  migrations : ∀ step ∈ hist.migrations, ∀ i, ¬ step.Into i

theorem Disciplined.mono {h h' : History} (hle : h.Extends h') (hd : Disciplined h') : Disciplined h where
  sends r hr := hd.sends r (hle.sends.subset hr)
  uids r hr := hd.uids r (hle.sends.subset hr)
  wrapped := hle.wrapped hd.wrapped
  delivered d hd' := hd.delivered d (hle.delivered.subset hd')
  apart d hd' r hr := hd.apart d (hle.delivered.subset hd') r (hle.sends.subset hr)
  lost := List.prefix_nil.mp (hd.lost ▸ hle.lost)
  migrations step hstep := hd.migrations step (hle.migrations.subset hstep)

/-! ## Dispatching without exceptions -/

/-- What the dispatch of the event does if it throws no exception and defers nothing. -/
inductive SmoothStep (model : Model σ) (cfg : SimulationConfig) (ev : Event) (s t : Simulation Q σ) : Prop where
  | nothing : SameLps s t → SmoothStep model cfg ev s t
  | straggler (u v more) : SameLps s u → RolledBack model cfg ev.dst ev.ts u v more → SameLps v t →
      SmoothStep model cfg ev s t
  | annulled (u v more) : ev.isAnti = true → SameLps s u → Annuls model cfg ev u v more →
      SameLps (pushProcessed ev.dst (antiRecord ev u) (v.modifyCtx ev.dst fun c => { c with vt := ev.ts })) t →
      SmoothStep model cfg ev s t
  | executed (u w rec) : ev.isAnti = false → ev.dst ∈ s.lpIds → SameLps s u →
      exec (runHandler model cfg ev.dst ((model ev.dst).onEvent (u.ctx ev.dst).lp ev)
        (newRecord ev (u.ctx ev.dst))) (entered ev u) = (.ok rec, w) →
      SameLps (pushProcessed ev.dst rec (left ev.dst w)) t → SmoothStep model cfg ev s t

theorem SmoothStep.of_before {ev : Event} {s s' t : Simulation Q σ} (h : SmoothStep model cfg ev s' t)
    (hs : SameLps s s') : SmoothStep model cfg ev s t := by
  cases h with
  | nothing h => exact .nothing (hs.trans h)
  | straggler u v more hu hback hv => exact .straggler u v more (hs.trans hu) hback hv
  | annulled u v more hanti hu hcancel hv => exact .annulled u v more hanti (hs.trans hu) hcancel hv
  | executed u w rec hanti hdst hu hrun hw => exact .executed u w rec hanti (hs.lpIds ▸ hdst) (hs.trans hu) hrun hw

/-- The handler of an event that is executed without an exception has run to its end. -/
theorem executeEvent_smooth {ev : Event} {s u : Simulation Q σ} (hoff : cfg.enableInstallBeforeUseBuffering = false)
    (hs : SameLps s u) (hanti : ev.isAnti = false) (hdst : ev.dst ∈ s.lpIds)
    (hok : (exec (executeEvent model cfg ev (u.ctx ev.dst)) u).1 = .ok ()) :
    SmoothStep model cfg ev s (exec (executeEvent model cfg ev (u.ctx ev.dst)) u).2 := by
  unfold executeEvent at hok ⊢
  rw [exec_modify_bind, exec_observe_bind, exec_modify_bind] at hok ⊢
  have hentered : (u.modifyCtx ev.dst fun c => { c with vt := ev.ts, inEvent := true, currentExecTs := ev.ts }) =
    entered ev u := rfl
  rw [hentered] at hok ⊢
  rcases hrun : exec (runHandler model cfg ev.dst ((model ev.dst).onEvent (u.ctx ev.dst).lp ev)
    (newRecord ev (u.ctx ev.dst))) (entered ev u) with ⟨what | rec, w⟩
  · rw [hrun] at hok
    dsimp only at hok
    rw [exec_ite, if_neg (by simp [hoff])] at hok
    cases hok
  · dsimp only
    rw [exec_modify_bind, exec_ite, if_neg (by simp [hoff]), exec_modify_bind]
    refine .executed u w rec hanti hdst hs hrun (SameLps.trans ?_ (quiet_validate cfg _).sameLps)
    exact ⟨rfl, rfl, rfl⟩

theorem dispatch_smooth {ev : Event} {u : Simulation Q σ} (hoff : cfg.enableInstallBeforeUseBuffering = false)
    (hlog : Loggable cfg u) (hok : (exec (dispatch model cfg ev) u).1 = .ok ()) :
    SmoothStep model cfg ev u (exec (dispatch model cfg ev) u).2 := by
  unfold dispatch at hok ⊢
  rw [exec_modify_bind, exec_modify_bind, exec_ite] at hok ⊢
  have hrecorded : SameLps u (recordDispatch ev u) := ⟨rfl, rfl, rfl⟩
  have hs : SameLps u (validateInvariants cfg (recordDispatch ev u)) :=
    hrecorded.trans (quiet_validate cfg _).sameLps
  generalize validateInvariants cfg (recordDispatch ev u) = v at hs hok ⊢
  have hlog' : Loggable cfg v := fun i => hs.ctx ▸ hlog i
  split
  · next hanti =>
    rw [if_pos hanti] at hok
    have hstep : DispatchStep model cfg ev u _ := dispatchAnti_step hs hlog' hanti
    cases hstep with
    | nothing hsame => exact .nothing hsame
    | straggler w t more _ _ hw hback ht => exact .straggler w t more hw hback ht
    | annulled w t more hanti _ _ hw hcancel ht => exact .annulled w t more hanti hw hcancel ht
    | executed _ _ _ hpos => exact absurd (hanti.symm.trans hpos) (by simp)
    | thrown _ _ _ _ _ hpos => exact absurd (hanti.symm.trans hpos) (by simp)
  · next hanti =>
    rw [if_neg hanti] at hok
    have hpos : ev.isAnti = false := by simpa using hanti
    unfold dispatchPositive at hok ⊢
    rw [exec_lookupCtx_bind] at hok ⊢
    split
    · next hdst =>
      rw [if_pos hdst, exec_ite] at hok
      rw [exec_ite]
      split
      · next hvt =>
        rw [exec_modify_bind]
        obtain ⟨w, more, hexec, hback⟩ := exec_rollback_ok model cfg ev.ts
          (show ev.dst ∈ (countStraggler v).lpIds from hdst) (hlog' ev.dst)
        rw [exec_bind_of_ok hexec, exec_modify_bind]
        have hback' := hback.congr (s := v) ⟨rfl, rfl, rfl⟩ rfl
        have hw : SameLps w (w.enqueue ev) := ⟨rfl, rfl, rfl⟩
        exact .straggler v w more hs hback' (hw.trans (quiet_validate cfg _).sameLps)
      · next hvt =>
        rw [if_neg hvt] at hok
        exact executeEvent_smooth hoff hs hpos (hs.lpIds ▸ hdst) hok
    · next hdst =>
      rw [if_neg hdst] at hok
      cases hok

theorem dispatch_phase_smooth {s : Simulation Q σ} (hoff : cfg.enableInstallBeforeUseBuffering = false)
    (hlog : Loggable cfg s) (hlost : (Phase.dispatch.after model cfg s).hist.lost = []) :
    SameLps s (Phase.dispatch.after model cfg s) ∨ ∃ ev, Q.top? (popScan s).pending = some ev ∧
      SmoothStep model cfg ev s (Phase.dispatch.after model cfg s) := by
  unfold Phase.after Phase.perform at hlost ⊢
  rw [exec_bind_pure_state] at hlost ⊢
  unfold dispatchNext at hlost ⊢
  rw [exec_bind, exec_popNext] at hlost ⊢
  cases htop : Q.top? (popScan s).pending with
  | none => exact Or.inl ⟨rfl, rfl, rfl⟩
  | some ev =>
      refine Or.inr ⟨ev, rfl, ?_⟩
      rw [htop] at hlost
      dsimp only at hlost ⊢
      rw [exec_observe_bind] at hlost ⊢
      have hpopped : SameLps s { popScan s with pending := Q.pop (popScan s).pending } := ⟨rfl, rfl, rfl⟩
      generalize ({ popScan s with pending := Q.pop (popScan s).pending } : Simulation Q σ) = u at hpopped hlost ⊢
      have hlog' : Loggable cfg u := fun i => hpopped.ctx ▸ hlog i
      have hstep : (exec (dispatch model cfg ev) u).1 = .ok () →
          SmoothStep model cfg ev u (exec (dispatch model cfg ev) u).2 := dispatch_smooth hoff hlog'
      generalize exec (dispatch model cfg ev) u = res at hstep hlost ⊢
      obtain ⟨what | _, t⟩ := res
      · exact absurd hlost (by simp [exec_modify_bind])
      · exact (hstep rfl).of_before hpopped

/-! ## Ledgers -/

section

variable {i : LPId} {ι β : Type} [DecidableEq ι] {mode : SnapshotMode (model i) ι β} {start : σ} {turns : List Turn}
  {Admits : Event → Prop} {s t : Simulation Q σ}

theorem Rollable.congr {target : TimeStamp} (h : Rollable i target s) (hs : SameLps s t) : Rollable i target t := by
  obtain ⟨hpos, hfossils, hsorted, hlog⟩ := h
  refine ⟨hpos, ?_, ?_, ?_⟩ <;> rw [hs.ctx]
  · exact hfossils
  · exact hsorted
  · rw [hs.sends]
    exact hlog

theorem SnapshotMode.Ledger.same (h : mode.Ledger start turns s) (hs : SameLps s t) : mode.Ledger start turns t :=
  h.keep (by rw [hs.ctx]) (by rw [hs.ctx]) hs.sends

/-- A rollback of any LP. -/
theorem SnapshotMode.Ledger.rollback {id : LPId} {target : TimeStamp} {more : List SendRecord}
    (h : mode.Ledger start turns s) (hback : RolledBack model cfg id target s t more)
    (hs : id = i → Rollable i target s) : ∃ turns', mode.Ledger start turns' t := by
  by_cases hi : i = id
  · subst hi
    obtain ⟨before, -, hledger⟩ := h.rolledBack hback (hs rfl)
    exact ⟨before, hledger⟩
  · exact ⟨turns, h.others hback hi⟩

/-- The LP has handled an event to its end. -/
theorem SnapshotMode.Ledger.executed {ev : Event} {w : Simulation Q σ} {rec : ProcessedRecord}
    (h : mode.Ledger start turns s) (hkeeps : mode.Kept Admits) (hadmits : ev.dst = i → Admits ev)
    (hpos : ev.isAnti = false) (hdst : ev.dst ∈ s.lpIds)
    (hrun : exec (runHandler model cfg ev.dst ((model ev.dst).onEvent (s.ctx ev.dst).lp ev)
      (newRecord ev (s.ctx ev.dst))) (entered ev s) = (.ok rec, w))
    (hdisc : ∀ r ∈ w.hist.sends, r.Disciplined) :
    ∃ turns', mode.Ledger start turns' (pushProcessed ev.dst rec (left ev.dst w)) := by
  have hsame := runHandler_same model cfg ev.dst ((model ev.dst).onEvent (s.ctx ev.dst).lp ev)
    (newRecord ev (s.ctx ev.dst)) (entered ev s)
  obtain ⟨more, hsends, hcause, hcalls⟩ := runHandler_conducted model cfg ev.dst
    ((model ev.dst).onEvent (s.ctx ev.dst).lp ev) (newRecord ev (s.ctx ev.dst)) (s := entered ev s) hdst
  rw [hrun] at hsame hsends hcalls
  have hsent : ∀ r ∈ more, r.ev.src = ev.dst ∧ r.Positive := by
    intro r hr
    have hr' := hdisc r (hsends ▸ List.mem_append_right _ hr)
    unfold SendRecord.Disciplined at hr'
    rw [hcause r hr] at hr'
    exact ⟨hr'.2.1, hr'.1⟩
  obtain ⟨calls, hcalled, haccepted⟩ := hcalls (fun r hr => (hsent r hr).1) rec rfl
  have hev : rec.ev = ev := hcalled.filled.ev
  have hstarts : starts i more = [] := starts_eq_nil fun r hr => by rw [hcause r hr]; rfl
  have hout : outstanding i w.hist.sends = outstanding i s.hist.sends ++ more.filter (·.Mine i) := by
    rw [hsends]
    exact outstanding_sent fun r hr => by rw [hcause r hr]; simp
  have hnew : starts i w.hist.sends = starts i s.hist.sends := by
    rw [hsends, starts_append, hstarts, List.append_nil]
    rfl
  by_cases hi : i = ev.dst
  · subst hi
    have hvalid : mode.parts.Valid (s.ctx ev.dst).lp := h.trail.preserves (fun _ _ _ hr => hr.2.valid) h.valid
    have hexit := runHandler_undoes cfg ev.dst mode (s.ctx ev.dst).lp _ (hkeeps.asks _ ev hvalid (hadmits rfl))
      (mode.filling_newRecord ev (s.ctx ev.dst) _) (entered ev s)
    rw [hrun] at hexit
    have hself := hsame.self
    rw [entered_self] at hself
    have hkept : (w.ctx ev.dst).kept = (s.ctx ev.dst).kept := hself.books.kept
    refine ⟨turns ++ [⟨rec, more⟩], h.valid, ?_, ?_, ?_⟩
    · rw [pushProcessed, modifyCtx_self, left_self]
      refine h.trail.snoc ⟨.handled (s.ctx ev.dst) calls (hev ▸ hpos) ?_ haccepted ?_, hexit.1⟩
      · rw [hev]
        exact hcalled
      · rw [hev]
        exact hcause
    · rw [pushProcessed, modifyCtx_self, left_self, List.map_append, h.records, ← hkept]
      simp [LPContext.kept]
    · have hmine : more.filter (·.Mine ev.dst) = more :=
        List.filter_eq_self.mpr fun r hr => decide_eq_true (hsent r hr)
      change outstanding ev.dst w.hist.sends = starts ev.dst w.hist.sends ++ _
      rw [hout, hmine, hnew, h.sends]
      simp
  · have hother := hsame.others i hi
    rw [entered_of_ne s hi] at hother
    have hnone : more.filter (·.Mine i) = [] := by
      refine List.filter_eq_nil_iff.mpr fun r hr hmine => hi ?_
      have hmine : r.Mine i := by simpa using hmine
      exact hmine.1.symm.trans (hsent r hr).1
    refine ⟨turns, h.valid, ?_, ?_, ?_⟩
    · rw [pushProcessed, modifyCtx_of_ne _ _ hi, left_of_ne w hi, hother.lp]
      exact h.trail
    · rw [pushProcessed, modifyCtx_of_ne _ _ hi, left_of_ne w hi]
      exact h.records.trans hother.books.kept.symm
    · change outstanding i w.hist.sends = starts i w.hist.sends ++ _
      rw [hout, hnone, hnew, List.append_nil]
      exact h.sends

/-- An anti-message has been recorded. -/
theorem SnapshotMode.Ledger.annulled {ev : Event} (h : mode.Ledger start turns t) (hanti : ev.isAnti = true)
    (u : Simulation Q σ) : ∃ turns', mode.Ledger start turns'
      (pushProcessed ev.dst (antiRecord ev u) (t.modifyCtx ev.dst fun c => { c with vt := ev.ts })) := by
  by_cases hi : i = ev.dst
  · subst hi
    have hundoes := (mode.leads_antiRecord hanti u (t.ctx ev.dst).lp).2
    refine ⟨turns ++ [⟨antiRecord ev u, []⟩], h.valid, ?_, ?_, ?_⟩
    · rw [pushProcessed, modifyCtx_self, modifyCtx_self]
      refine h.trail.snoc ⟨.anti ?_ rfl rfl, hundoes⟩
      exact (congrArg Event.isAnti (antiRecord_fits ev u).1).trans hanti
    · rw [pushProcessed, modifyCtx_self, modifyCtx_self, List.map_append, h.records]
      simp [LPContext.kept]
    · change outstanding ev.dst t.hist.sends = starts ev.dst t.hist.sends ++ _
      rw [h.sends]
      simp
  · refine ⟨turns, h.keep ?_ ?_ rfl⟩ <;> rw [pushProcessed, modifyCtx_of_ne _ _ hi, modifyCtx_of_ne _ _ hi]

theorem SmoothStep.ledger {ev : Event} (hstep : SmoothStep model cfg ev s t) (hkeeps : mode.Kept Admits)
    (hadmits : ev.dst = i → Admits ev) (hdisc : ∀ r ∈ t.hist.sends, r.Disciplined)
    (hroll : ∀ target, (target = ev.ts ∨ ∃ r ∈ (s.ctx i).processed, target = r.ev.ts) → Rollable i target s)
    (h : mode.Ledger start turns s) : ∃ turns', mode.Ledger start turns' t := by
  cases hstep with
  | nothing hsame => exact ⟨turns, h.same hsame⟩
  | straggler u v more hu hback hv =>
      obtain ⟨turns', h'⟩ := (h.same hu).rollback hback fun _ => (hroll _ (Or.inl rfl)).congr hu
      exact ⟨turns', h'.same hv⟩
  | annulled u v more hanti hu hcancel hv =>
      obtain ⟨turns₁, h₁⟩ : ∃ turns', mode.Ledger start turns' v := by
        cases hcancel with
        | pending _ hsame => exact ⟨turns, (h.same hu).same hsame⟩
        | processed r hfind hback =>
            refine (h.same hu).rollback hback fun hi => (hroll _ (Or.inr ⟨r, ?_, rfl⟩)).congr hu
            rw [← hi, ← hu.ctx]
            exact lastMatch_mem hfind
      obtain ⟨turns₂, h₂⟩ := h₁.annulled hanti u
      exact ⟨turns₂, h₂.same hv⟩
  | executed u w rec hanti hdst hu hrun hw =>
      have hsends : t.hist.sends = w.hist.sends := hw.sends
      obtain ⟨turns', h'⟩ := (h.same hu).executed hkeeps hadmits hanti (hu.lpIds ▸ hdst) hrun (hsends ▸ hdisc)
      exact ⟨turns', h'.same hw⟩

end

end WarpSim

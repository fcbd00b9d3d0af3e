import WarpSim.Verification.Books

/-! # What a move does to one LP

For a given LP the moves come down to a handful of cases, which most invariants about LPs are
proved from. -/

namespace WarpSim

variable {Q : EventQueue} {σ : Type} {sound final : Prop} {model : Model σ} {cfg : SimulationConfig}

open Simulation

/-! ## Updates of one context -/

section

variable (s : Simulation Q σ) {id i : LPId}

theorem setLp_self (id : LPId) (state : σ) : (setLp id state s).ctx id = { s.ctx id with lp := state } :=
  modifyCtx_self s id fun c => { c with lp := state }

theorem setLp_of_ne (state : σ) (h : i ≠ id) : (setLp id state s).ctx i = s.ctx i :=
  modifyCtx_of_ne s (fun c => { c with lp := state }) h

theorem entered_self (ev : Event) : (entered ev s).ctx ev.dst = (s.ctx ev.dst).enter ev :=
  modifyCtx_self s ev.dst fun c => c.enter ev

theorem entered_of_ne {ev : Event} (h : i ≠ ev.dst) : (entered ev s).ctx i = s.ctx i :=
  modifyCtx_of_ne s (fun c => c.enter ev) h

theorem left_self (id : LPId) : (left id s).ctx id = { s.ctx id with inEvent := false } :=
  modifyCtx_self s id fun c => { c with inEvent := false }

theorem left_of_ne (h : i ≠ id) : (left id s).ctx i = s.ctx i :=
  modifyCtx_of_ne s (fun c => { c with inEvent := false }) h

end

/-! ## The cases -/

/-- What a move can do to the LP `i`. -/
inductive LpStep (model : Model σ) (i : LPId) (x y : Situation Q σ) : Prop where
  | same : SameWork (x.state.ctx i) (y.state.ctx i) → LpStep model i x y
  | registered : i ∉ x.state.lpIds → y.state.ctx i = { lp := (model i).init } → LpStep model i x y
  | prepared (state) : (x.state.ctx i).executed = [] →
      ((model i).onStart (x.state.ctx i).lp).Ends state →
      y.state.ctx i = { x.state.ctx i with lp := state } → LpStep model i x y
  | migrated (mig) : mig.newOwner = i →
      y.state.hist.migrations = x.state.hist.migrations ++
        [.applied mig (x.state.ctx i).executed.length (x.state.ctx i).undone.length] →
      y.state.ctx i = { x.state.ctx i with
        lp := (model i).onMigration (x.state.ctx i).lp mig.entity mig.state } → LpStep model i x y
  | entered (ev) : ev.dst = i → x.activity = .holding ev →
      y.state.ctx i = (x.state.ctx i).enter ev → LpStep model i x y
  | stored (before ev calls state) : ev.dst = i → x.activity = .executing before ev calls →
      ((model i).onEvent before.lp ev).Ends state →
      y.state.ctx i = { x.state.ctx i with lp := state } → LpStep model i x y
  | finished (before ev calls rec) : ev.dst = i → x.activity = .executing before ev calls →
      Handler.Run (model i) ((model i).onEvent before.lp ev) (newRecord ev before) calls
        (x.state.ctx i).lp rec →
      y.state.ctx i = { x.state.ctx i with
        inEvent := false
        processed := (x.state.ctx i).processed ++ [rec]
        executed := (x.state.ctx i).executed ++ [rec] } → LpStep model i x y
  | deferred (before ev calls) : ev.dst = i → x.activity = .executing before ev calls →
      y.state.ctx i = { x.state.ctx i with
        inEvent := false, vt := before.vt, currentExecTs := before.vt } → LpStep model i x y
  | aborted (before ev calls) : ev.dst = i → x.activity = .executing before ev calls →
      y.state.ctx i = { x.state.ctx i with inEvent := false } → LpStep model i x y
  | settled (rec) : rec.ev.dst = i → x.activity = .annulled rec →
      y.state.ctx i = { x.state.ctx i with
        vt := rec.ev.ts
        processed := (x.state.ctx i).processed ++ [rec]
        executed := (x.state.ctx i).executed ++ [rec] } → LpStep model i x y
  | rewound (target) : y.state.ctx i = (x.state.ctx i).rewind (model i) target → LpStep model i x y

theorem LpStep.of_eq {i : LPId} {x y : Situation Q σ} (h : y.state.ctx i = x.state.ctx i) :
    LpStep model i x y :=
  .same (h ▸ SameWork.refl _)

/-- A rollback rewinds the context of one LP. -/
theorem LpStep.of_unwound {x y : Situation Q σ} {id : LPId} {target : TimeStamp} (i : LPId)
    (hy : y.state = unwound model id target x.state) : LpStep model i x y := by
  by_cases hi : i = id
  · subst hi
    refine .rewound target ?_
    rw [hy, unwound_ctx, Function.update_self]
  · refine .of_eq ?_
    rw [hy, unwound_ctx, Function.update_of_ne hi]

theorem Move.lpStep {x y : Situation Q σ} (h : Move model cfg x y) (i : LPId) : LpStep model i x y := by
  cases h with
  | quiet hq => exact .of_eq (congrFun hq.ctx i)
  | @register s id hid =>
      by_cases hi : i = id
      · subst hi
        exact .registered hid (Function.update_self ..)
      · exact .of_eq (Function.update_of_ne hi ..)
  | @prepare s id state hnone hends =>
      by_cases hi : i = id
      · subst hi
        exact .prepared state hnone hends (setLp_self ..)
      · exact .of_eq (setLp_of_ne s state hi)
  | receive => rw [receiveEvent_eq]; exact .of_eq rfl
  | acknowledge => rw [receiveAck_eq]; exact .of_eq rfl
  | @migrate s mig rest =>
      by_cases hi : i = mig.newOwner
      · subst hi
        exact .migrated mig rfl rfl (setLp_self ..)
      · exact .of_eq (setLp_of_ne { s with pendingMigrations := rest } _ hi)
  | sent => exact .same (sameWork_sent ..)
  | @unlogged a s cause asked ev u n k w =>
      refine .same ?_
      rw [posted_ctx]
      exact sameWork_renumber ..
  | refused => exact .same (sameWork_renumber ..)
  | straggle => exact .of_unwound i rfl
  | @enter s ev =>
      by_cases hi : i = ev.dst
      · subst hi
        exact .entered ev rfl rfl (entered_self ..)
      · exact .of_eq (entered_of_ne s hi)
  | @store before ev calls s state hends =>
      by_cases hi : i = ev.dst
      · subst hi
        exact .stored before ev calls state rfl rfl hends (setLp_self ..)
      · exact .of_eq (setLp_of_ne s state hi)
  | @finish before ev calls s rec hrun =>
      by_cases hi : i = ev.dst
      · subst hi
        refine .finished before ev calls rec rfl rfl hrun ?_
        dsimp only
        rw [pushProcessed, modifyCtx_self, left_self]
      · refine .of_eq ?_
        dsimp only
        rw [pushProcessed, modifyCtx_of_ne _ _ hi, left_of_ne s hi]
  | release => rw [released_eq]; exact .of_eq rfl
  | @defer before ev calls s =>
      by_cases hi : i = ev.dst
      · subst hi
        refine .deferred before ev calls rfl rfl ?_
        dsimp only
        rw [deferTargetedEvent, modifyCtx_self, left_self]
      · refine .of_eq ?_
        dsimp only
        rw [deferTargetedEvent, modifyCtx_of_ne _ _ hi, left_of_ne s hi]
  | @abort before ev calls s =>
      by_cases hi : i = ev.dst
      · subst hi
        exact .aborted before ev calls rfl rfl (left_self ..)
      · exact .of_eq (left_of_ne s hi)
  | matched => exact .of_unwound i rfl
  | @settle s rec =>
      by_cases hi : i = rec.ev.dst
      · subst hi
        refine .settled rec rfl rfl ?_
        dsimp only
        rw [pushProcessed, modifyCtx_self, modifyCtx_self]
      · refine .of_eq ?_
        dsimp only
        rw [pushProcessed, modifyCtx_of_ne _ _ hi, modifyCtx_of_ne _ _ hi]
  | annul => exact .same (sameWork_annul ..)
  | @stuck a id log owed s ev u n k w => exact .same (sameWork_renumber id u n k w s i)
  | _ => exact .of_eq rfl

theorem prune_ctx (gvt : TimeStamp) (s : Simulation Q σ) (i : LPId) :
    (pruneToGvt cfg gvt s).ctx i = if i ∈ s.lpIds then (s.ctx i).prune gvt else s.ctx i := rfl

/-- The GVT algorithms commit records of an LP, or leave it as it is. -/
theorem GvtMove.ctx_cases {x y : Situation Q σ} (h : GvtMove sound final cfg x y) (i : LPId) :
    y.state.ctx i = x.state.ctx i ∨ ∃ gvt, y.state.ctx i = (x.state.ctx i).prune gvt := by
  cases h with
  | @advance s gvt =>
      dsimp only
      rw [prune_ctx]
      split
      · exact Or.inr ⟨gvt, rfl⟩
      · exact Or.inl rfl
  | @prune s =>
      dsimp only
      rw [prune_ctx]
      split
      · exact Or.inr ⟨s.lastGvt, rfl⟩
      · exact Or.inl rfl
  | @flush s =>
      dsimp only
      rw [prune_ctx]
      split
      · exact Or.inr ⟨maxStamp, rfl⟩
      · exact Or.inl rfl
  | flip => exact Or.inl rfl
  | reset => exact Or.inl rfl

/-- LPs are never taken away. -/
theorem Move.lpIds_subset {x y : Situation Q σ} (h : Move model cfg x y) :
    x.state.lpIds ⊆ y.state.lpIds := by
  cases h with
  | quiet hq => rw [hq.lpIds]; exact List.Subset.refl _
  | register => exact List.subset_append_left _ _
  | receive => rw [receiveEvent_eq]; exact List.Subset.refl _
  | acknowledge => rw [receiveAck_eq]; exact List.Subset.refl _
  | sent => rw [posted_eq]; exact List.Subset.refl _
  | unlogged => rw [posted_eq]; exact List.Subset.refl _
  | straggle => rw [unwound_eq]; exact List.Subset.refl _
  | matched => rw [unwound_eq]; exact List.Subset.refl _
  | release => rw [released_eq]; exact List.Subset.refl _
  | annul => rw [posted_eq]; exact List.Subset.refl _
  | _ => exact List.Subset.refl _

theorem GvtMove.lpIds_eq {x y : Situation Q σ} (hm : GvtMove sound final cfg x y) :
    y.state.lpIds = x.state.lpIds := by
  cases hm <;> rfl

theorem AllMoves.lpIds_subset {x y : Situation Q σ} (h : AllMoves sound final model cfg x y) :
    x.state.lpIds ⊆ y.state.lpIds := by
  induction h with
  | refl => exact List.Subset.refl _
  | tail _ hm ih =>
      refine List.Subset.trans ih (hm.elim (fun hm => hm.lpIds_subset) fun hm => ?_)
      rw [hm.lpIds_eq]
      exact List.Subset.refl _

/-! ## The activity -/

theorem noteCall_executing {a : Activity σ} {asked ev : Event} {r : Except String Event}
    {before : LPContext σ} {calls : List (Event × Except String Event)}
    (h : a.noteCall asked r = .executing before ev calls) :
    ∃ calls', a = .executing before ev calls' := by
  cases a <;> cases h
  exact ⟨_, rfl⟩

/-- A handler that is at work was so before the move, or starts to work with it. -/
theorem Move.executing_cases {x y : Situation Q σ} (h : Move model cfg x y) {before : LPContext σ}
    {ev : Event} {calls : List (Event × Except String Event)}
    (hy : y.activity = .executing before ev calls) :
    (∃ calls', x.activity = .executing before ev calls') ∨ before = x.state.ctx ev.dst := by
  cases h with
  | quiet => exact Or.inl ⟨_, hy⟩
  | sent => exact Or.inl (noteCall_executing hy)
  | unlogged => exact Or.inl (noteCall_executing hy)
  | refused => exact Or.inl (noteCall_executing hy)
  | enter => cases hy; exact Or.inr rfl
  | store => exact Or.inl ⟨_, hy⟩
  | annul => exact Or.inl ⟨_, hy⟩
  | _ => cases hy

/-- An anti-message that is being dealt with was so before the move, or is taken up with it. -/
theorem Move.undoing_cases {x y : Situation Q σ} (h : Move model cfg x y) {rec : ProcessedRecord}
    (hy : y.activity.stage = .undoing rec) :
    x.activity.stage = .undoing rec ∨ ∃ ev, rec = antiRecord ev x.state := by
  cases h with
  | quiet => exact Or.inl hy
  | sent => exact Or.inl ((stage_noteCall ..).symm.trans hy)
  | unlogged => exact Or.inl ((stage_noteCall ..).symm.trans hy)
  | refused => exact Or.inl ((stage_noteCall ..).symm.trans hy)
  | mark => cases hy; exact Or.inr ⟨_, rfl⟩
  | matched => exact Or.inl hy
  | unmatched => exact Or.inl hy
  | annul => exact Or.inl hy
  | _ => cases hy

theorem GvtMove.activity_eq {x y : Situation Q σ} (h : GvtMove sound final cfg x y) :
    y.activity = .idle := by
  cases h <;> rfl

/-! ## What has been undone -/

/-- What has been undone stays undone. -/
theorem Move.undone_prefix {x y : Situation Q σ} (h : Move model cfg x y) (hb : BooksInv x) (i : LPId) :
    (x.state.ctx i).undone <+: (y.state.ctx i).undone := by
  cases h.lpStep i with
  | same hsame => rw [hsame.undone]
  | registered hi hy =>
      have hnone : (x.state.ctx i).undone = [] := by
        have hperm := (hb.ledger i).balanced
        rw [hb.fresh i hi] at hperm
        exact (List.append_eq_nil_iff.mp hperm.nil_eq.symm).1
      rw [hnone]
      exact List.nil_prefix
  | rewound target hy =>
      rw [hy, LPContext.rewind_eq]
      exact List.prefix_append _ _
  | _ => simp [*, LPContext.enter]

theorem GvtMove.undone_eq {x y : Situation Q σ} (h : GvtMove sound final cfg x y) (i : LPId) :
    (y.state.ctx i).undone = (x.state.ctx i).undone := by
  rcases h.ctx_cases i with hctx | ⟨gvt, hctx⟩
  · rw [hctx]
  · rw [hctx]
    rfl

end WarpSim

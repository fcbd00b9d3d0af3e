import WarpSim.Verification.SentLog

/-! # Counters

What a move does to the counters of one LP: a send moves them on, and a rollback takes those for sequence
numbers back to what a record has saved of them. -/

namespace WarpSim

variable {Q : EventQueue} {σ : Type} {sound final : Prop} {model : Model σ} {cfg : SimulationConfig}

open Simulation

/-- The counters of an LP: for uids, for normal and for control sequence numbers. -/
def LPContext.numbers (c : LPContext σ) : UInt64 × UInt64 × UInt64 :=
  (c.nextUid, c.nextSeqNormal, c.nextSeqControl)

/-- What a move does to the counters of the LP `i`. -/
inductive CounterStep (model : Model σ) (cfg : SimulationConfig) (i : LPId) (x y : Situation Q σ) : Prop where
  | same : y.state.hist.sends = x.state.hist.sends → (y.state.ctx i).numbers = (x.state.ctx i).numbers →
      CounterStep model cfg i x y
  | registered : y.state.hist.sends = x.state.hist.sends → i ∉ x.state.lpIds →
      (y.state.ctx i).numbers = (1, 1, 1) → CounterStep model cfg i x y
  | rewound (target) : y.state.hist.sends = x.state.hist.sends →
      y.state.ctx i = (x.state.ctx i).rewind (model i) target → CounterStep model cfg i x y
  | sent (r ev u n k w) : Stamped cfg x.state r.asked ev u n k w → r.ev = stampColor cfg x.state ev →
      r.rank = cfg.rankOf r.ev.dst → y.state.hist.sends = x.state.hist.sends ++ [r] →
      y.state.hist.wrapped = (x.state.hist.wrapped || w) →
      (y.state.ctx i).numbers = (if i = r.asked.src then (u, n, k) else (x.state.ctx i).numbers) →
      CounterStep model cfg i x y
  | refused (asked : Event) (u n k w) : y.state.hist.sends = x.state.hist.sends →
      (w = false → (x.state.ctx asked.src).nextUid ≤ u ∧ ((x.state.ctx asked.src).nextSeqNormal ≠ 0 → n ≠ 0)) →
      y.state.hist.wrapped = (x.state.hist.wrapped || w) →
      (y.state.ctx i).numbers = (if i = asked.src then (u, n, k) else (x.state.ctx i).numbers) →
      CounterStep model cfg i x y

theorem numbers_update {ctx : LPId → LPContext σ} {id i : LPId} {c : LPContext σ}
    (h : c.numbers = (ctx id).numbers) : (Function.update ctx id c i).numbers = (ctx i).numbers := by
  by_cases hi : i = id
  · rw [hi, Function.update_self, h]
  · rw [Function.update_of_ne hi]

theorem numbers_renumber (id : LPId) (u n k : UInt64) (w : Bool) (s : Simulation Q σ) (i : LPId) :
    ((renumber id u n k w s).ctx i).numbers = if i = id then (u, n, k) else (s.ctx i).numbers := by
  split
  · next hi =>
    subst hi
    rw [renumber_ctx_self]
    rfl
  · next hi => exact congrArg LPContext.numbers (Function.update_of_ne hi ..)

theorem CounterStep.of_ctx {i : LPId} {x y : Situation Q σ} (hsends : y.state.hist.sends = x.state.hist.sends)
    (hctx : y.state.ctx i = x.state.ctx i) : CounterStep model cfg i x y :=
  .same hsends (congrArg LPContext.numbers hctx)

theorem CounterStep.of_unwound {x y : Situation Q σ} {id : LPId} {target : TimeStamp} (i : LPId)
    (hy : y.state = unwound model id target x.state) : CounterStep model cfg i x y := by
  have hsends : y.state.hist.sends = x.state.hist.sends := by rw [hy, unwound_eq]
  by_cases hi : i = id
  · subst hi
    refine .rewound target hsends ?_
    rw [hy, unwound_ctx, Function.update_self]
  · refine .of_ctx hsends ?_
    rw [hy, unwound_ctx, Function.update_of_ne hi]

/-- The counters of an LP after an event has been sent. -/
theorem numbers_posted (cause : SendCause) (asked ev : Event) (id : LPId) (u n k : UInt64) (w : Bool)
    (s : Simulation Q σ) (i : LPId) :
    ((posted cause cfg asked ev (renumber id u n k w s)).ctx i).numbers =
      if i = id then (u, n, k) else (s.ctx i).numbers := by
  rw [posted_ctx, numbers_renumber]

theorem Move.counterStep {x y : Situation Q σ} (h : Move model cfg x y) (i : LPId) :
    CounterStep model cfg i x y := by
  cases h with
  | quiet hq => exact .of_ctx (by rw [hq]) (congrFun hq.ctx i)
  | @register s id hid =>
      by_cases hi : i = id
      · subst hi
        refine .registered rfl hid ?_
        dsimp only
        rw [Function.update_self]
        rfl
      · exact .of_ctx rfl (Function.update_of_ne hi ..)
  | @prepare s id state => exact .same rfl (numbers_update rfl)
  | receive => exact .of_ctx (by rw [receiveEvent_eq]) (by rw [receiveEvent_eq])
  | acknowledge => exact .of_ctx (by rw [receiveAck_eq]) (by rw [receiveAck_eq])
  | @migrate s mig rest =>
      exact .same rfl (numbers_update rfl)
  | @sent a s cause asked ev u n k w hallows hst hsrc =>
      refine .sent (sendRecord cause asked (stampColor cfg s ev) (cfg.rankOf (stampColor cfg s ev).dst)
        (renumber asked.src u n k w s)) ev u n k w hst rfl rfl (posted_sends ..) ?_ ?_
      · change (posted cause cfg asked _ _).hist.wrapped = _
        rw [posted_eq]
        rfl
      · refine Eq.trans (numbers_update ?_) (numbers_posted ..)
        rfl
  | @unlogged a s cause asked ev u n k w what hallows hst hpos hsrc =>
      refine .sent (sendRecord cause asked (stampColor cfg s ev) (cfg.rankOf (stampColor cfg s ev).dst)
        (renumber asked.src u n k w s)) ev u n k w hst rfl rfl (posted_sends ..) ?_ (numbers_posted ..)
      dsimp only
      rw [posted_eq]
      rfl
  | @refused a s asked u n k w what _ hkeep =>
      exact .refused asked u n k w rfl hkeep rfl (numbers_renumber _ u n k w s i)
  | straggle => exact .of_unwound i rfl
  | @enter s ev => exact .same rfl (numbers_update rfl)
  | @store before ev calls s state => exact .same rfl (numbers_update rfl)
  | @finish before ev calls s rec =>
      refine .same rfl (Eq.trans (numbers_update ?_) (numbers_update rfl))
      rfl
  | release => exact .of_ctx (by rw [released_eq]; rfl) (by rw [released_eq])
  | @defer before ev calls s =>
      refine .same rfl (Eq.trans (numbers_update ?_) (numbers_update rfl))
      rfl
  | @abort before ev calls s => exact .same rfl (numbers_update rfl)
  | matched => exact .of_unwound i rfl
  | @settle s rec =>
      refine .same rfl (Eq.trans (numbers_update ?_) (numbers_update rfl))
      rfl
  | @annul a id log owed s ev u n k w hst =>
      refine .sent (sendRecord (.rollback id) (antiOf id log) (stampColor cfg s ev)
        (cfg.rankOf (stampColor cfg s ev).dst) (renumber id u n k w s)) ev u n k w hst rfl rfl
        (posted_sends ..) ?_ ?_
      · change (posted (.rollback id) cfg _ _ _).hist.wrapped = _
        rw [posted_eq]
        rfl
      · refine Eq.trans (numbers_update ?_) (numbers_posted ..)
        rfl
  | @stuck a id log owed s ev u n k w what _ _ hkeep =>
      exact .refused (antiOf id log) u n k w rfl hkeep rfl (numbers_renumber _ u n k w s i)
  | _ => exact .of_ctx rfl rfl

/-! ## Numbers do not run out -/

/-- The number of the next normal event is not 0, nor is one that a rollback could restore. -/
structure Seeded (c : LPContext σ) : Prop where
  normal : c.nextSeqNormal ≠ 0
  restored : ∀ rec ∈ c.processed, rec.preNextSeqNormal ≠ 0

theorem Seeded.rewind {c : LPContext σ} (h : Seeded c) (lp : LogicalProcess σ) (target : TimeStamp) :
    Seeded (c.rewind lp target) := by
  have hsplit := keptRecords_append_undoneRecords target c.processed
  refine ⟨?_, fun rec hrec => ?_⟩
  · unfold LPContext.rewind
    dsimp only
    split
    · exact h.normal
    · next oldest rest hundone =>
      have hmem : oldest ∈ undoneRecords target c.processed := by simp [hundone]
      exact h.restored oldest (hsplit ▸ List.mem_append_right _ hmem)
  · rw [LPContext.rewind_eq] at hrec
    exact h.restored rec (hsplit ▸ List.mem_append_left _ hrec)

/-- The number that the record of the activity will save. -/
def Stage.Seeded : Stage σ → Prop
  | .rest => True
  | .running before _ => before.nextSeqNormal ≠ 0
  | .undoing rec => rec.preNextSeqNormal ≠ 0

structure SeedInv (x : Situation Q σ) : Prop where
  ctx : ∀ i, Seeded (x.state.ctx i)
  stage : x.activity.stage.Seeded

theorem antiRecord_normal (ev : Event) (s : Simulation Q σ) :
    (antiRecord ev s).preNextSeqNormal = (s.ctx ev.dst).nextSeqNormal := by
  unfold antiRecord
  split <;> rfl

theorem numbers_normal {c c' : LPContext σ} (h : c'.numbers = c.numbers) :
    c'.nextSeqNormal = c.nextSeqNormal :=
  congrArg (fun numbers => numbers.2.1) h

theorem CounterStep.normal {i : LPId} {x y : Situation Q σ} (h : CounterStep model cfg i x y)
    (hw : y.state.hist.wrapped = false) (hx : ∀ i, Seeded (x.state.ctx i)) :
    (y.state.ctx i).nextSeqNormal ≠ 0 := by
  cases h with
  | same _ hn => exact numbers_normal hn ▸ (hx i).normal
  | registered _ _ hn =>
      have hone : (y.state.ctx i).nextSeqNormal = 1 := congrArg (fun numbers => numbers.2.1) hn
      rw [hone]
      decide
  | rewound target _ hy => exact hy ▸ ((hx i).rewind (model i) target).normal
  | sent r ev u n k w hst _ _ _ hwraps hn =>
      rw [hwraps, Bool.or_eq_false_iff] at hw
      split at hn
      · have heq : (y.state.ctx i).nextSeqNormal = n := congrArg (fun numbers => numbers.2.1) hn
        rw [heq]
        exact hst.counters_ne_zero hw.2 (hx _).normal
      · exact numbers_normal hn ▸ (hx i).normal
  | refused asked u n k w _ hkeep hwraps hn =>
      rw [hwraps, Bool.or_eq_false_iff] at hw
      split at hn
      · have heq : (y.state.ctx i).nextSeqNormal = n := congrArg (fun numbers => numbers.2.1) hn
        rw [heq]
        exact (hkeep hw.2).2 (hx _).normal
      · exact numbers_normal hn ▸ (hx i).normal

theorem LpStep.restored {i : LPId} {x y : Situation Q σ} (h : LpStep model i x y) (hx : SeedInv x) :
    ∀ rec ∈ (y.state.ctx i).processed, rec.preNextSeqNormal ≠ 0 := by
  have hold := (hx.ctx i).restored
  cases h with
  | same hsame => rwa [hsame.processed]
  | registered _ hy => simp [hy]
  | finished before ev calls rec _ hact hrun hy =>
      have hstage := hx.stage
      rw [hact] at hstage
      rw [hy]
      intro r hr
      rcases List.mem_append.mp hr with hr | hr
      · exact hold r hr
      · rw [List.mem_singleton.mp hr, hrun.filled.normal]
        exact hstage
  | settled rec _ hact hy =>
      have hstage := hx.stage
      rw [hact] at hstage
      rw [hy]
      intro r hr
      rcases List.mem_append.mp hr with hr | hr
      · exact hold r hr
      · rw [List.mem_singleton.mp hr]
        exact hstage
  | rewound target hy => exact hy ▸ ((hx.ctx i).rewind (model i) target).restored
  | entered _ _ _ hy => rw [hy]; exact hold
  | _ => simp_all

theorem Move.stage_seeded {x y : Situation Q σ} (h : Move model cfg x y) (hx : SeedInv x) :
    y.activity.stage.Seeded := by
  cases hstage : y.activity.stage with
  | rest => trivial
  | running before ev =>
      obtain ⟨calls, hact⟩ : ∃ calls, y.activity = .executing before ev calls := by
        cases hy : y.activity <;> simp_all [Activity.stage]
      rcases h.executing_cases hact with ⟨calls', hx'⟩ | rfl
      · have hseed := hx.stage
        rwa [hx'] at hseed
      · exact (hx.ctx _).normal
  | undoing rec =>
      rcases h.undoing_cases hstage with hx' | ⟨ev, rfl⟩
      · have hseed := hx.stage
        rwa [hx'] at hseed
      · change (antiRecord ev x.state).preNextSeqNormal ≠ 0
        rw [antiRecord_normal]
        exact (hx.ctx ev.dst).normal

theorem Move.seedInv {x y : Situation Q σ} (h : Move model cfg x y)
    (hx : x.state.hist.wrapped = false → SeedInv x) (hw : y.state.hist.wrapped = false) : SeedInv y := by
  have hx := hx (h.extends.wrapped hw)
  exact ⟨fun i => ⟨(h.counterStep i).normal hw hx.ctx, (h.lpStep i).restored hx⟩, h.stage_seeded hx⟩

theorem GvtMove.seedInv {x y : Situation Q σ} (h : GvtMove sound final cfg x y)
    (hx : x.state.hist.wrapped = false → SeedInv x) (hw : y.state.hist.wrapped = false) : SeedInv y := by
  have hx := hx (h.extends.wrapped hw)
  refine ⟨fun i => ?_, by rw [h.activity_eq]; trivial⟩
  rcases h.ctx_cases i with hctx | ⟨gvt, hctx⟩
  · rw [hctx]
    exact hx.ctx i
  · rw [hctx]
    exact ⟨(hx.ctx i).normal, fun rec hrec => (hx.ctx i).restored rec (List.dropWhile_subset _ hrec)⟩

theorem AllMoves.seedInv {x y : Situation Q σ} (h : AllMoves sound final model cfg x y)
    (hx : SeedInv x) (hw : y.state.hist.wrapped = false) : SeedInv y := by
  induction h with
  | refl => exact hx
  | tail _ hm ih => exact hm.elim (fun hm => hm.seedInv ih hw) fun hm => hm.seedInv ih hw

theorem seedInv_create : SeedInv (Simulation.create Q model).atRest :=
  ⟨fun _ => ⟨by simp [Simulation.create, Simulation.atRest], by simp [Simulation.create, Simulation.atRest]⟩, trivial⟩

end WarpSim

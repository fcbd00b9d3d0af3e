import WarpSim.Verification.Contexts

/-! # The history of a run

The ghost history of a kernel only ever grows. What a run is required to satisfy is therefore
stated about the history of its last state. -/

namespace WarpSim

variable {Q : EventQueue} {σ : Type} {sound final : Prop} {model : Model σ} {cfg : SimulationConfig}

open Simulation

/-! ## Growth -/

/-- Every list of the history continues the one of an earlier history. -/
structure History.Extends (h h' : History) : Prop where
  sends : h.sends <+: h'.sends
  delivered : h.delivered <+: h'.delivered
  migrations : h.migrations <+: h'.migrations
  dropped : h.dropped <+: h'.dropped
  lost : h.lost <+: h'.lost
  dispatched : h.dispatched <+: h'.dispatched
  rollbacks : h.rollbacks <+: h'.rollbacks
  advances : h.advances <+: h'.advances
  releases : h.releases <+: h'.releases
  wrapped : h'.wrapped = false → h.wrapped = false

theorem History.Extends.refl (h : History) : h.Extends h := by
  constructor <;> simp

theorem History.Extends.trans {h h' h'' : History} (hle : h.Extends h') (hle' : h'.Extends h'') :
    h.Extends h'' :=
  ⟨hle.sends.trans hle'.sends, hle.delivered.trans hle'.delivered,
    hle.migrations.trans hle'.migrations, hle.dropped.trans hle'.dropped, hle.lost.trans hle'.lost,
    hle.dispatched.trans hle'.dispatched, hle.rollbacks.trans hle'.rollbacks,
    hle.advances.trans hle'.advances, hle.releases.trans hle'.releases,
    fun hw => hle.wrapped (hle'.wrapped hw)⟩

theorem Move.extends {x y : Situation Q σ} (h : Move model cfg x y) :
    x.state.hist.Extends y.state.hist := by
  cases h with
  | quiet hq => rw [hq]; exact .refl _
  | schedule => constructor <;> simp [WarpSim.schedule, recordDelivery, enqueue]
  | receive => rw [receiveEvent_eq]; constructor <;> simp
  | acknowledge => rw [receiveAck_eq]; constructor <;> simp
  | queueMigration => constructor <;> simp [recordMigration, WarpSim.queueMigration]
  | migrate => constructor <;> simp [takeOver, recordMigration, setLp, modifyCtx]
  | sent => rw [posted_eq]; constructor <;> simp +contextual [logged, modifyCtx, renumber]
  | unlogged => rw [posted_eq]; constructor <;> simp +contextual [renumber, modifyCtx]
  | refused => constructor <;> simp +contextual [renumber, modifyCtx]
  | discard => constructor <;> simp [discardPending]
  | pop => constructor <;> simp [recordDispatch]
  | straggle => rw [unwound_eq]; constructor <;> simp
  | matched => rw [unwound_eq]; constructor <;> simp
  | release => rw [released_eq]; constructor <;> simp [recordRelease]
  | annul => rw [posted_eq]; constructor <;> simp +contextual [renumber, modifyCtx]
  | stuck => constructor <;> simp +contextual [WarpSim.lose, renumber, modifyCtx]
  | lose => constructor <;> simp [WarpSim.lose]
  | _ => exact .refl _

theorem GvtMove.extends {x y : Situation Q σ} (h : GvtMove sound final cfg x y) :
    x.state.hist.Extends y.state.hist := by
  cases h with
  | advance => constructor <;> simp [pruneToGvt, raiseGvt]
  | _ => exact .refl _

theorem AllMoves.extends {x y : Situation Q σ} (h : AllMoves sound final model cfg x y) :
    x.state.hist.Extends y.state.hist := by
  induction h with
  | refl => exact .refl _
  | tail _ hm ih => exact ih.trans (hm.elim Move.extends GvtMove.extends)

end WarpSim

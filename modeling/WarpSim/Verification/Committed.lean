import WarpSim.Verification.Deferral.Turns
import WarpSim.Verification.Rollback.Replay
import WarpSim.Verification.Sinks

/-! # What the sinks are handed

On one rank no reduction can be unsound. What the sinks have been handed there is final, and at the end of the run it
is the output of every execution that has not been undone. -/

namespace WarpSim

variable {Q : EventQueue} {σ : Type} {model : Model σ} {cfg : SimulationConfig}

open Prog Simulation

/-! ## The calls for one record -/

variable {allowed : Simulation Q σ → HostOp → Prop} {s : Simulation Q σ}

theorem mem_committedItems {i : LPId} {rec : ProcessedRecord} :
    (i, rec) ∈ committedItems s ↔ i ∈ s.lpIds ∧ rec ∈ (s.ctx i).fossils := by
  unfold committedItems
  simp only [List.mem_flatMap, List.mem_map, Prod.mk.injEq]
  constructor
  · rintro ⟨id, hid, rec', hrec', rfl, rfl⟩
    exact ⟨hid, hrec'⟩
  · rintro ⟨hi, hrec⟩
    exact ⟨i, hi, rec, hrec, rfl, rfl⟩

end WarpSim

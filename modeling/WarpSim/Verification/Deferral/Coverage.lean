import WarpSim.Verification.Bounds

/-! # Deferred events and GVT

`compute_gvt_` does not look at the events that wait for the install of their entity. GVT stays
behind them only as long as something else holds it back. -/

namespace WarpSim

variable {Q : EventQueue} {σ : Type} {model : Model σ} {cfg : SimulationConfig}

open Simulation

/-- While some LP or pending event is not after each deferred event whenever GVT is raised, no
deferred event is before GVT, none is dispatched before GVT, and no rollback reaches a record that
has been committed. -/
theorem deferred_not_before_gvt {allowed : Simulation Q σ → HostOp → Prop} {s : Simulation Q σ}
    (h : Reachable model cfg allowed s) (hsound : ∀ s op, allowed s op → op.SoundReduction cfg)
    (hcovered : Covered s.hist) :
    (∀ ev ∈ s.deferred, s.lastGvt ≤ ev.ts) ∧ (∀ d ∈ s.hist.dispatched, d.gvt ≤ d.ev.ts) ∧
      (∀ r ∈ s.hist.rollbacks, r.gvt ≤ r.target) ∧
      (s.finished = false → ∀ id, ∀ rec ∈ (s.ctx id).fossils, rec.ev.ts < s.lastGvt) := by
  have hinv := h.boundInv hsound hcovered
  exact ⟨fun ev hev => hinv.held ev (.deferred hev), hinv.dispatched, hinv.rollbacks, hinv.committed⟩

/-- An LP with one entity, which an install event creates. -/
def tenant : LogicalProcess Bool where
  init := false
  onEvent installed ev :=
    if ev.payload.kind = 42002 then .requestWrite installed ev.target (.done true)
    else if ev.target ≠ 0 ∧ installed = false then .throw installed "World: unknown EntityId=7"
    else .done installed
  saveState installed := [if installed then 1 else 0]
  loadState _ bytes := bytes = [1]

def bufferingConfig : SimulationConfig where
  enableInstallBeforeUseBuffering := true

/-- An event for the entity of the LP `tenant`. -/
def useAt (time : UInt64) : Event := { ts := ⟨time, 1⟩, src := 9, dst := 1, target := 7, uid := 1 }

def installAt (time : UInt64) : Event :=
  { ts := ⟨time, 1⟩, src := 9, dst := 1, target := 7, uid := 2, payload := { kind := 42002 } }

/-- An event that is not for the entity. -/
def otherAt (time : UInt64) : Event := { ts := ⟨time, 1⟩, src := 9, dst := 1, uid := 3 }

/-- A `tenant` LP that has been given the events and takes the given number of steps. -/
def tenantRun (evs : List Event) (steps : ℕ) : Simulation sortedEventQueue Bool :=
  hostRun (fun _ => tenant) bufferingConfig
    (.addLp 1 :: evs.map .schedule ++ List.replicate steps (.runOne {} true))
    (Simulation.create _ fun _ => tenant)

theorem reachable_tenantRun (evs : List Event) (steps : ℕ) :
    Reachable (fun _ => tenant) bufferingConfig (fun _ _ => True) (tenantRun evs steps) :=
  Reachable.hostRun .create (obeys_true _ _)

/-- The event at 5 waits for its install while the LP stays at 3. -/
theorem deferred_not_before_gvt_waiting :
    (tenantRun [otherAt 3, useAt 5] 2).lastGvt ≤ (useAt 5).ts := by
  have hcovered : Covered (tenantRun [otherAt 3, useAt 5] 2).hist :=
    ⟨⟨by decide +kernel, by decide +kernel⟩, by decide +kernel⟩
  have hmem : useAt 5 ∈ (tenantRun [otherAt 3, useAt 5] 2).deferred := by decide +kernel
  have hdeferred := deferred_not_before_gvt (reachable_tenantRun [otherAt 3, useAt 5] 2)
    (fun _ op _ => op.soundReduction_of_alone rfl rfl) hcovered
  exact hdeferred.1 _ hmem

/-- Another event takes the LP to 10 and GVT with it, while the event at 5 waits. Once the entity is
installed the event at 5 rolls the LP back behind GVT. -/
theorem deferred_falls_behind :
    (∃ s : Simulation sortedEventQueue Bool,
      Reachable (fun _ => tenant) bufferingConfig (fun _ _ => True) s ∧ Timely s.hist ∧
        ∃ ev ∈ s.deferred, ev.ts < s.lastGvt) ∧
    ∃ s : Simulation sortedEventQueue Bool,
      Reachable (fun _ => tenant) bufferingConfig (fun _ _ => True) s ∧ Timely s.hist ∧
        ∃ r ∈ s.hist.rollbacks, r.target < r.gvt := by
  refine ⟨⟨_, reachable_tenantRun [useAt 5, otherAt 10, installAt 12] 2, ⟨?_, ?_⟩, ?_⟩,
    ⟨_, reachable_tenantRun [useAt 5, otherAt 10, installAt 12] 4, ⟨?_, ?_⟩, ?_⟩⟩
  all_goals decide +kernel

end WarpSim

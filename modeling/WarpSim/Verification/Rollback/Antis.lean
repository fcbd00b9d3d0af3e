import WarpSim.Library.BackScan
import WarpSim.Verification.SentLog

/-! # The anti-messages of a rollback

A rollback is to cancel what the LP has sent while it executed events at or after the target. It looks at
the end of the sent log, and stops at the first entry with an earlier time. -/

namespace WarpSim

variable {Q : EventQueue} {σ : Type} {model : Model σ} {cfg : SimulationConfig}

open Prog Simulation

/-! ## What has to be cancelled -/

/-- The LP has sent the event while it executed one at or after the target. -/
def SendRecord.Due (i : LPId) (target : TimeStamp) (r : SendRecord) : Prop :=
  match r.cause with
  | .handler id execTs => id = i ∧ target ≤ execTs
  | _ => False

instance (i : LPId) (target : TimeStamp) : DecidablePred (SendRecord.Due i target) := by
  intro r
  unfold SendRecord.Due
  split <;> infer_instance

/-- The positive events that a rollback of the LP to the target has to cancel. -/
def due (i : LPId) (target : TimeStamp) (sends : List SendRecord) : List SendRecord :=
  (outstanding i sends).filter (·.Due i target)

/-- All sends that have to be cancelled are still in the log, and in the log no send of an earlier event,
or from outside the events, comes after one that has to be cancelled. -/
structure LogInOrder (i : LPId) (target : TimeStamp) (s : Simulation Q σ) : Prop where
  kept : ∀ r ∈ (outstanding i s.hist.sends).rdrop (s.ctx i).sentLog.length, ¬ r.Due i target
  ordered : (s.ctx i).sentLog.Pairwise fun a b => target ≤ a.sendTime → target ≤ b.sendTime

theorem SendRecord.due_iff {i : LPId} {target : TimeStamp} (htarget : ⟨0, 0⟩ < target) (r : SendRecord) :
    r.Due i target ↔ ¬ (r.entry i).sendTime < target := by
  change r.Due i target ↔ ¬ r.execTs i < target
  unfold SendRecord.Due SendRecord.execTs
  cases r.cause with
  | handler id execTs =>
      dsimp only
      split
      · next hid => simp [hid]
      · next hid => simp [hid, htarget]
  | _ => simp [htarget]

/-! ## What is cancelled -/

/-- The scan finds what is to be cancelled exactly when the log is in order. -/
theorem cancelledSends_perm_iff {i : LPId} {target : TimeStamp} (htarget : ⟨0, 0⟩ < target)
    {s : Simulation Q σ} (hlogged : Logged i (s.ctx i).sentLog s.hist.sends) :
    ((cancelledSends target (s.ctx i).sentLog).map (antiOf i)).Perm
      ((due i target s.hist.sends).map fun r => antiOf i (r.entry i)) ↔ LogInOrder i target s := by
  have hiff := List.rtakeWhile_perm_iff (p := fun sent : SentRecord => ¬ sent.sendTime < target)
    (q := fun r => r.Due i target) (antiOf i) hlogged fun r => decide_eq_decide.mpr (r.due_iff htarget)
  rw [cancelledSends_eq, due, hiff]
  simp only [decide_eq_true_eq, not_lt]
  exact ⟨fun h => ⟨h.1, h.2⟩, fun h => ⟨h.kept, h.ordered⟩⟩

variable (model cfg) in
/-- A rollback sends anti-messages for exactly the events that it has to cancel if and only if the log of
the LP is in order. The rollbacks of a dispatch start from a state `w` with the contexts and the sends of
the state `s` in which it begins. -/
theorem rollback_cancels {s w : Simulation Q σ} (hs : OnRun model cfg s) (hw : SameLps s w) {i : LPId}
    (hi : i ∈ s.lpIds) {target : TimeStamp} (htarget : ⟨0, 0⟩ < target) :
    ∃ t more, exec (rollback model cfg i target) w = (.ok (), t) ∧ t.hist.sends = s.hist.sends ++ more ∧
      (∀ r ∈ more, r.cause = .rollback i ∧ r.Plain) ∧
      ((more.map (·.asked)).Perm ((due i target s.hist.sends).map fun r => antiOf i (r.entry i)) ↔
        LogInOrder i target s) := by
  have hlog := hs.sentLogInv
  obtain ⟨t, more, hexec, hback⟩ := exec_rollback_ok model cfg target (hw.lpIds ▸ hi)
    (hw.ctx ▸ hlog.loggable i)
  have hsends := hback.sends
  have hasked := hback.asked
  rw [hw.sends] at hsends
  rw [hw.ctx] at hasked
  refine ⟨t, more, hexec, hsends, hback.cause, ?_⟩
  rw [hasked]
  exact cancelledSends_perm_iff htarget (hlog.logged i)

/-! ## A send from outside -/

/-- An LP that sends an event to the LP 2 for each event that it executes. -/
def caller : LogicalProcess Unit where
  init := ()
  onEvent _ ev := .send { ts := ⟨ev.ts.time + 5, 0⟩, src := 1, dst := 2 } fun _ => .done ()
  saveState _ := []
  loadState _ _ := ()

def callerRun (ops : List HostOp) : Simulation sortedEventQueue Unit :=
  hostRun (fun _ => caller) {}
    ([.addLp 1, .addLp 2, .schedule { ts := ⟨5, 1⟩, src := 9, dst := 1, uid := 1 }, .runOne {} false] ++ ops)
    (Simulation.create _ fun _ => caller)

theorem callerRun_onRun (ops : List HostOp) : OnRun (fun _ => caller) {} (callerRun ops) :=
  (Reachable.hostRun .create (obeys_true _ _)).onRun

/-- The LP 1 has executed the event at 5 and sent one to the LP 2, which a rollback cancels. -/
theorem rollback_cancels_caller :
    ∃ t more, exec (rollback (fun _ => caller) {} 1 ⟨4, 1⟩) (callerRun []) = (.ok (), t) ∧
      t.hist.sends = (callerRun []).hist.sends ++ more ∧
      (more.map (·.asked)).Perm
        ((due 1 ⟨4, 1⟩ (callerRun []).hist.sends).map fun r => antiOf 1 (r.entry 1)) := by
  have htarget : (⟨0, 0⟩ : TimeStamp) < ⟨4, 1⟩ := by decide
  obtain ⟨t, more, hexec, hsends, -, hiff⟩ := rollback_cancels (fun _ => caller) {} (callerRun_onRun [])
    (SameLps.refl _) (i := 1) (by decide +kernel) htarget
  have horder : LogInOrder 1 ⟨4, 1⟩ (callerRun []) := ⟨by decide +kernel, by decide +kernel⟩
  exact ⟨t, more, hexec, hsends, hiff.mpr horder⟩

/-- After that the host sends the LP 1 an event at 4 on its own behalf, which rolls it back: the event for
the LP 2 is not cancelled. -/
theorem host_send_hides_sends :
    OnRun (fun _ => caller) {} (callerRun [.send { ts := ⟨4, 1⟩, src := 1, dst := 1 }]) ∧
      (Phase.dispatch.after (fun _ => caller) {}
        (callerRun [.send { ts := ⟨4, 1⟩, src := 1, dst := 1 }])).hist.rollbacks = [⟨1, ⟨4, 1⟩, ⟨0, 0⟩⟩] ∧
      (Phase.dispatch.after (fun _ => caller) {}
        (callerRun [.send { ts := ⟨4, 1⟩, src := 1, dst := 1 }])).hist.sends =
          (callerRun [.send { ts := ⟨4, 1⟩, src := 1, dst := 1 }]).hist.sends ∧
      (due 1 ⟨4, 1⟩ (callerRun [.send { ts := ⟨4, 1⟩, src := 1, dst := 1 }]).hist.sends).map
        (fun r => (r.ev.ts.time, r.ev.dst)) = [(10, 2)] := by
  refine ⟨callerRun_onRun _, ?_⟩
  decide +kernel

end WarpSim

import WarpSim.Verification.Runs

/-! # The two scans of the pending queue

`pop_next_` skips positive events that have been cancelled. `peek_next_pending_ts_`, which the GVT
computation calls, skips whatever has a tombstone. -/

namespace WarpSim

variable {Q : EventQueue} {σ : Type} {cfg : SimulationConfig}

open Prog Simulation

/-- A positive event that has been cancelled. -/
def Simulation.cancelled (s : Simulation Q σ) (ev : Event) : Bool := !ev.isAnti && s.tombstoned ev

/-- The pending events in the order in which the queue serves them. -/
def Simulation.serving (s : Simulation Q σ) : List Event := Q.drain (Q.size s.pending) s.pending

/-- Both scans find the same event, discard the same entries, and what the GVT computation leaves
in the queue is what `pop_next_` leaves together with the event that it returns. -/
structure ScansAgree (cfg : SimulationConfig) (s : Simulation Q σ) : Prop where
  result : ∃ popped, (exec popNext s).1 = .ok popped ∧
    (exec peekNextPendingTs s).1 = .ok (popped.map (·.ts))
  discards : (exec peekNextPendingTs s).2.hist.dropped = (exec popNext s).2.hist.dropped
  gvt : ∀ popped, (exec popNext s).1 = .ok popped →
    Q.elems (exec (computeGvt cfg) s).2.pending =
      popped.toList + Q.elems (exec popNext s).2.pending

/-- The first entry of the queue that is not a cancelled event is not an anti-message of an event
that has a tombstone. -/
def FrontClear (s : Simulation Q σ) : Prop :=
  ∀ ev, s.serving.find? (fun ev => !s.cancelled ev) = some ev → ev.isAnti = true → s.tombstoned ev = false

theorem dropped_popNext (s : Simulation Q σ) : (exec popNext s).2.hist.dropped =
    s.hist.dropped ++ s.serving.takeWhile s.cancelled := by
  have hscan : (popScan s).hist.dropped = s.hist.dropped ++ s.serving.takeWhile s.cancelled :=
    congrArg (s.hist.dropped ++ ·) (Q.discardWhile_fst _ _ _)
  rw [exec_popNext, ← hscan]
  cases Q.top? (popScan s).pending <;> rfl

theorem dropped_peek (s : Simulation Q σ) : (exec peekNextPendingTs s).2.hist.dropped =
    s.hist.dropped ++ s.serving.takeWhile s.tombstoned :=
  congrArg (s.hist.dropped ++ ·) (Q.discardWhile_fst _ _ _)

theorem popScan_eq_peekScan {s : Simulation Q σ} (h : FrontClear s) : peekScan s = popScan s := by
  have hwider : ∀ ev, s.cancelled ev = true → s.tombstoned ev = true :=
    fun ev hev => (Bool.and_eq_true_iff.mp hev).2
  have hfront : ∀ ev, s.serving.find? (fun ev => !s.cancelled ev) = some ev →
      s.tombstoned ev = false := by
    intro ev hev
    have hlive : s.cancelled ev = false := by simpa using List.find?_some hev
    cases hanti : ev.isAnti with
    | true => exact h ev hev hanti
    | false => simpa [Simulation.cancelled, hanti] using hlive
  have heq := Q.discardWhile_congr hwider (Q.size s.pending) s.pending hfront
  unfold peekScan popScan discardPending
  exact congrArg (fun r => { s with
    pending := r.2
    hist := { s.hist with dropped := s.hist.dropped ++ r.1 } }) heq

/-- The scans agree exactly when no anti-message with a tombstone comes to the front. -/
theorem scansAgree_iff (s : Simulation Q σ) : ScansAgree cfg s ↔ FrontClear s := by
  constructor
  · intro h ev hev hanti
    by_contra htomb
    -- the entries before the anti-message are discarded by both scans, it only by one
    obtain ⟨hlive, before, after, hsplit, hbefore⟩ := List.find?_eq_some_iff_append.mp hev
    have hdrop := h.discards
    rw [dropped_peek, dropped_popNext, hsplit] at hdrop
    have hcancelled : ∀ e ∈ before, s.cancelled e = true := by simpa using hbefore
    have htombstoned : ∀ e ∈ before, s.tombstoned e = true :=
      fun e he => (Bool.and_eq_true_iff.mp (hcancelled e he)).2
    have hlen := congrArg List.length (List.append_cancel_left hdrop)
    rw [List.takeWhile_append_of_pos hcancelled, List.takeWhile_append_of_pos htombstoned] at hlen
    simp [Simulation.cancelled, hanti, htomb] at hlen
  · intro h
    have hscan := popScan_eq_peekScan h
    have hpeek : exec peekNextPendingTs s =
        (.ok ((Q.top? (popScan s).pending).map (·.ts)), popScan s) := hscan ▸ exec_peekNextPendingTs s
    have hgvt : (exec (computeGvt cfg) s).2 = popScan s := by
      rw [exec_computeGvt]
      exact hscan
    cases htop : Q.top? (popScan s).pending with
    | none =>
        have hpop : exec popNext s = (.ok none, popScan s) := by rw [exec_popNext, htop]
        rw [htop] at hpeek
        refine ⟨⟨none, by rw [hpop], by rw [hpeek]⟩, by rw [hpop, hpeek], ?_⟩
        intro popped hpopped
        rw [hpop] at hpopped ⊢
        cases hpopped
        simp [hgvt]
    | some ev =>
        have hpop : exec popNext s =
            (.ok (some ev), { popScan s with pending := Q.pop (popScan s).pending }) := by
          rw [exec_popNext, htop]
        rw [htop] at hpeek
        refine ⟨⟨some ev, by rw [hpop], by rw [hpeek]⟩, by rw [hpop, hpeek], ?_⟩
        intro popped hpopped
        rw [hpop] at hpopped ⊢
        cases hpopped
        rw [hgvt, Q.elems_pop _ _ htop]
        simp

/-- An anti-message whose event has not come yet. -/
def earlyAnti : Event := { ts := ⟨5, 1⟩, src := 9, dst := 1, uid := 1, isAnti := true }

/-- The anti-message has come twice, and has been dispatched once, in a step without a collective. -/
def antiTwice : Simulation sortedEventQueue ByteBuffer :=
  hostRun (fun _ => journal) { lpToRank := some fun _ => 0, gvtReduceMin := true }
    [.addLp 1, .schedule earlyAnti, .schedule earlyAnti, .runOne {} false]
    (Simulation.create _ fun _ => journal)

/-- `pop_next_` returns the second copy, while `peek_next_pending_ts_` finds nothing and discards
it, and so does the GVT computation. -/
theorem peek_discards_anti :
    (exec popNext antiTwice).1 = .ok (some earlyAnti) ∧
      (exec peekNextPendingTs antiTwice).1 = .ok none ∧
      (exec (computeGvt {}) antiTwice).2.hist.dropped = [earlyAnti] ∧ ¬ ScansAgree {} antiTwice := by
  have hpop : (exec popNext antiTwice).1 = .ok (some earlyAnti) := by decide +kernel
  have hpeek : (exec peekNextPendingTs antiTwice).1 = .ok none := by decide +kernel
  refine ⟨hpop, hpeek, by decide +kernel, fun h => ?_⟩
  obtain ⟨popped, hpopped, hstamp⟩ := h.result
  rw [hpop] at hpopped
  cases hpopped
  rw [hpeek] at hstamp
  cases hstamp

end WarpSim

import WarpSim.Verification.Rollback.Pairing
import WarpSim.Verification.Rollback.Replay
import WarpSim.Verification.UnderWay

/-! # Turns of an LP

A turn of an LP is the handling of one event, with the sends that it has made meanwhile. While a run is under
way, the records in place of an LP are those of turns that lead on from each other, and the positive events of
the LP that no rollback has cancelled are what it sent when it was started and in these turns. -/

namespace WarpSim

variable {Q : EventQueue} {σ : Type} {model : Model σ} {cfg : SimulationConfig}

open Prog Simulation

/-! ## What a handler sends -/

/-- What `send` notes in the history. -/
theorem send_noted (cfg : SimulationConfig) (cause : SendCause) (asked : Event) (s : Simulation Q σ) :
    ∃ more : List SendRecord, (exec (send cause cfg asked) s).2.hist.sends = s.hist.sends ++ more ∧
      (∀ r ∈ more, r.cause = cause ∧ r.asked = asked ∧ r.ev.src = asked.src ∧ r.ev.isAnti = asked.isAnti) ∧
      ((∀ r ∈ more, r.ev.src ∈ s.lpIds) →
        more.map (·.ev) = (exec (send cause cfg asked) s).1.toOption.toList) := by
  have hvalid := quiet_validate cfg s
  have hout := send_outcome cfg cause asked s
  generalize validateInvariants cfg s = v at hvalid hout
  generalize exec (send cause cfg asked) s = res at hout ⊢
  obtain ⟨r, t⟩ := res
  dsimp only at hout ⊢
  cases hout with
  | @sent ev uid normal control wraps _ hst _ hquiet =>
      refine ⟨[sendRecord cause asked (stampColor cfg v ev) (cfg.rankOf (stampColor cfg v ev).dst)
        (renumber asked.src uid normal control wraps v)], ?_, fun r hr => ?_, fun _ => rfl⟩
      · rw [hquiet]
        change (posted cause cfg asked (stampColor cfg v ev)
          (renumber asked.src uid normal control wraps v)).hist.sends = _
        rw [posted_sends, hvalid]
        rfl
      · rw [List.mem_singleton.mp hr]
        exact ⟨rfl, rfl, stamped_positive hst⟩
  | @unlogged ev uid normal control wraps what _ hst hpos hsrc hquiet =>
      refine ⟨[sendRecord cause asked (stampColor cfg v ev) (cfg.rankOf (stampColor cfg v ev).dst)
        (renumber asked.src uid normal control wraps v)], ?_, fun r hr => ?_, fun hown => ?_⟩
      · rw [hquiet]
        dsimp only
        rw [posted_sends, hvalid]
        rfl
      · rw [List.mem_singleton.mp hr]
        exact ⟨rfl, rfl, stamped_positive hst⟩
      · have hmem := hown _ (List.mem_singleton_self _)
        rw [← hvalid.lpIds] at hmem
        change (stampColor cfg v ev).src ∈ v.lpIds at hmem
        rw [(stamped_positive (v := v) hst).1] at hmem
        exact absurd hmem hsrc
  | refused _ _ hquiet =>
      refine ⟨[], ?_, by simp, fun _ => rfl⟩
      rw [hquiet, hvalid, List.append_nil]
      rfl

/-- The calls of `send` that have been accepted, and the events as sent. -/
def accepted (calls : List (Event × Except String Event)) : List (Event × Event) :=
  calls.flatMap fun call => call.2.toOption.toList.map (call.1, ·)

/-- From `s` to `t` the handler, which was to fill the record, has sent events, and how it has ended. -/
structure Conducted (model : Model σ) (id : LPId) (handler : Handler σ) (blank : ProcessedRecord)
    (s : Simulation Q σ) (res : Except String ProcessedRecord × Simulation Q σ) (more : List SendRecord) : Prop where
  sends : res.2.hist.sends = s.hist.sends ++ more
  cause : ∀ r ∈ more, r.cause = .handler id blank.ev.ts
  run : (∀ r ∈ more, r.ev.src = id) → ∀ rec, res.1 = .ok rec →
    ∃ calls, Handler.Run (model id) handler blank calls (res.2.ctx id).lp rec ∧
      accepted calls = more.map fun r => (r.asked, r.ev)

theorem runHandler_conducted (model : Model σ) (cfg : SimulationConfig) (id : LPId) (handler : Handler σ)
    (rec : ProcessedRecord) {s : Simulation Q σ} (hid : id ∈ s.lpIds) :
    ∃ more, Conducted model id handler rec s (exec (runHandler model cfg id handler rec) s) more := by
  induction handler generalizing rec s with
  | done state =>
      refine ⟨[], (List.append_nil _).symm, by simp, fun _ rec' hrec' => ⟨[], ?_, rfl⟩⟩
      cases hrec'
      change Handler.Run (model id) (.done state) rec [] ((setLp id state s).ctx id).lp rec
      rw [setLp_self]
      exact .done state rec
  | throw state what =>
      refine ⟨[], (List.append_nil _).symm, by simp, fun _ rec' hrec' => ?_⟩
      cases hrec'
  | send asked next ih =>
      obtain ⟨noted, hsends, hnoted, haccepted⟩ := send_noted cfg (.handler id rec.ev.ts) asked s
      have hids := (send_frame cfg (.handler id rec.ev.ts) asked s).lpIds
      unfold runHandler
      rw [exec_observe_bind]
      generalize exec (send (.handler id rec.ev.ts) cfg asked) s = res at hsends haccepted hids ⊢
      obtain ⟨r, t⟩ := res
      obtain ⟨more, hmore, hcause, hrun⟩ := ih (exceptionOf r)
        { rec with sent := rec.sent ++ r.toOption.toList } (s := t) (hids ▸ hid)
      refine ⟨noted ++ more, ?_, fun q hq => ?_, fun hown rec' hrec' => ?_⟩
      · exact hmore.trans (by rw [hsends, List.append_assoc])
      · exact (List.mem_append.mp hq).elim (fun hq => (hnoted q hq).1) (hcause q)
      · obtain ⟨calls, hcalls, hevs⟩ := hrun (fun q hq => hown q (List.mem_append_right _ hq)) rec' hrec'
        refine ⟨(asked, r) :: calls, .send hcalls, ?_⟩
        have hone : noted.map (·.ev) = r.toOption.toList := haccepted fun q hq =>
          (hown q (List.mem_append_left _ hq)) ▸ hid
        have hasked : noted.map (fun q => (q.asked, q.ev)) = (noted.map (·.ev)).map (asked, ·) := by
          rw [List.map_map]
          refine List.map_congr_left fun q hq => ?_
          rw [(hnoted q hq).2.1]
          rfl
        rw [List.map_append, ← hevs, hasked, hone]
        rfl
  | requestWrite state entity next ih =>
      obtain ⟨more, hmore, hcause, hrun⟩ := ih (requestWrite (model id) state entity rec) hid
      refine ⟨more, hmore, fun q hq => ?_, fun hown rec' hrec' => ?_⟩
      · rw [hcause q hq, requestWrite_ev]
      · obtain ⟨calls, hcalls, hevs⟩ := hrun hown rec' hrec'
        exact ⟨calls, .write hcalls, hevs⟩
  | emitCommitted ts payload next ih =>
      unfold runHandler
      split
      · next hts =>
        obtain ⟨more, hmore, hcause, hrun⟩ := ih none { rec with committed := rec.committed ++ [⟨ts, payload⟩] } hid
        refine ⟨more, hmore, hcause, fun hown rec' hrec' => ?_⟩
        obtain ⟨calls, hcalls, hevs⟩ := hrun hown rec' hrec'
        exact ⟨calls, .emit hts hcalls, hevs⟩
      · next hts =>
        obtain ⟨more, hmore, hcause, hrun⟩ := ih (some "emit_committed: ts must match the current event timestamp")
          rec hid
        refine ⟨more, hmore, hcause, fun hown rec' hrec' => ?_⟩
        obtain ⟨calls, hcalls, hevs⟩ := hrun hown rec' hrec'
        exact ⟨calls, .emitRefused hts hcalls, hevs⟩

/-! ## Turns -/

/-- A record with what the LP has sent while it handled the event. -/
structure Turn where
  record : ProcessedRecord
  sends : List SendRecord

/-- The turn has led the LP from one state to another. -/
inductive Turn.Made (lp : LogicalProcess σ) (id : LPId) (turn : Turn) (y z : σ) : Prop where
  | anti : turn.record.ev.isAnti = true → turn.sends = [] → z = y → Made lp id turn y z
  | handled (c : LPContext σ) (calls) : turn.record.ev.isAnti = false →
      Handler.Run lp (lp.onEvent y turn.record.ev) (newRecord turn.record.ev c) calls z turn.record →
      accepted calls = turn.sends.map (fun r => (r.asked, r.ev)) →
      (∀ r ∈ turn.sends, r.cause = .handler id turn.record.ev.ts) → Made lp id turn y z

/-- The turn has led the LP from one state to another, and its record takes the LP back. -/
def SnapshotMode.Takes {lp : LogicalProcess σ} {ι β : Type} [DecidableEq ι] (mode : SnapshotMode lp ι β)
    (id : LPId) (turn : Turn) (y z : σ) : Prop :=
  turn.Made lp id y z ∧ mode.Undoes turn.record y z

theorem Turn.Made.cause {lp : LogicalProcess σ} {id : LPId} {turn : Turn} {y z : σ} (h : turn.Made lp id y z) :
    ∀ r ∈ turn.sends, r.cause = .handler id turn.record.ev.ts := by
  cases h with
  | anti _ hnone => simp [hnone]
  | handled _ _ _ _ _ hcause => exact hcause

/-! ## Sends that are outstanding -/

def SendCause.isStart : SendCause → Bool
  | .start _ => true
  | _ => false

/-- What has been sent in the name of the LP as LPs were started. -/
def starts (i : LPId) (sends : List SendRecord) : List SendRecord :=
  sends.filter fun r => r.cause.isStart ∧ r.Mine i

/-- What is not sent by a rollback adds to what is outstanding. -/
theorem outstanding_sent {i : LPId} {sends more : List SendRecord} (hcause : ∀ r ∈ more, r.cause ≠ .rollback i) :
    outstanding i (sends ++ more) = outstanding i sends ++ more.filter (·.Mine i) := by
  induction more using List.reverseRecOn with
  | nil => simp
  | append_singleton more r ih =>
      rw [← List.append_assoc, outstanding_append, ih fun q hq => hcause q (List.mem_append_left _ hq), account,
        if_neg (hcause r (by simp))]
      rw [List.filter_append]
      by_cases hmine : r.Mine i
      · have hcond : r.ev.src = i ∧ r.ev.isAnti = false := hmine
        simp [if_pos hcond, hmine]
      · have hcond : ¬ (r.ev.src = i ∧ r.ev.isAnti = false) := hmine
        simp [if_neg hcond, hmine]

/-- The anti-messages for the last entries withdraw the last sends. -/
theorem outstanding_annulled {i : LPId} {sends more front back : List SendRecord} {log : List SentRecord}
    (hasked : more.map (·.asked) = log.map (antiOf i)) (hcause : ∀ r ∈ more, r.cause = .rollback i)
    (hout : outstanding i sends = front ++ back) (hback : back.map (·.entry i) = log.reverse) :
    outstanding i (sends ++ more) = front := by
  induction log generalizing sends more back with
  | nil =>
      have hmore : more = [] := List.map_eq_nil_iff.mp hasked
      have hnone : back = [] := List.map_eq_nil_iff.mp hback
      rw [hmore, List.append_nil, hout, hnone, List.append_nil]
  | cons sent log ih =>
      obtain ⟨r, more, rfl, hr, hmore⟩ := List.map_eq_cons_iff.mp hasked
      rw [List.reverse_cons] at hback
      obtain ⟨back, last, rfl, hrest, hlast⟩ := List.map_eq_append_iff.mp hback
      obtain ⟨p, rfl, hp⟩ := List.map_eq_singleton_iff.mp hlast
      rw [← List.singleton_append, ← List.append_assoc]
      refine ih hmore (fun q hq => hcause q (List.mem_cons_of_mem _ hq)) ?_ hrest
      rw [outstanding_append, account, if_pos (hcause r List.mem_cons_self), hr, ← hp, hout, ← List.append_assoc,
        withdraw_last]

theorem starts_append (i : LPId) (sends more : List SendRecord) :
    starts i (sends ++ more) = starts i sends ++ starts i more := List.filter_append ..

theorem starts_eq_nil {i : LPId} {more : List SendRecord} (h : ∀ r ∈ more, r.cause.isStart = false) :
    starts i more = [] := by
  refine List.filter_eq_nil_iff.mpr fun r hr => ?_
  simp [h r hr]

end WarpSim

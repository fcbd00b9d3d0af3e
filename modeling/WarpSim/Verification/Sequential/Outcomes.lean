import WarpSim.Verification.Migration.Ownership
import WarpSim.Verification.Sequential.Opening

/-! # What the turns of a run come to

While no send of an LP is cancelled, its events are numbered one after the other. What a turn puts out and sends
then depends only on its event, on the state in which it begins and on how many events have been sent before. -/

namespace WarpSim

variable {Q : EventQueue} {σ : Type} {sound final : Prop} {model : Model σ} {cfg : SimulationConfig}

open Prog Simulation

/-! ## Handlers -/

/-- The handler does not catch the exceptions of `send`. -/
def Handler.LetsThrough : Handler σ → Prop
  | .done _ => True
  | .throw _ _ => True
  | .send _ next => (∀ what, ∃ state what', next (some what) = .throw state what') ∧ (next none).LetsThrough
  | .requestWrite _ _ next => next.LetsThrough
  | .emitCommitted _ _ next => ∀ what, (next what).LetsThrough

/-- If such a handler comes to its end, `send` has accepted its event. -/
theorem Handler.Run.sent {lp : LogicalProcess σ} {next : Option String → Handler σ} {r : Except String Event}
    {blank rec : ProcessedRecord} {calls : List (Event × Except String Event)} {state : σ}
    (h : Handler.Run lp (next (exceptionOf r)) blank calls state rec)
    (hthrows : ∀ what, ∃ state what', next (some what) = .throw state what') : ∃ ev, r = .ok ev := by
  cases r with
  | ok ev => exact ⟨ev, rfl⟩
  | error what =>
      obtain ⟨state', what', hthrow⟩ := hthrows what
      change Handler.Run lp (next (some what)) _ _ _ _ at h
      rw [hthrow] at h
      cases h

theorem Handler.Run.accepted {lp : LogicalProcess σ} {handler : Handler σ} {blank rec : ProcessedRecord}
    {calls : List (Event × Except String Event)} {state : σ} (h : Handler.Run lp handler blank calls state rec)
    (hlets : handler.LetsThrough) : (WarpSim.accepted calls).map Prod.fst = calls.map Prod.fst := by
  induction h with
  | done => rfl
  | @send ev r next blank calls state rec hrun ih =>
      obtain ⟨sent, rfl⟩ := hrun.sent hlets.1
      change ev :: (WarpSim.accepted calls).map Prod.fst = ev :: calls.map Prod.fst
      rw [ih hlets.2]
  | write _ ih => exact ih hlets
  | emit _ _ ih => exact ih (hlets _)
  | emitRefused _ _ ih => exact ih (hlets _)

theorem requestWrite_committed (lp : LogicalProcess σ) (state : σ) (entity : EntityId) (rec : ProcessedRecord) :
    (requestWrite lp state entity rec).committed = rec.committed := by
  unfold requestWrite
  split
  · rfl
  · split
    · rfl
    · split <;> rfl

/-- What such a handler asks for, puts out and ends in does not depend on how its events are numbered. -/
theorem Handler.Run.determined {lp : LogicalProcess σ} {handler : Handler σ} {blank blank' rec rec' : ProcessedRecord}
    {calls calls' : List (Event × Except String Event)} {state state' : σ}
    (h : Handler.Run lp handler blank calls state rec) (h' : Handler.Run lp handler blank' calls' state' rec')
    (hlets : handler.LetsThrough) (hts : blank'.ev.ts = blank.ev.ts) (hout : blank'.committed = blank.committed) :
    calls'.map Prod.fst = calls.map Prod.fst ∧ state' = state ∧ rec'.committed = rec.committed := by
  induction h generalizing blank' calls' with
  | done =>
      cases h'
      exact ⟨rfl, rfl, hout⟩
  | @send ev r next blank calls state rec hrun ih =>
      cases h' with
      | @send _ r' _ _ calls' _ _ hrun' =>
          obtain ⟨sent, rfl⟩ := hrun.sent hlets.1
          obtain ⟨sent', rfl⟩ := hrun'.sent hlets.1
          obtain ⟨hcalls, hstate, hcommitted⟩ := ih hrun' hlets.2 hts hout
          exact ⟨congrArg (ev :: ·) hcalls, hstate, hcommitted⟩
  | write _ ih =>
      cases h' with
      | write hrun' =>
          refine ih hrun' hlets ?_ ?_
          · rw [requestWrite_ev, requestWrite_ev]
            exact hts
          · rw [requestWrite_committed, requestWrite_committed]
            exact hout
  | @emit ts payload next blank _ _ _ heq _ ih =>
      cases h' with
      | emit _ hrun' => exact ih hrun' (hlets _) hts (by rw [hout])
      | emitRefused hne => exact absurd (heq.trans hts.symm) hne
  | emitRefused hne _ ih =>
      cases h' with
      | emit heq => exact absurd (heq.trans hts) hne
      | emitRefused _ hrun' => exact ih hrun' (hlets _) hts hout

/-! ## Numbers -/

/-- What matters of an event: in the acknowledging mode its color is given, and otherwise it says nothing. -/
def Event.seen (cfg : SimulationConfig) (ev : Event) : Event :=
  if cfg.gvtMode = .ackInflight then ev else { ev with gvtColor := 0 }

theorem Event.seen_frame (cfg : SimulationConfig) (ev : Event) :
    ev.seen cfg = { ev with gvtColor := (ev.seen cfg).gvtColor } := by
  unfold Event.seen
  split <;> rfl

@[simp] theorem Event.seen_ts (ev : Event) : (ev.seen cfg).ts = ev.ts := by rw [seen_frame]

@[simp] theorem Event.seen_dst (ev : Event) : (ev.seen cfg).dst = ev.dst := by rw [seen_frame]

@[simp] theorem Event.seen_isAnti (ev : Event) : (ev.seen cfg).isAnti = ev.isAnti := by rw [seen_frame]

theorem seen_stamped {s : Simulation Q σ} {asked ev : Event} {u n k : UInt64} {w : Bool}
    (h : Stamped cfg s asked ev u n k w) (hplain : PlainRouting cfg s) (hseq : asked.ts.sequence ≠ 0) :
    (stampColor cfg s ev).seen cfg = { asked.seen cfg with uid := (stampColor cfg s ev).uid } := by
  have hev : ev = { asked with uid := ev.uid } := by
    have hframe := h.frame
    rw [(h.sequence_given hseq).1, h.plain hplain] at hframe
    exact hframe
  unfold stampColor Event.seen
  by_cases hmode : cfg.gvtMode = .ackInflight
  · simp only [hmode, ne_eq, not_true_eq_false, if_false, if_true]
    exact hev
  · simp only [hmode, ne_eq, not_false_eq_true, if_false, if_true]
    conv_lhs => rw [hev]

theorem plainRouting_of_unmoved {y : Situation Q σ}
    (h : AllMoves sound final model cfg (Simulation.create Q model).atRest y) (hdir : cfg.directoryForEntity = none)
    (hmig : y.state.hist.migrations = []) : PlainRouting cfg y.state := by
  refine ⟨hdir, fun entity => ?_⟩
  have howner : OwnerInv entity y.state := h.ownerInv ownerInv_create
  rw [howner.owner, hmig]
  rfl

/-- Without directories and migrations events are sent as they are asked for, up to their uids. -/
theorem AllMoves.seen_sends {y : Situation Q σ}
    (h : AllMoves sound final model cfg (Simulation.create Q model).atRest y) (hdir : cfg.directoryForEntity = none)
    (hmig : y.state.hist.migrations = []) :
    ∀ r ∈ y.state.hist.sends, r.asked.ts.sequence ≠ 0 → r.ev.seen cfg = { r.asked.seen cfg with uid := r.ev.uid } := by
  induction h with
  | refl => simp [Simulation.create, Simulation.atRest]
  | @tail x y hxs hm ih =>
      have hle : x.state.hist.migrations <+: y.state.hist.migrations := (hm.elim Move.extends GvtMove.extends).migrations
      have hmig' : x.state.hist.migrations = [] := List.prefix_nil.mp (hmig ▸ hle)
      have hx := ih hmig'
      rcases hm with hm | hm
      · cases hm.counterStep 0 with
        | same hsends => rwa [hsends]
        | registered hsends => rwa [hsends]
        | rewound _ hsends => rwa [hsends]
        | refused _ _ _ _ _ hsends => rwa [hsends]
        | sent r ev u n k w hst hev _ hsends =>
            rw [hsends]
            intro q hq hseq
            rcases List.mem_append.mp hq with hq | hq
            · exact hx q hq hseq
            · obtain rfl := List.mem_singleton.mp hq
              rw [hev]
              exact seen_stamped hst (plainRouting_of_unmoved hxs hdir hmig') hseq
      · rw [hm.logStep.2.2.1]
        exact hx

/-- The uids of the events of an LP rise from 1 on. -/
structure Rising (sends : List SendRecord) : Prop where
  positive : ∀ r ∈ sends, r.ev.uid ≠ 0
  rising : ∀ i, (sends.filter (·.Mine i)).Pairwise fun a b => a.ev.uid < b.ev.uid

theorem Move.rising {x y : Situation Q σ} (hm : Move model cfg x y) (hseed : SeedInv x) (hnum : Numbered cfg x.state)
    (h : Rising x.state.hist.sends) (hw : y.state.hist.wrapped = false) (huids : UidsOpen y.state.hist.sends) :
    Rising y.state.hist.sends := by
  rcases (hm.counterStep 0).sends_cases with hsends | ⟨r, hsends⟩
  · rwa [hsends]
  have hnew := hm.newSend hseed hw hsends
  have huid : r.ev.uid ≠ 0 := by
    have hother : y.state.hist.sends ≠ x.state.hist.sends := by simp [hsends]
    cases hm.counterStep 0 with
    | same heq => exact absurd heq hother
    | registered heq => exact absurd heq hother
    | rewound _ heq => exact absurd heq hother
    | refused _ _ _ _ _ heq => exact absurd heq hother
    | sent r' ev u n k w hst hev _ heq =>
        rw [hsends, List.append_cancel_left_eq, List.singleton_inj] at heq
        rw [heq, hev, stampColor_eq]
        exact hst.uid_ne_zero
  rw [hsends] at huids ⊢
  refine ⟨fun q hq => ?_, fun i => ?_⟩
  · rcases List.mem_append.mp hq with hq | hq
    · exact h.positive q hq
    · rw [List.mem_singleton.mp hq]
      exact huid
  · rw [List.filter_append]
    refine List.pairwise_append.mpr ⟨h.rising i, List.Pairwise.filter _ (List.pairwise_singleton ..), fun a ha b hb => ?_⟩
    obtain ⟨ha, hmine⟩ := List.mem_filter.mp ha
    obtain ⟨hb, hmine'⟩ := List.mem_filter.mp hb
    obtain rfl := List.mem_singleton.mp hb
    have hmine : a.Mine i := of_decide_eq_true hmine
    have hmine' : b.Mine i := of_decide_eq_true hmine'
    have hlt := (hnum.below a ha hmine.2).2
    rw [hmine.1, ← hmine'.1, hnew.src] at hlt
    rw [(hnew.auto (huids b (by simp) hmine'.2)).2.1]
    exact hlt

theorem AllMoves.rising {y : Situation Q σ}
    (h : AllMoves sound final model cfg (Simulation.create Q model).atRest y)
    (hw : y.state.hist.wrapped = false) (huids : UidsOpen y.state.hist.sends) : Rising y.state.hist.sends := by
  induction h with
  | refl => exact ⟨by simp [Simulation.create, Simulation.atRest], by simp [Simulation.create, Simulation.atRest]⟩
  | @tail x y hxs hm ih =>
      have hext : x.state.hist.Extends y.state.hist := hm.elim Move.extends GvtMove.extends
      have hw' := hext.wrapped hw
      have huids' : UidsOpen x.state.hist.sends := fun r hr => huids r (hext.sends.subset hr)
      have hx := ih hw' huids'
      rcases hm with hm | hm
      · have hpairing := AllMoves.pairingInv hxs booksInv_create sentLogInv_create seedInv_create pairingInv_create hw' huids'
        exact hm.rising (AllMoves.seedInv hxs seedInv_create hw') hpairing.numbered hx hw huids
      · rw [hm.logStep.2.2.1]
        exact hx

/-- As many numbers as there are below a bound, in rising order, are all of them. -/
theorem eq_range'_of_rising {l : List ℕ} (hrising : l.Pairwise (· < ·)) (hpos : ∀ n ∈ l, 1 ≤ n)
    (hbound : ∀ n ∈ l, n < l.length + 1) : l = List.range' 1 l.length := by
  have hsub : l ⊆ List.range' 1 l.length := fun n hn =>
    List.mem_range'_1.mpr ⟨hpos n hn, by have := hbound n hn; omega⟩
  have hperm : l.Perm (List.range' 1 l.length) :=
    (List.subperm_of_subset (hrising.imp ne_of_lt) hsub).perm_of_length_le (by simp)
  exact hperm.eq_of_pairwise (fun a b _ _ hab hba => absurd hab (lt_asymm hba)) hrising List.pairwise_lt_range'

/-! ## Outcomes -/

/-- What a turn comes to: its event, what it puts out and what it sends. -/
structure Outcome where
  event : Event
  outputs : List CommittedOutput
  sends : List Event

/-- The events as they are sent, the first of them with the given uid. -/
def numberedFrom (cfg : SimulationConfig) : ℕ → List Event → List Event
  | _, [] => []
  | n, ev :: rest => { ev.seen cfg with uid := UInt64.ofNat n } :: numberedFrom cfg (n + 1) rest

/-- The handler has been run for the event in a state of the LP in which the given uid is the next one. -/
inductive Outcome.Comes (model : Model σ) (cfg : SimulationConfig) (e : Outcome) (y z : σ × ℕ) : Prop where
  | run (blank calls rec) : blank.ev.ts = e.event.ts → blank.committed = [] →
      Handler.Run (model e.event.dst) ((model e.event.dst).onEvent y.1 e.event) blank calls z.1 rec →
      e.outputs = rec.committed → e.sends = numberedFrom cfg y.2 (calls.map Prod.fst) →
      z.2 = y.2 + calls.length → Comes model cfg e y z

/-- The LPs with the numbers that the kernel gives their events. -/
def outcomes (model : Model σ) (cfg : SimulationConfig) : EventSystem Outcome LPId Event TimeStamp (σ × ℕ) where
  event e := e.event
  sends e := e.sends
  place ev := ev.dst
  time ev := ev.ts
  acts e := e.Comes model cfg

theorem outcomes_deterministic (hlets : ∀ i state ev, ((model i).onEvent state ev).LetsThrough) :
    (outcomes model cfg).Deterministic := by
  rintro ⟨event, outputs, sends⟩ ⟨event', outputs', sends'⟩ x ⟨z, n⟩ ⟨z', n'⟩ hevent h h'
  obtain rfl : event' = event := hevent
  obtain ⟨blank, calls, rec, hts, hnone, hrun, hout, hsends, hnext⟩ := h
  obtain ⟨blank', calls', rec', hts', hnone', hrun', hout', hsends', hnext'⟩ := h'
  obtain ⟨hcalls, hstate, hcommitted⟩ :=
    hrun.determined hrun' (hlets _ _ _) (hts'.trans hts.symm) (hnone'.trans hnone.symm)
  have hlen := congrArg List.length hcalls
  rw [List.length_map, List.length_map] at hlen
  dsimp only at hstate hout hout' hsends hsends' hnext hnext'
  rw [hcalls, ← hsends] at hsends'
  rw [hcommitted, ← hout] at hout'
  rw [hlen, ← hnext] at hnext'
  exact ⟨by rw [hsends', hout'], by rw [hstate, hnext']⟩

def Turn.outcome (cfg : SimulationConfig) (turn : Turn) : Outcome where
  event := turn.record.ev.seen cfg
  outputs := turn.record.committed
  sends := turn.sends.map (·.ev.seen cfg)

theorem map_seen_eq_numberedFrom {sends : List SendRecord} {n : ℕ}
    (hseen : ∀ r ∈ sends, r.ev.seen cfg = { r.asked.seen cfg with uid := r.ev.uid })
    (huids : sends.map (·.ev.uid.toNat) = List.range' n sends.length) :
    sends.map (·.ev.seen cfg) = numberedFrom cfg n (sends.map (·.asked)) := by
  induction sends generalizing n with
  | nil => rfl
  | cons r sends ih =>
      rw [List.map_cons, List.length_cons, List.range'_succ, List.cons.injEq] at huids
      rw [List.map_cons, List.map_cons, numberedFrom, ih (fun q hq => hseen q (List.mem_cons_of_mem _ hq)) huids.2,
        hseen r List.mem_cons_self, ← huids.1, UInt64.ofNat_toNat]

section

variable (hlets : ∀ i state ev, ((model i).onEvent state ev).LetsThrough)
  (hcolor : ∀ i state ev, (model i).onEvent state (ev.seen cfg) = (model i).onEvent state ev)

include hlets hcolor

theorem Turn.Handles.comes {turn : Turn} {y z : σ} {n : ℕ} (h : turn.Handles model y z)
    (hseen : ∀ r ∈ turn.sends, r.ev.seen cfg = { r.asked.seen cfg with uid := r.ev.uid })
    (huids : turn.sends.map (·.ev.uid.toNat) = List.range' n turn.sends.length) :
    (turn.outcome cfg).Comes model cfg (y, n) (z, n + turn.sends.length) := by
  obtain ⟨c, calls, hpos, hrun, haccepted⟩ := h
  have hcalls : calls.map Prod.fst = turn.sends.map (·.asked) := by
    rw [← hrun.accepted (hlets _ _ _), haccepted, List.map_map]
    rfl
  have hlen := congrArg List.length hcalls
  rw [List.length_map, List.length_map] at hlen
  refine .run (newRecord turn.record.ev c) calls turn.record (Event.seen_ts _).symm rfl ?_ rfl ?_ (by rw [hlen])
  · change Handler.Run (model (turn.record.ev.seen cfg).dst)
      ((model (turn.record.ev.seen cfg).dst).onEvent y (turn.record.ev.seen cfg)) _ calls z turn.record
    rw [Event.seen_dst, hcolor]
    exact hrun
  · rw [hcalls]
    exact map_seen_eq_numberedFrom hseen huids

/-- Turns whose events are numbered one after the other come to outcomes that lead on from each other. -/
theorem trail_outcomes {own : List Turn} {start z : σ} {n : ℕ}
    (h : Trail (fun turn => turn.Handles model) start own z)
    (hseen : ∀ turn ∈ own, ∀ r ∈ turn.sends, r.ev.seen cfg = { r.asked.seen cfg with uid := r.ev.uid })
    (huids : (own.flatMap (·.sends)).map (·.ev.uid.toNat) = List.range' n (own.flatMap (·.sends)).length) :
    Trail (fun e => e.Comes model cfg) (start, n) (own.map (·.outcome cfg)) (z, n + (own.flatMap (·.sends)).length) := by
  induction h with
  | nil => exact .nil
  | @snoc own y z turn _ hhandles ih =>
      have hflat : (own ++ [turn]).flatMap (·.sends) = own.flatMap (·.sends) ++ turn.sends := by simp
      rw [hflat, List.map_append, List.length_append, ← List.range'_append_1] at huids
      obtain ⟨hbefore, hlast⟩ := List.append_inj huids (by simp)
      rw [hflat, List.length_append, List.map_append, ← add_assoc]
      exact (ih (fun t ht => hseen t (List.mem_append_left _ ht)) hbefore).snoc
        (hhandles.comes hlets hcolor (hseen turn (by simp)) hlast)

end

/-! ## Runs in which no send is cancelled -/

/-- The LPs keep to the rules for sends and number their events by stamps of their own, no migration comes in, no
rollback has cancelled a send, and each uid that has been drawn is that of an event that has been sent. -/
structure Uncancelled (s : Simulation Q σ) : Prop where
  disciplined : Disciplined s.hist
  stamped : ∀ r ∈ s.hist.sends, r.cause.isStart = false → r.asked.ts.sequence ≠ 0
  unmoved : s.hist.migrations = []
  kept : ∀ r ∈ s.hist.sends, ∀ i, r.cause ≠ .rollback i
  drawn : ∀ i ∈ s.lpIds, (s.ctx i).nextUid.toNat = (s.hist.sends.filter (·.Mine i)).length + 1

namespace Uncancelled

variable {s : Simulation Q σ} (h : Uncancelled s)

include h

theorem entered_positive (ev : Event) (hev : ev ∈ s.entered cfg) : ev.isAnti = false := by
  rcases List.mem_append.mp hev with hev | hev
  · obtain ⟨d, hmem, rfl⟩ := List.mem_map.mp hev
    exact (h.disciplined.delivered d hmem).1
  · obtain ⟨r, hr, rfl⟩ := List.mem_map.mp hev
    have hmem := (List.mem_filter.mp hr).1
    refine Bool.eq_false_iff.mpr fun hanti => ?_
    obtain ⟨i, hcause⟩ := (h.disciplined.sends r hmem).undoes hanti
    exact h.kept r hmem i hcause

theorem kept_positive (hs : Progress cfg s) (i : LPId) : ∀ rec ∈ (s.ctx i).kept, rec.ev.isAnti = false :=
  fun _ hrec => h.entered_positive _ (entered_of_kept hs.present hs.books hrec)

theorem outstanding_eq (i : LPId) : outstanding i s.hist.sends = s.hist.sends.filter (·.Mine i) := by
  have hsent : outstanding i ([] ++ s.hist.sends) = outstanding i [] ++ s.hist.sends.filter (·.Mine i) :=
    outstanding_sent fun r hr => h.kept r hr i
  rwa [List.nil_append] at hsent

/-- The events of an LP are numbered one after the other. -/
theorem uids (hs : Progress cfg s) (hrising : Rising s.hist.sends) (i : LPId) :
    (s.hist.sends.filter (·.Mine i)).map (·.ev.uid.toNat) =
      List.range' 1 (s.hist.sends.filter (·.Mine i)).length := by
  have hmine : ∀ r ∈ s.hist.sends.filter (·.Mine i), r ∈ s.hist.sends ∧ r.Mine i := fun r hr =>
    ⟨(List.mem_filter.mp hr).1, of_decide_eq_true (List.mem_filter.mp hr).2⟩
  have hrange := eq_range'_of_rising (l := (s.hist.sends.filter (·.Mine i)).map (·.ev.uid.toNat)) ?_ ?_ ?_
  · rwa [List.length_map] at hrange
  · exact List.pairwise_map.mpr ((hrising.rising i).imp fun hlt => UInt64.lt_iff_toNat_lt.mp hlt)
  · intro n hn
    obtain ⟨r, hr, rfl⟩ := List.mem_map.mp hn
    refine Nat.one_le_iff_ne_zero.mpr fun hzero => hrising.positive r (hmine r hr).1 ?_
    exact UInt64.toNat_inj.mp (by simpa using hzero)
  · intro n hn
    obtain ⟨r, hr, rfl⟩ := List.mem_map.mp hn
    obtain ⟨hmem, hsrc, hpos⟩ := hmine r hr
    obtain ⟨hid, hlt⟩ := hs.pairing.numbered.below r hmem hpos
    rw [hsrc] at hid hlt
    rw [List.length_map, ← h.drawn i hid]
    exact UInt64.lt_iff_toNat_lt.mp hlt

end Uncancelled

/-- Where the LP begins when it is started, and the uid that is next then. -/
def opening (model : Model σ) (cfg : SimulationConfig) (s : Simulation Q σ) (i : LPId) : σ × ℕ :=
  (((Phase.start.after model cfg s).ctx i).lp,
    1 + ((Phase.start.after model cfg s).hist.sends.filter (·.Mine i)).length)

section

variable {s t : Simulation Q σ} {Admits : LPId → Event → Prop}

/-- When nothing waits any more, the turns of the LPs make up an execution of the LPs with their numbers. -/
theorem Opened.complete (h : Opened model cfg s t) (hlets : ∀ i state ev, ((model i).onEvent state ev).LetsThrough)
    (hcolor : ∀ i state ev, (model i).onEvent state (ev.seen cfg) = (model i).onEvent state ev)
    (hdir : cfg.directoryForEntity = none) (hoff : cfg.enableInstallBeforeUseBuffering = false) (ht : Covered t.hist)
    (hu : Uncancelled t) (hcontract : ∀ i, SnapshotContract (model i) (Admits i))
    (hadmits : ∀ ev ∈ t.entered cfg, Admits ev.dst ev) (hq : Quiescent cfg t) :
    ∃ (own : LPId → List Turn) (turns : List Outcome), (∀ i, (own i).map (·.record) = (t.ctx i).kept) ∧
      (∀ i, turns.filter ((outcomes model cfg).At i ·) = (own i).map (·.outcome cfg)) ∧
      turns.Perm ((t.lpIds.flatMap own).map (·.outcome cfg)) ∧ ∃ final, (outcomes model cfg).Complete
        (opening model cfg s) ((agenda t).map (·.seen cfg) : Multiset Event) turns final := by
  have hd := hu.disciplined
  have hs := h.underWay.progress ht hd
  have hmoves := h.underWay.moves baseInv_create
  have hids : t.lpIds.Nodup := h.underWay.lpIds_nodup
  choose hsince own haccounts using fun i =>
    h.accounted (hcontract i) (fun ev hev hdst => hdst ▸ hadmits ev hev) hoff ht hd
  have hpositive : ∀ i, handledTurns (own i) = own i := by
    intro i
    refine List.filter_eq_self.mpr fun turn hturn => decide_eq_true ?_
    exact hu.kept_positive hs i _ ((haccounts i).record_mem hturn)
  have hfiled : ∀ i, ∀ rec ∈ (t.ctx i).kept, rec.ev.dst = i := fun i rec hrec =>
    (hs.books.ledger i).filed rec ((hs.books.ledger i).kept_sub hrec)
  have hplace : ∀ i, ∀ turn ∈ own i, turn.record.ev.dst = i := fun i turn hturn =>
    hfiled i _ ((haccounts i).record_mem hturn)
  have hseen : ∀ i, ∀ turn ∈ own i, ∀ r ∈ turn.sends, r.ev.seen cfg = { r.asked.seen cfg with uid := r.ev.uid } := by
    intro i turn hturn r hr
    have hmem := (hs.pairing.paired.outstanding_mine ((haccounts i).sends_mem hturn hr)).1
    refine AllMoves.seen_sends hmoves hdir hu.unmoved r hmem (hu.stamped r hmem ?_)
    obtain ⟨y, z, hmade⟩ := (haccounts i).trail.exists_of_mem hturn
    rw [hmade.cause r hr]
    rfl
  have huids : ∀ i, ((own i).flatMap (·.sends)).map (·.ev.uid.toNat) = List.range'
      (1 + ((Phase.start.after model cfg s).hist.sends.filter (·.Mine i)).length) ((own i).flatMap (·.sends)).length := by
    intro i
    have hall := hu.uids hs (AllMoves.rising hmoves hd.wrapped hd.uids) i
    have hstarts : starts i (Phase.start.after model cfg s).hist.sends =
        (Phase.start.after model cfg s).hist.sends.filter (·.Mine i) := by
      refine List.filter_congr fun r hr => ?_
      simp [h.starts_all r hr]
    rw [← hu.outstanding_eq, (haccounts i).sends, (hsince i).starts, hstarts, List.map_append, List.length_append,
      ← List.range'_append_1] at hall
    exact (List.append_inj hall (by simp)).2
  let comes (i : LPId) : List Outcome := (own i).map (·.outcome cfg)
  have hcomes : ∀ i, ∀ e ∈ comes i, (outcomes model cfg).At i e := by
    intro i e he
    obtain ⟨turn, hturn, rfl⟩ := List.mem_map.mp he
    exact (Event.seen_dst _).trans (hplace i turn hturn)
  have hnone : ∀ i, i ∉ t.lpIds → comes i = [] := by
    intro i hi
    have hfresh : (t.ctx i).kept = [] := hs.books.kept_of_fresh hi
    exact List.map_eq_nil_iff.mpr (List.map_eq_nil_iff.mp ((haccounts i).records.trans hfresh))
  have hsorted : ∀ i, (comes i).Pairwise (outcomes model cfg).NotAfter := by
    intro i
    have hkept : ((own i).map (·.record)).Pairwise fun a b => a.ev.ts ≤ b.ev.ts := by
      rw [(haccounts i).records]
      exact AllMoves.kept_sorted hmoves ht i
    refine List.pairwise_map.mpr ((List.pairwise_map.mp hkept).imp fun {a b} hle => ?_)
    change (a.record.ev.seen cfg).ts ≤ (b.record.ev.seen cfg).ts
    rwa [Event.seen_ts, Event.seen_ts]
  refine ⟨own, (outcomes model cfg).merged t.lpIds comes, fun i => (haccounts i).records,
    EventSystem.filter_merged hids hcomes hnone hsorted, ?_, fun i => ((t.ctx i).lp, (opening model cfg s i).2 +
    ((own i).flatMap (·.sends)).length), EventSystem.complete_merged hids hcomes hnone hsorted ?_ ?_ ?_⟩
  · rw [List.map_flatMap]
    exact EventSystem.merged_perm
  · intro i
    have htrail := (haccounts i).handles (hfiled i)
    rw [hpositive] at htrail
    exact trail_outcomes hlets hcolor htrail (hseen i) (huids i)
  · intro i e he ev hev
    obtain ⟨turn, hturn, rfl⟩ := List.mem_map.mp he
    obtain ⟨r, hr, rfl⟩ := List.mem_map.mp hev
    change (turn.record.ev.seen cfg).ts < (r.ev.seen cfg).ts
    rw [Event.seen_ts, Event.seen_ts]
    exact (haccounts i).later hs hd hturn hr
  · have hbalance := congrArg (Multiset.map (Event.seen cfg)) (h.underWay.balanced hoff ht hd hq haccounts)
    simp only [hpositive] at hbalance
    have hsends : ((t.lpIds.flatMap own).flatMap (sequential model).sends).map (·.seen cfg) =
        (t.lpIds.flatMap own).flatMap fun turn => (turn.outcome cfg).sends := by
      rw [List.map_flatMap]
      exact List.flatMap_congr fun turn _ => List.map_map
    rw [Multiset.map_add, Multiset.map_coe, Multiset.map_coe, Multiset.map_coe, List.map_map, hsends] at hbalance
    have hall : t.lpIds.flatMap comes = (t.lpIds.flatMap own).map (·.outcome cfg) := (List.map_flatMap ..).symm
    rw [hall, List.map_map, List.flatMap_map]
    exact hbalance

end

end WarpSim

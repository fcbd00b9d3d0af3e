import WarpSim.Verification.Sequential.Turns
import WarpSim.Verification.UnderWay

/-! # The order of execution

The queue serves events in the order of time, source and uid. An LP goes back for an event of the past, but not for
one that ties with the event it has executed last. So its executions are in order as long as no tie comes the wrong way
round. -/

namespace WarpSim

variable {Q : EventQueue} {σ : Type} {model : Model σ} {cfg : SimulationConfig}

open Prog Simulation

/-! ## Events from outside -/

/-- All events come from outside, positive and each with a key of its own, and none is sent. -/
structure Outside (hist : History) : Prop where
  sends : hist.sends = []
  positive : ∀ d ∈ hist.delivered, d.ev.isAnti = false
  apart : ∀ d ∈ hist.delivered, ∀ d' ∈ hist.delivered, d.ev.uidKey = d'.ev.uidKey → d.ev = d'.ev

theorem Outside.mono {h h' : History} (hle : h.Extends h') (ho : Outside h') : Outside h where
  sends := List.prefix_nil.mp (ho.sends ▸ hle.sends)
  positive d hd := ho.positive d (hle.delivered.subset hd)
  apart d hd d' hd' := ho.apart d (hle.delivered.subset hd) d' (hle.delivered.subset hd')

theorem Outside.entered_eq {s : Simulation Q σ} (ho : Outside s.hist) : s.entered cfg = s.hist.delivered.map (·.ev) := by
  simp [Simulation.entered, ho.sends]

theorem Outside.entered_positive {s : Simulation Q σ} (ho : Outside s.hist) :
    ∀ ev ∈ s.entered cfg, ev.isAnti = false := by
  rw [ho.entered_eq]
  intro ev hev
  obtain ⟨d, hd, rfl⟩ := List.mem_map.mp hev
  exact ho.positive d hd

/-- With no anti-message at all, each event is as good as one with its own. -/
theorem Outside.cancelling {x : Situation Q σ} (ho : Outside x.state.hist)
    (hpresent : ∀ ev, x.present ev = (x.state.entered cfg).count ev) {ev : Event} (hev : ev ∈ x.state.entered cfg) :
    Cancelling cfg ev.uidKey ev.dst ev.ts x.state := by
  have hpositive : ∀ e ∈ x.state.entered cfg, e.annuls ev.uidKey = false := by
    intro e he
    simp [Event.annuls, ho.entered_positive e he]
  refine ⟨fun e he hkey => ?_, ?_, fun e he => hpositive e (entered_of_lost hpresent he)⟩
  · rw [ho.entered_eq] at he hev
    obtain ⟨d, hd, rfl⟩ := List.mem_map.mp he
    obtain ⟨d', hd', rfl⟩ := List.mem_map.mp hev
    rw [ho.apart d hd d' hd' hkey]
    exact ⟨rfl, rfl⟩
  · rw [List.filter_eq_nil_iff.mpr fun e he => by simp [hpositive e he]]
    exact Nat.zero_le _

/-- Nothing is dropped as cancelled. -/
theorem AllMoves.none_dropped {y : Situation Q σ}
    (h : AllMoves True False model cfg (Simulation.create Q model).atRest y) (ht : Covered y.state.hist)
    (ho : Outside y.state.hist) : y.state.hist.dropped = [] := by
  induction h with
  | refl => rfl
  | @tail x y hxs hm ih =>
      have hle : x.state.hist.Extends y.state.hist := hm.elim (fun hm => hm.extends) fun hm => hm.extends
      have hnone := ih (ht.mono hle) (ho.mono hle)
      rcases hm with hm | hm
      · rcases hm.dropped_eq with heq | ⟨hidle, evs, heq, hevs⟩
        · rw [heq, hnone]
        · rw [heq, hnone, List.nil_append, List.eq_nil_iff_forall_not_mem]
          intro ev hev
          obtain ⟨hpending, htomb⟩ := hevs ev hev
          have hpresent := AllMoves.present_eq hxs
          have ho' : Outside x.state.hist := ho.mono hle
          have hpositive : ∀ e ∈ x.state.entered cfg, e.isAnti = false := ho'.entered_positive
          have hmem : ev ∈ x.state.entered cfg := entered_of_pending hpresent hpending
          have hcancelling := ho'.cancelling hpresent hmem
          -- a tombstone would be from an anti-message
          obtain ⟨-, hinv, -⟩ := hcancelling.run hxs (ht.mono hle)
          obtain ⟨rec, hrec, hannuls⟩ := hinv.source (Option.isSome_iff_ne_none.mp htomb)
          simp only [hidle, Activity.undoing, List.append_nil] at hrec
          have hanti := hpositive rec.ev (entered_of_kept hpresent (AllMoves.booksInv hxs booksInv_create) hrec)
          simp [ProcessedRecord.annuls, hanti] at hannuls
      · rw [← hnone]
        cases hm <;> rfl

/-! ## In order -/

/-- The event does not come behind a tie that has been executed. -/
def Dispatch.InOrder (d : Dispatch) : Prop :=
  ∀ last ∈ d.last, last.ts = d.ev.ts → last.sortKey < d.ev.sortKey

instance : DecidablePred Dispatch.InOrder := fun d =>
  inferInstanceAs (Decidable (∀ last ∈ d.last, last.ts = d.ev.ts → last.sortKey < d.ev.sortKey))

/-- An LP has its records in the order of time, source and uid. -/
def LPContext.InOrder (c : LPContext σ) : Prop := (c.kept.map (·.ev)).Pairwise fun a b => a.sortKey < b.sortKey

theorem LPContext.InOrder.shorten {c c' : LPContext σ} (h : c.InOrder) (hkept : c'.kept <+: c.kept) : c'.InOrder :=
  h.sublist (hkept.sublist.map _)

/-- What is executed goes behind the records in place. -/
theorem LPContext.InOrder.push {c c' : LPContext σ} {rec : ProcessedRecord} {gvt : TimeStamp} (h : c.InOrder)
    (hcontext : ContextInv c) (hvt : c.vt ≤ rec.ev.ts) (hgvt : gvt ≤ rec.ev.ts)
    (hfossils : ∀ r ∈ c.fossils, r.ev.ts < gvt)
    (htie : ∀ last, c.processed.getLast?.map (·.ev) = some last → last.ts = rec.ev.ts → last.sortKey < rec.ev.sortKey)
    (hkept : c'.kept = c.kept ++ [rec]) : c'.InOrder := by
  unfold LPContext.InOrder at h ⊢
  rw [hkept, List.map_append, List.pairwise_append]
  refine ⟨h, by simp, fun a ha b hb => ?_⟩
  obtain ⟨r, hr, rfl⟩ := List.mem_map.mp ha
  rw [List.map_singleton, List.mem_singleton] at hb
  subst hb
  rcases List.mem_append.mp hr with hr | hr
  · exact Event.sortKey_lt_iff.mpr (Or.inl ((hfossils r hr).trans_le hgvt))
  · have hle : r.ev.ts ≤ rec.ev.ts := (hcontext.behind r hr).trans hvt
    rcases hle.lt_or_eq with hlt | heq
    · exact Event.sortKey_lt_iff.mpr (Or.inl hlt)
    · -- the last record ties, too
      have hne : c.processed ≠ [] := List.ne_nil_of_mem hr
      have hlast := htie (c.processed.getLast hne).ev (by rw [List.getLast?_eq_some_getLast hne]; rfl)
      have hmem : c.processed.getLast hne ∈ c.processed := List.getLast_mem hne
      have hsplit : r ∈ c.processed.dropLast ∨ r = c.processed.getLast hne := by
        have hr' := hr
        rw [← List.dropLast_append_getLast hne] at hr'
        simpa using hr'
      have hsorted := hcontext.sorted
      rw [← List.dropLast_append_getLast hne, List.pairwise_append] at hsorted
      have hprocessed : (c.processed.map (·.ev)).Pairwise fun a b => a.sortKey < b.sortKey :=
        h.sublist ((List.sublist_append_right ..).map _)
      rw [← List.dropLast_append_getLast hne, List.map_append, List.pairwise_append] at hprocessed
      rcases hsplit with hr' | rfl
      · have hle' : r.ev.ts ≤ (c.processed.getLast hne).ev.ts := hsorted.2.2 r hr' _ (List.mem_singleton_self _)
        have hts : (c.processed.getLast hne).ev.ts = rec.ev.ts :=
          le_antisymm ((hcontext.behind _ hmem).trans hvt) (heq ▸ hle')
        exact (hprocessed.2.2 _ (List.mem_map_of_mem hr') _ (by simp)).trans (hlast hts)
      · exact hlast heq

theorem LPContext.InOrder.rewind {c : LPContext σ} (h : c.InOrder) (lp : LogicalProcess σ) (target : TimeStamp) :
    (c.rewind lp target).InOrder := by
  refine h.shorten ⟨undoneRecords target c.processed, ?_⟩
  rw [rewind_kept]
  exact (c.kept_split target).symm

theorem dispatched_after {s : Simulation Q σ} {ev : Event} (htop : Q.top? (popScan s).pending = some ev) :
    (Phase.dispatch.after model cfg s).hist.dispatched = s.hist.dispatched ++ [dispatchOf ev s] := by
  have hafter : Phase.dispatch.after model cfg s = (exec (dispatchNext model cfg) s).2 := exec_bind_pure_state ..
  rw [hafter]
  rcases (dispatched_dispatchNext model cfg s).2 with ⟨hnone, -⟩ | ⟨ev', htop', hone⟩
  · exact absurd (htop.symm.trans hnone) (by simp)
  · obtain rfl : ev' = ev := Option.some.inj (htop'.symm.trans htop)
    exact hone

/-- A handler that sends nothing leaves a record of its event. -/
theorem runHandler_ev {id : LPId} {handler : Handler σ} {blank rec : ProcessedRecord} {s t : Simulation Q σ}
    (hid : id ∈ s.lpIds) (hrun : exec (runHandler model cfg id handler blank) s = (.ok rec, t))
    (hsends : t.hist.sends = []) : rec.ev = blank.ev := by
  obtain ⟨more, hmore, -, hcalls⟩ := runHandler_conducted model cfg id handler blank hid
  rw [hrun] at hmore hcalls
  have hnone : more = [] := (List.append_eq_nil_iff.mp (hmore.symm.trans hsends)).2
  obtain ⟨calls, hcalls, -⟩ := hcalls (by simp [hnone]) rec rfl
  exact hcalls.filled.ev

/-- The dispatch of an event that does not come behind a tie keeps the LPs in order. -/
theorem DispatchStep.inOrder {ev : Event} {s t : Simulation Q σ} (hstep : DispatchStep model cfg ev s t)
    (hbooks : BooksInv s.atRest) (hpositive : ev.isAnti = false) (hgvt : s.lastGvt ≤ ev.ts)
    (hfossils : ∀ i, ∀ rec ∈ (s.ctx i).fossils, rec.ev.ts < s.lastGvt) (htie : (dispatchOf ev s).InOrder)
    (hsends : t.hist.sends = []) (h : ∀ i, (s.ctx i).InOrder) (i : LPId) : (t.ctx i).InOrder := by
  cases hstep with
  | nothing hsame => exact hsame.ctx ▸ h i
  | straggler u v more _ _ hu hback hv =>
      rw [hv.ctx]
      by_cases hi : i = ev.dst
      · subst hi
        have hrewound := (h ev.dst).rewind (model ev.dst) ev.ts
        refine hrewound.shorten ?_
        rw [hback.work.books.kept, hu.ctx]
      · rw [hback.others i hi, hu.ctx]
        exact h i
  | annulled _ _ _ hanti => exact absurd (hpositive.symm.trans hanti) (by simp)
  | executed u w rec _ hdst hvt hu hrun hw =>
      have hsame := runHandler_same model cfg ev.dst ((model ev.dst).onEvent (u.ctx ev.dst).lp ev)
        (newRecord ev (u.ctx ev.dst)) (entered ev u)
      have hids : ev.dst ∈ (entered ev u).lpIds := hu.lpIds ▸ hdst
      have hev : rec.ev = ev := by
        refine runHandler_ev hids hrun ?_
        rw [← hsends, hw.sends]
        rfl
      rw [hrun] at hsame
      rw [hw.ctx, pushProcessed]
      by_cases hi : i = ev.dst
      · subst hi
        have hself := hsame.self
        rw [entered_self, hu.ctx] at hself
        have hkept : (w.ctx ev.dst).kept = (s.ctx ev.dst).kept := hself.books.kept
        rw [modifyCtx_self, left_self]
        have hbehind : (s.ctx ev.dst).vt ≤ rec.ev.ts := by
          rw [hev]
          exact not_lt.mp hvt
        have hlast : ∀ last, (s.ctx ev.dst).processed.getLast?.map (·.ev) = some last → last.ts = rec.ev.ts →
            last.sortKey < rec.ev.sortKey := by
          rw [hev]
          exact htie
        refine (h ev.dst).push (hbooks.context ev.dst) hbehind (hev.symm ▸ hgvt) (hfossils ev.dst) hlast ?_
        rw [← hkept]
        simp [LPContext.kept]
      · have hother := hsame.others i hi
        rw [modifyCtx_of_ne _ _ hi, left_of_ne w hi]
        rw [entered_of_ne u hi, hu.ctx] at hother
        exact (h i).shorten (by rw [hother.books.kept])
  | thrown u w what vt execTs _ _ _ hu hrun hw =>
      have hsame := runHandler_same model cfg ev.dst ((model ev.dst).onEvent (u.ctx ev.dst).lp ev)
        (newRecord ev (u.ctx ev.dst)) (entered ev u)
      rw [hrun] at hsame
      rw [hw.ctx]
      by_cases hi : i = ev.dst
      · subst hi
        have hself := hsame.self
        rw [entered_self, hu.ctx] at hself
        have hkept : (w.ctx ev.dst).kept = (s.ctx ev.dst).kept := hself.books.kept
        rw [modifyCtx_self, left_self]
        exact (h ev.dst).shorten (hkept ▸ List.prefix_refl _)
      · have hother := hsame.others i hi
        rw [modifyCtx_of_ne _ _ hi, left_of_ne w hi]
        rw [entered_of_ne u hi, hu.ctx] at hother
        exact (h i).shorten (by rw [hother.books.kept])

/-- While a run is under way, the LPs are in order. -/
theorem UnderWay.inOrder {s : Simulation Q σ} (h : UnderWay model cfg (Simulation.create Q model) s)
    (ht : Covered s.hist) (ho : Outside s.hist) (hin : ∀ d ∈ s.hist.dispatched, d.InOrder) (i : LPId) :
    (s.ctx i).InOrder := by
  induction h generalizing i with
  | refl => simp [LPContext.InOrder, LPContext.kept, Simulation.create]
  | @step t p hrun hready hproper ih =>
      have hmoves := UnderWay.moves hrun baseInv_create
      have hbase := AllMoves.baseInv hmoves baseInv_create
      have hbooks := AllMoves.booksInv hmoves booksInv_create
      have hle : t.hist.Extends (p.after model cfg t).hist :=
        AllMoves.extends (Phase.proper_moves model cfg hbase hready hproper)
      have ht' := ht.mono hle
      have ih' := ih ht' (ho.mono hle) fun d hd => hin d (hle.dispatched.subset hd)
      by_cases hne : p = .dispatch
      · subst hne
        have hbound : BoundInv t.atRest := AllMoves.boundInv hmoves booksInv_create boundInv_create ht'
        have hlog : Loggable cfg t := (AllMoves.sentLogInv hmoves booksInv_create sentLogInv_create).loggable
        rcases dispatch_step model hlog with hsame | ⟨ev, htop, hstep⟩
        · exact hsame.ctx ▸ ih' i
        · have hpending : ev ∈ Q.elems t.pending := mem_discardPending (mem_of_top? htop)
          have hentered : ev ∈ t.entered cfg := entered_of_pending (AllMoves.present_eq hmoves) hpending
          refine hstep.inOrder hbooks ((ho.mono hle).entered_positive ev hentered) (hbound.held ev (.pending hpending))
            (hbound.committed (AllMoves.finished_eq hmoves)) (hin _ ?_) ho.sends ih' i
          rw [dispatched_after htop]
          exact List.mem_append_right _ (List.mem_singleton_self _)
      · have hframe : RestFrame (t.ctx i) ((p.after model cfg t).ctx i) :=
          Phase.after_restFrame hne hbooks hbase hready i
        exact (ih' i).shorten (by rw [hframe.kept])

/-! ## Final sequences -/

/-- A run with a proper end, in which all events come from outside, none for a time that is over, and none is dispatched
behind a tie. -/
structure OrderedRun (model : Model σ) (cfg : SimulationConfig) (s : Simulation Q σ) : Prop where
  reached : ∃ allowed, Reachable model cfg allowed s ∧ Leaves allowed ∧ ∀ s op, allowed s op → op.SoundReduction cfg
  covered : Covered s.hist
  outside : Outside s.hist
  inOrder : ∀ d ∈ s.hist.dispatched, d.InOrder

/-- Nothing waits, and nothing has been lost with an exception. -/
structure Settled (s : Simulation Q σ) : Prop where
  pending : Q.elems s.pending = 0
  deferred : s.deferred = []
  lost : s.hist.lost = []

/-- Up to its end the run was under way, and the end leaves the records in place. -/
theorem OrderedRun.under_way {s : Simulation Q σ} (h : OrderedRun model cfg s) :
    ∃ t, UnderWay model cfg (Simulation.create Q model) t ∧ t.hist.Extends s.hist ∧ s.hist.dropped = t.hist.dropped ∧
      ∀ i, (s.ctx i).kept = (t.ctx i).kept := by
  obtain ⟨allowed, hreach, hleaves, hsound⟩ := h.reached
  obtain ⟨t, hrun, -, rfl | ⟨-, env, rfl⟩⟩ := hreach.ending hleaves hsound
  · exact ⟨s, hrun, .refl _, rfl, fun _ => rfl⟩
  · have hmig : Migrated (flushed cfg t) ((Phase.finalize env).after model cfg t) := finalizeAtEnd_migrated model cfg env t
    refine ⟨t, hrun, ?_, ?_, fun i => ?_⟩
    · exact AllMoves.extends (Phase.after_moves model cfg hrun.baseInv (show Phase.Ready t (.finalize env) from trivial)).1
    · rw [hmig.rest]
      rfl
    · rw [hmig.ctx]
      exact prune_proj cfg (·.kept) kept_prune maxStamp t i

theorem OrderedRun.inOrder_kept {s : Simulation Q σ} (h : OrderedRun model cfg s) (i : LPId) : (s.ctx i).InOrder := by
  obtain ⟨t, hrun, hle, -, hkept⟩ := h.under_way
  have hin := hrun.inOrder (h.covered.mono hle) (h.outside.mono hle) (fun d hd => h.inOrder d (hle.dispatched.subset hd)) i
  exact hin.shorten (by rw [hkept])

/-- In the end the records in place of an LP are for what has been delivered to it. -/
theorem OrderedRun.count_kept {s : Simulation Q σ} (h : OrderedRun model cfg s) (hs : Settled s) (i : LPId) (ev : Event) :
    ((s.ctx i).kept.map (·.ev)).count ev = if ev.dst = i then (s.hist.delivered.map (·.ev)).count ev else 0 := by
  obtain ⟨allowed, hreach, -⟩ := h.reached
  obtain ⟨t, hrun, hle, hdropped, -⟩ := h.under_way
  split
  · next hdst =>
    subst hdst
    have hmoves : AllMoves False True model cfg (Simulation.create Q model).atRest s.atRest :=
      hreach.moves fun hfalse => hfalse.elim
    have hpresent := hmoves.present_eq ev
    have hnone : s.hist.dropped = [] := by
      rw [hdropped]
      exact (hrun.moves baseInv_create).none_dropped (h.covered.mono hle) (h.outside.mono hle)
    unfold Situation.present Simulation.present at hpresent
    dsimp only [Simulation.atRest] at hpresent
    rw [hs.pending, hs.deferred, hnone, hs.lost, h.outside.entered_eq] at hpresent
    simpa [Activity.hand] using hpresent
  · next hdst =>
    rw [List.count_eq_zero]
    intro hmem
    obtain ⟨rec, hrec, rfl⟩ := List.mem_map.mp hmem
    have hledger := hreach.booksInv.ledger i
    exact hdst (hledger.filed rec (hledger.kept_sub hrec))

/-- As long as no event is dispatched behind a tie, each LP has its executions in the order of time, source and uid,
whatever the order in which the events have come. So once nothing waits, they are the same for every such order. -/
theorem executes_in_order {s : Simulation Q σ} (h : OrderedRun model cfg s) :
    (∀ i, ((s.ctx i).kept.map (·.ev)).Pairwise fun a b =>
      a.ts < b.ts ∨ a.ts = b.ts ∧ (a.src < b.src ∨ a.src = b.src ∧ a.uid < b.uid)) ∧
    ∀ s' : Simulation Q σ, OrderedRun model cfg s' → (s'.hist.delivered.map (·.ev)).Perm (s.hist.delivered.map (·.ev)) →
      Settled s → Settled s' → ∀ i, (s'.ctx i).kept.map (·.ev) = (s.ctx i).kept.map (·.ev) := by
  refine ⟨fun i => (h.inOrder_kept i).imp Event.sortKey_lt_iff.mp, fun s' h' hsame hs hs' i => ?_⟩
  have hperm : ((s'.ctx i).kept.map (·.ev)).Perm ((s.ctx i).kept.map (·.ev)) := by
    refine List.perm_iff_count.mpr fun ev => ?_
    rw [h'.count_kept hs', h.count_kept hs, hsame.count_eq]
  exact hperm.eq_of_pairwise (fun a b _ _ hab hba => absurd hab (lt_asymm hba)) (h'.inOrder_kept i) (h.inOrder_kept i)

def tied (time : UInt64) (src : LPId) (uid : EventUid) : Event :=
  { ts := ⟨time, 1⟩, src := src, dst := 1, uid := uid, payload := { kind := 3 } }

/-- The LP 2 has nothing to do, so that GVT stays where it is. -/
def tiedRun (ops : List HostOp) : Simulation sortedEventQueue ByteBuffer :=
  hostRun (fun _ => journal) {} ([.addLp 1, .addLp 2] ++ ops) (Simulation.create _ fun _ => journal)

/-- Two events tie. -/
def inTurn : Simulation sortedEventQueue ByteBuffer :=
  tiedRun [.schedule (tied 10 4 1), .runOne {} true, .schedule (tied 10 5 1), .schedule (tied 20 4 2), .runOne {} true,
    .runOne {} true]

/-- The same events come the other way round. -/
def outOfTurn : Simulation sortedEventQueue ByteBuffer :=
  tiedRun [.schedule (tied 20 4 2), .runOne {} true, .schedule (tied 10 5 1), .schedule (tied 10 4 1), .runOne {} true,
    .runOne {} true, .runOne {} true, .runOne {} true]

theorem orderedRun_inTurn : OrderedRun (fun _ => journal) {} inTurn := by
  have hreach : Reachable (fun _ => journal) {} (fun s _ => s.finished = false) inTurn :=
    Reachable.hostRun .create (by decide +kernel)
  exact ⟨⟨_, hreach, fun _ _ h => h, fun _ op _ => HostOp.soundReduction_of_alone rfl rfl op⟩,
    (hreach.noDeferral rfl).covered ⟨by decide +kernel, by decide +kernel⟩,
    ⟨by decide +kernel, by decide +kernel, by decide +kernel⟩, by decide +kernel⟩

theorem orderedRun_outOfTurn : OrderedRun (fun _ => journal) {} outOfTurn := by
  have hreach : Reachable (fun _ => journal) {} (fun s _ => s.finished = false) outOfTurn :=
    Reachable.hostRun .create (by decide +kernel)
  exact ⟨⟨_, hreach, fun _ _ h => h, fun _ op _ => HostOp.soundReduction_of_alone rfl rfl op⟩,
    (hreach.noDeferral rfl).covered ⟨by decide +kernel, by decide +kernel⟩,
    ⟨by decide +kernel, by decide +kernel, by decide +kernel⟩, by decide +kernel⟩

/-- In the second run the event at 20 is executed twice. -/
theorem executes_in_order_tied :
    (inTurn.ctx 1).undone.length = 0 ∧ (outOfTurn.ctx 1).undone.length = 1 ∧
      (inTurn.ctx 1).kept.map (·.ev) = [tied 10 4 1, tied 10 5 1, tied 20 4 2] ∧
      ∀ i, (outOfTurn.ctx i).kept.map (·.ev) = (inTurn.ctx i).kept.map (·.ev) := by
  obtain ⟨-, hsame⟩ := executes_in_order orderedRun_inTurn
  refine ⟨by decide +kernel, by decide +kernel, by decide +kernel, ?_⟩
  exact hsame outOfTurn orderedRun_outOfTurn (by decide +kernel) ⟨by decide +kernel, by decide +kernel, by decide +kernel⟩
    ⟨by decide +kernel, by decide +kernel, by decide +kernel⟩

/-- Two events tie, and the one that sorts first comes when the other one has been executed. It is executed behind it,
and in the opposite order of arrival before it. -/
theorem executes_out_of_order :
    let late := tiedRun [.schedule (tied 10 5 1), .runOne {} true, .schedule (tied 10 4 1), .runOne {} true]
    let early := tiedRun [.schedule (tied 10 4 1), .runOne {} true, .schedule (tied 10 5 1), .runOne {} true]
    (Outside late.hist ∧ Timely late.hist ∧ Settled late) ∧ (Outside early.hist ∧ Timely early.hist ∧ Settled early) ∧
      (late.hist.delivered.map (·.ev)).Perm (early.hist.delivered.map (·.ev)) ∧
      (late.ctx 1).kept.map (·.ev) = [tied 10 5 1, tied 10 4 1] ∧
      (early.ctx 1).kept.map (·.ev) = [tied 10 4 1, tied 10 5 1] ∧ (tied 10 4 1).sortKey < (tied 10 5 1).sortKey := by
  refine ⟨⟨?_, ?_, ?_⟩, ⟨?_, ?_, ?_⟩, by decide +kernel, by decide +kernel, by decide +kernel, by decide +kernel⟩
  · exact ⟨by decide +kernel, by decide +kernel, by decide +kernel⟩
  · exact ⟨by decide +kernel, by decide +kernel⟩
  · exact ⟨by decide +kernel, by decide +kernel, by decide +kernel⟩
  · exact ⟨by decide +kernel, by decide +kernel, by decide +kernel⟩
  · exact ⟨by decide +kernel, by decide +kernel⟩
  · exact ⟨by decide +kernel, by decide +kernel, by decide +kernel⟩

end WarpSim

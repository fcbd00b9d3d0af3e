import WarpSim.Verification.Deferral.Table
import WarpSim.Verification.Phases
import WarpSim.Verification.Bounds

/-! # No event is lost or doubled

Every event that a kernel takes in is in one place: in the queue, in the hands of the dispatcher, among the
records of its destination, in the deferral table, or noted as dropped or lost. -/

namespace WarpSim

variable {Q : EventQueue} {σ : Type} {sound final : Prop} {model : Model σ} {cfg : SimulationConfig}

open Simulation Buckets

/-! ## Places -/

/-- The events that have come in: those that were delivered, and those that were sent to the own rank. -/
def Simulation.entered (cfg : SimulationConfig) (s : Simulation Q σ) : List Event :=
  s.hist.delivered.map (·.ev) ++ (s.hist.sends.filter (·.rank = cfg.rank)).map (·.ev)

/-- How often the event is in one of its places. -/
def Simulation.present (ev : Event) (s : Simulation Q σ) : ℕ :=
  (Q.elems s.pending).count ev + ((s.ctx ev.dst).kept.map (·.ev)).count ev + s.deferred.count ev +
    s.hist.dropped.count ev + s.hist.lost.count ev

/-- The same with the event in the hands of the dispatcher. -/
def Situation.present (ev : Event) (x : Situation Q σ) : ℕ :=
  x.state.present ev + x.activity.hand.toList.count ev

/-- What comes in by the move finds its place. -/
def Conserves (cfg : SimulationConfig) (ev : Event) (x y : Situation Q σ) : Prop :=
  y.present ev + (x.state.entered cfg).count ev = x.present ev + (y.state.entered cfg).count ev

/-! ## Moves -/

/-- A move that brings nothing in and keeps the records. -/
theorem Conserves.of_places {ev : Event} {x y : Situation Q σ}
    (hkept : (y.state.ctx ev.dst).kept = (x.state.ctx ev.dst).kept)
    (hentered : y.state.entered cfg = x.state.entered cfg)
    (hplaces : (Q.elems y.state.pending).count ev + y.state.deferred.count ev + y.state.hist.dropped.count ev +
      y.state.hist.lost.count ev + y.activity.hand.toList.count ev =
        (Q.elems x.state.pending).count ev + x.state.deferred.count ev + x.state.hist.dropped.count ev +
          x.state.hist.lost.count ev + x.activity.hand.toList.count ev) : Conserves cfg ev x y := by
  unfold Conserves Situation.present Simulation.present
  rw [hkept, hentered]
  omega

/-- A move that changes nothing but, maybe, the queue and the hands. -/
theorem Conserves.of_queue {ev : Event} {x y : Situation Q σ}
    (hkept : (y.state.ctx ev.dst).kept = (x.state.ctx ev.dst).kept)
    (hdeferred : y.state.deferred = x.state.deferred) (hhist : y.state.hist.dropped = x.state.hist.dropped ∧
      y.state.hist.lost = x.state.hist.lost ∧ y.state.entered cfg = x.state.entered cfg)
    (hqueue : (Q.elems y.state.pending).count ev + y.activity.hand.toList.count ev =
      (Q.elems x.state.pending).count ev + x.activity.hand.toList.count ev) : Conserves cfg ev x y := by
  obtain ⟨hdropped, hlost, hentered⟩ := hhist
  refine .of_places hkept hentered ?_
  rw [hdeferred, hdropped, hlost]
  omega

/-- A move that brings an event in. -/
theorem Conserves.of_entry {ev : Event} (e : Event) {x y : Situation Q σ}
    (hkept : (y.state.ctx ev.dst).kept = (x.state.ctx ev.dst).kept)
    (hdeferred : y.state.deferred = x.state.deferred) (hhist : y.state.hist.dropped = x.state.hist.dropped ∧
      y.state.hist.lost = x.state.hist.lost) (hhand : y.activity.hand = x.activity.hand)
    (hpending : Q.elems y.state.pending = e ::ₘ Q.elems x.state.pending)
    (hentered : (y.state.entered cfg).Perm (e :: x.state.entered cfg)) : Conserves cfg ev x y := by
  obtain ⟨hdropped, hlost⟩ := hhist
  have hcons : (e :: x.state.entered cfg).count ev = (x.state.entered cfg).count ev + if ev = e then 1 else 0 := by
    rw [← Multiset.coe_count, ← Multiset.cons_coe, Multiset.count_cons, Multiset.coe_count]
  unfold Conserves Situation.present Simulation.present
  rw [hkept, hdeferred, hdropped, hlost, hhand, hpending, hentered.count_eq, Multiset.count_cons, hcons]
  omega

theorem entered_delivered {s t : Simulation Q σ} (d : Delivery) (hdelivered : t.hist.delivered = s.hist.delivered ++ [d])
    (hsends : t.hist.sends = s.hist.sends) : (t.entered cfg).Perm (d.ev :: s.entered cfg) := by
  unfold Simulation.entered
  rw [hdelivered, hsends, List.map_append, List.append_assoc]
  exact List.perm_middle

theorem entered_sent {s t : Simulation Q σ} {r : SendRecord} (hsends : t.hist.sends = s.hist.sends ++ [r])
    (hdelivered : t.hist.delivered = s.hist.delivered) :
    if r.rank = cfg.rank then (t.entered cfg).Perm (r.ev :: s.entered cfg) else t.entered cfg = s.entered cfg := by
  unfold Simulation.entered
  rw [hdelivered, hsends, List.filter_append]
  split
  · next hrank =>
    rw [List.filter_cons_of_pos (by simpa using hrank), List.filter_nil, List.map_append, ← List.append_assoc]
    exact List.perm_append_singleton _ _
  · next hrank => rw [List.filter_cons_of_neg (by simpa using hrank), List.filter_nil, List.append_nil]

/-- A posted event goes into the queue of its own rank. -/
theorem Conserves.of_posted {ev : Event} {x y : Situation Q σ} (cause : SendCause) (asked : Event) {sent : Event}
    (s' : Simulation Q σ) (hhand : y.activity.hand = x.activity.hand)
    (hpending : y.state.pending = (posted cause cfg asked sent s').pending) (hbefore : s'.pending = x.state.pending)
    (hwork : SameWork (x.state.ctx ev.dst) (y.state.ctx ev.dst)) (hdeferred : y.state.deferred = x.state.deferred)
    (hhist : y.state.hist.dropped = x.state.hist.dropped ∧ y.state.hist.lost = x.state.hist.lost)
    (hdelivered : y.state.hist.delivered = x.state.hist.delivered)
    (hsends : y.state.hist.sends =
      x.state.hist.sends ++ [sendRecord cause asked sent (cfg.rankOf sent.dst) s']) : Conserves cfg ev x y := by
  have hentered : if cfg.rankOf sent.dst = cfg.rank then (y.state.entered cfg).Perm (sent :: x.state.entered cfg)
      else y.state.entered cfg = x.state.entered cfg := entered_sent hsends hdelivered
  rw [posted_eq] at hpending
  dsimp only at hpending
  by_cases hlocal : cfg.rankOf sent.dst = cfg.rank
  · rw [if_pos hlocal] at hentered hpending
    refine .of_entry sent hwork.books.kept hdeferred hhist hhand ?_ hentered
    rw [hpending, ← hbefore]
    exact Q.elems_push ..
  · rw [if_neg hlocal] at hentered hpending
    refine .of_queue hwork.books.kept hdeferred ⟨hhist.1, hhist.2, hentered⟩ ?_
    rw [hhand, hpending, hbefore]

/-- A rollback moves events from the records of the LP to the queue. -/
theorem Conserves.of_unwound {ev : Event} {x y : Situation Q σ} {id : LPId} {target : TimeStamp}
    (hl : LedgerInv id (x.state.ctx id)) (hy : y.state = unwound model id target x.state)
    (hhand : y.activity.hand = x.activity.hand) : Conserves cfg ev x y := by
  have hentered : y.state.entered cfg = x.state.entered cfg := by
    rw [hy, unwound_eq]
    rfl
  have hpending : (Q.elems y.state.pending).count ev = (Q.elems x.state.pending).count ev +
      ((undoneRecords target (x.state.ctx id).processed).map (·.ev)).count ev := by
    rw [hy, unwound_eq]
    dsimp only
    rw [Q.elems_foldl_push, List.map_reverse, Multiset.coe_reverse, Multiset.count_add, Multiset.coe_count]
  have hkept : ((y.state.ctx ev.dst).kept.map (·.ev)).count ev +
      ((undoneRecords target (x.state.ctx id).processed).map (·.ev)).count ev =
        ((x.state.ctx ev.dst).kept.map (·.ev)).count ev := by
    rw [hy, unwound_ctx]
    by_cases hid : ev.dst = id
    · rw [hid, Function.update_self, LPContext.rewind_eq, LPContext.kept, LPContext.kept]
      conv_rhs => rw [← keptRecords_append_undoneRecords target (x.state.ctx id).processed]
      simp only [List.map_append, List.count_append]
      omega
    · rw [Function.update_of_ne hid]
      have hnone : ((undoneRecords target (x.state.ctx id).processed).map (·.ev)).count ev = 0 := by
        rw [List.count_eq_zero]
        intro hmem
        obtain ⟨rec, hrec, rfl⟩ := List.mem_map.mp hmem
        exact hid (hl.filed rec (hl.processed_sub ((List.rtakeWhile_suffix _ _).subset hrec)))
      rw [hnone, Nat.add_zero]
  have hrest : y.state.deferred = x.state.deferred ∧ y.state.hist.dropped = x.state.hist.dropped ∧
      y.state.hist.lost = x.state.hist.lost := by
    rw [hy, unwound_eq]
    exact ⟨rfl, rfl, rfl⟩
  unfold Conserves Situation.present Simulation.present
  rw [hentered, hhand, hpending, hrest.1, hrest.2.1, hrest.2.2]
  omega

theorem count_one (ev e : Event) : [e].count ev = if e = ev then 1 else 0 := by simp [List.count_singleton]

/-- The event in the hands of the dispatcher goes where the move puts it. -/
theorem Conserves.of_hand {ev e : Event} {x y : Situation Q σ} (hhand : x.activity.hand = some e)
    (hempty : y.activity.hand = none) (hentered : y.state.entered cfg = x.state.entered cfg)
    (hpresent : y.state.present ev = x.state.present ev + if e = ev then 1 else 0) : Conserves cfg ev x y := by
  unfold Conserves Situation.present
  rw [hhand, hempty, hentered, hpresent, Option.toList_some, Option.toList_none, count_one]
  simp only [List.count_nil]
  omega

theorem count_snoc (ev e : Event) (l : List Event) : (l ++ [e]).count ev = l.count ev + if e = ev then 1 else 0 := by
  rw [List.count_append, count_one]

/-- A record is put in place at the destination of its event. -/
theorem present_push {ev : Event} {s : Simulation Q σ} {rec : ProcessedRecord} {f : LPContext σ → LPContext σ}
    (hf : ∀ c, (f c).kept = c.kept) :
    (pushProcessed rec.ev.dst rec (s.modifyCtx rec.ev.dst f)).present ev =
      s.present ev + if rec.ev = ev then 1 else 0 := by
  have hkept : (((pushProcessed rec.ev.dst rec (s.modifyCtx rec.ev.dst f)).ctx ev.dst).kept.map (·.ev)).count ev =
      ((s.ctx ev.dst).kept.map (·.ev)).count ev + if rec.ev = ev then 1 else 0 := by
    by_cases hdst : ev.dst = rec.ev.dst
    · rw [hdst, pushProcessed, modifyCtx_self, modifyCtx_self]
      have hpush : ({ f (s.ctx rec.ev.dst) with
          processed := (f (s.ctx rec.ev.dst)).processed ++ [rec]
          executed := (f (s.ctx rec.ev.dst)).executed ++ [rec] } : LPContext σ).kept =
            (s.ctx rec.ev.dst).kept ++ [rec] := by
        rw [← hf (s.ctx rec.ev.dst)]
        simp [LPContext.kept]
      rw [hpush, List.map_append, List.map_singleton, count_snoc]
    · rw [pushProcessed, modifyCtx_of_ne _ _ hdst, modifyCtx_of_ne _ _ hdst]
      rw [if_neg fun heq : rec.ev = ev => hdst (heq ▸ rfl), Nat.add_zero]
  unfold Simulation.present
  rw [hkept]
  change (Q.elems s.pending).count ev + _ + s.deferred.count ev + s.hist.dropped.count ev + s.hist.lost.count ev = _
  omega

theorem present_lose (ev e : Event) (s : Simulation Q σ) :
    (lose e s).present ev = s.present ev + if e = ev then 1 else 0 := by
  unfold Simulation.present
  change _ + _ + _ + _ + (s.hist.lost ++ [e]).count ev = _
  rw [count_snoc, ← Nat.add_assoc]
  rfl

theorem hand_of_unwinding {a : Activity σ} {ev : Event} (h : a.unwinding = some ev) : a.hand = some ev := by
  cases a <;> first | exact h | cases h

variable (cfg) in
theorem Move.conserves {x y : Situation Q σ} (hm : Move model cfg x y) (hb : BooksInv x)
    (hfiled : Filed Event.deferredKey x.state.deferredTargeted) (ev : Event) : Conserves cfg ev x y := by
  cases hm with
  | quiet hq =>
      rw [hq]
      exact .of_queue rfl rfl ⟨rfl, rfl, rfl⟩ rfl
  | @register s id hid =>
      refine .of_queue ?_ rfl ⟨rfl, rfl, rfl⟩ rfl
      dsimp only
      by_cases hi : ev.dst = id
      · rw [hi, Function.update_self, hb.kept_of_fresh hid]
        rfl
      · rw [Function.update_of_ne hi]
  | start => exact .of_queue rfl rfl ⟨rfl, rfl, rfl⟩ rfl
  | prepare => exact .of_queue (sameBooks_setLp ..).kept rfl ⟨rfl, rfl, rfl⟩ rfl
  | @schedule s e =>
      exact .of_entry e rfl rfl ⟨rfl, rfl⟩ rfl (Q.elems_push ..) (entered_delivered ⟨e, none, s.lastGvt⟩ rfl rfl)
  | @receive s srcRank e =>
      rw [receiveEvent_eq]
      exact .of_entry e rfl rfl ⟨rfl, rfl⟩ rfl (Q.elems_push ..)
        (entered_delivered ⟨e, some srcRank, s.lastGvt⟩ rfl rfl)
  | acknowledge =>
      rw [receiveAck_eq]
      exact .of_queue rfl rfl ⟨rfl, rfl, rfl⟩ rfl
  | queueMigration => exact .of_queue rfl rfl ⟨rfl, rfl, rfl⟩ rfl
  | migrate => exact .of_queue (sameBooks_setLp ..).kept rfl ⟨rfl, rfl, rfl⟩ rfl
  | misplace => exact .of_queue rfl rfl ⟨rfl, rfl, rfl⟩ rfl
  | @sent a s cause asked e u n k w =>
      refine .of_posted cause asked (renumber asked.src u n k w s) (hand_noteCall ..) rfl rfl (sameWork_sent ..)
        ?_ ⟨?_, ?_⟩ ?_ ?_
      all_goals rw [posted_eq]; rfl
  | @unlogged a s cause asked e u n k w =>
      refine .of_posted cause asked (renumber asked.src u n k w s) (hand_noteCall ..) rfl rfl ?_ ?_ ⟨?_, ?_⟩ ?_ ?_
      · rw [posted_ctx]
        exact sameWork_renumber ..
      all_goals rw [posted_eq]; rfl
  | @refused a s asked u n k w =>
      refine .of_queue (sameWork_renumber ..).books.kept rfl ⟨rfl, rfl, rfl⟩ ?_
      rw [hand_noteCall]
      rfl
  | @discard s skip =>
      have hsplit := congrArg (Multiset.count ev) (Q.elems_discardWhile skip (Q.size s.pending) s.pending)
      rw [Multiset.count_add, Multiset.coe_count] at hsplit
      refine .of_places rfl rfl ?_
      dsimp only [discardPending]
      rw [List.count_append, hsplit]
      change _ + s.deferred.count ev + _ + _ + _ = _
      omega
  | @pop s e _ htop =>
      refine .of_queue rfl rfl ⟨rfl, rfl, rfl⟩ ?_
      have hpop := congrArg (Multiset.count ev) (Q.elems_pop s.pending e htop)
      rw [Multiset.count_cons] at hpop
      change (Q.elems (Q.pop s.pending)).count ev + [e].count ev = (Q.elems s.pending).count ev + 0
      rw [count_one]
      by_cases he : e = ev
      · rw [if_pos he.symm] at hpop
        rw [if_pos he]
        exact hpop.symm
      · rw [if_neg (Ne.symm he)] at hpop
        rw [if_neg he]
        exact hpop.symm
  | straggle => exact .of_unwound (hb.ledger _) rfl rfl
  | @requeue s e =>
      have hpush : (Q.elems (Q.push s.pending e)).count ev =
          (Q.elems s.pending).count ev + if e = ev then 1 else 0 := by
        rw [Q.elems_push, Multiset.count_cons]
        simp only [eq_comm]
      refine .of_places rfl rfl ?_
      change (Q.elems (Q.push s.pending e)).count ev + s.deferred.count ev + s.hist.dropped.count ev +
        s.hist.lost.count ev + 0 = _ + [e].count ev
      rw [hpush, count_one]
      dsimp only
      omega
  | @enter s e =>
      refine .of_queue ?_ rfl ⟨rfl, rfl, rfl⟩ rfl
      exact modifyCtx_proj (·.kept) (f := LPContext.enter e) (fun _ => rfl) s e.dst ev.dst
  | store => exact .of_queue (sameBooks_setLp ..).kept rfl ⟨rfl, rfl, rfl⟩ rfl
  | @finish before e calls s rec hrun =>
      have hev : rec.ev = e := hrun.filled.ev
      subst hev
      exact .of_hand rfl rfl rfl (present_push fun _ => rfl)
  | @release s e =>
      have hsplit : (waiting e s).count ev +
          (elements (s.deferredTargeted.filter fun entry => entry.1 ≠ deferredKey e.dst e.target)).count ev =
            s.deferred.count ev := by
        rw [waiting, hfiled.lookup, hfiled.elements_erase, ← List.count_append]
        simp only [ne_eq, decide_not]
        exact (List.filter_append_perm (fun b : Event => b.deferredKey = deferredKey e.dst e.target) _).count_eq _
      refine .of_places ?_ ?_ ?_
      · rw [released_closed]
      · rw [released_closed]
        rfl
      · rw [released_closed]
        change (Q.elems (List.foldl _ _ _)).count ev + (elements (List.filter _ _)).count ev + _ + _ + _ = _
        rw [Q.elems_foldl_push, Multiset.count_add, Multiset.coe_count, (List.perm_insertionSort _ _).count_eq]
        dsimp only
        omega
  | @defer before e calls s =>
      have hadd : (elements (add e.deferredKey e s.deferredTargeted)).count ev =
          s.deferred.count ev + if e = ev then 1 else 0 := by
        rw [(elements_add_perm hfiled e).count_eq, ← count_one, ← List.count_append]
        exact (List.perm_append_singleton e s.deferred).symm.count_eq ev
      rw [deferTargetedEvent_eq]
      refine .of_places ?_ rfl ?_
      · refine (modifyCtx_proj (·.kept) (f := fun c => { c with vt := before.vt, currentExecTs := before.vt })
          (fun _ => rfl) (left e.dst s) e.dst ev.dst).trans ?_
        exact modifyCtx_proj (·.kept) (f := fun c => { c with inEvent := false }) (fun _ => rfl) s e.dst ev.dst
      · change (Q.elems s.pending).count ev + (elements (add e.deferredKey e s.deferredTargeted)).count ev +
          s.hist.dropped.count ev + s.hist.lost.count ev + 0 = _ + [e].count ev
        rw [hadd, count_one]
        change _ = (Q.elems s.pending).count ev + s.deferred.count ev + s.hist.dropped.count ev +
          s.hist.lost.count ev + _
        omega
  | @abort before e calls s =>
      refine .of_queue ?_ rfl ⟨rfl, rfl, rfl⟩ rfl
      exact modifyCtx_proj (·.kept) (f := fun c => { c with inEvent := false }) (fun _ => rfl) s e.dst ev.dst
  | @mark s e =>
      refine .of_queue rfl rfl ⟨rfl, rfl, rfl⟩ ?_
      change _ + (some (antiRecord e s).ev).toList.count ev = _
      rw [(antiRecord_fits e s).1]
      rfl
  | matched => exact .of_unwound (hb.ledger _) rfl rfl
  | unmatched => exact .of_queue rfl rfl ⟨rfl, rfl, rfl⟩ rfl
  | settle => exact .of_hand rfl rfl rfl (present_push fun _ => rfl)
  | @annul a id log owed s e u n k w =>
      refine .of_posted (.rollback id) (antiOf id log) (renumber id u n k w s) rfl rfl rfl (sameWork_annul ..)
        ?_ ⟨?_, ?_⟩ ?_ ?_
      all_goals rw [posted_eq]; rfl
  | @stuck a id log owed s e u n k w what hunwinding =>
      refine .of_hand (e := e) (hand_of_unwinding hunwinding) rfl rfl ?_
      rw [present_lose]
      unfold Simulation.present
      rw [(sameWork_renumber ..).books.kept]
      rfl
  | @lose s e => exact .of_hand rfl rfl rfl (present_lose ..)

variable (cfg) in
theorem GvtMove.conserves {x y : Situation Q σ} (hm : GvtMove sound final cfg x y) (ev : Event) :
    Conserves cfg ev x y := by
  have hkept (gvt : TimeStamp) (s : Simulation Q σ) : ((pruneToGvt cfg gvt s).ctx ev.dst).kept =
      (s.ctx ev.dst).kept := prune_proj cfg (·.kept) kept_prune gvt s ev.dst
  cases hm with
  | advance => exact .of_places (hkept _ _) rfl rfl
  | prune => exact .of_places (hkept _ _) rfl rfl
  | flush => exact .of_places (hkept _ _) rfl rfl
  | flip => exact .of_places rfl rfl rfl
  | reset => exact .of_places rfl rfl rfl

/-! ## Runs -/

/-- Every event that has come in is in one of the places, and in no other. -/
theorem AllMoves.present_eq {y : Situation Q σ}
    (h : AllMoves sound final model cfg (Simulation.create Q model).atRest y) (ev : Event) :
    y.present ev = (y.state.entered cfg).count ev := by
  induction h with
  | refl => simp [Situation.present, Simulation.present, Simulation.entered, Simulation.create, Simulation.atRest,
      Simulation.deferred, LPContext.kept, Activity.hand, Q.elems_empty]
  | @tail x y hxs hm ih =>
      have hstep : Conserves cfg ev x y := by
        rcases hm with hm | hm
        · exact hm.conserves cfg (AllMoves.booksInv hxs booksInv_create) (AllMoves.built hxs (.empty rfl)).filed ev
        · exact hm.conserves cfg ev
      unfold Conserves at hstep
      omega

theorem entered_sublist {s t : Simulation Q σ} (h : s.hist.Extends t.hist) :
    (s.entered cfg).Sublist (t.entered cfg) :=
  (h.delivered.sublist.map _).append ((h.sends.sublist.filter _).map _)

section

variable {x : Situation Q σ} (hpresent : ∀ ev, x.present ev = (x.state.entered cfg).count ev)

include hpresent

theorem entered_of_pending {ev : Event} (hev : ev ∈ Q.elems x.state.pending) : ev ∈ x.state.entered cfg := by
  refine List.count_pos_iff.mp ?_
  have hcount := Multiset.count_pos.mpr hev
  rw [← hpresent]
  unfold Situation.present Simulation.present
  omega

theorem entered_of_kept (hb : BooksInv x) {i : LPId} {rec : ProcessedRecord} (hrec : rec ∈ (x.state.ctx i).kept) :
    rec.ev ∈ x.state.entered cfg := by
  refine List.count_pos_iff.mp ?_
  have hdst := (hb.ledger i).filed rec ((hb.ledger i).kept_sub hrec)
  have hcount : 0 < ((x.state.ctx rec.ev.dst).kept.map (·.ev)).count rec.ev := by
    rw [hdst]
    exact List.count_pos_iff.mpr (List.mem_map_of_mem hrec)
  rw [← hpresent]
  unfold Situation.present Simulation.present
  omega

theorem entered_of_lost {ev : Event} (hev : ev ∈ x.state.hist.lost) : ev ∈ x.state.entered cfg := by
  refine List.count_pos_iff.mp ?_
  have hcount := List.count_pos_iff.mpr hev
  rw [← hpresent]
  unfold Situation.present Simulation.present
  omega

theorem entered_of_hand {ev : Event} (hev : x.activity.hand = some ev) : ev ∈ x.state.entered cfg := by
  refine List.count_pos_iff.mp ?_
  rw [← hpresent]
  unfold Situation.present
  rw [hev, Option.toList_some, count_one, if_pos rfl]
  omega

end

/-- No event is lost or doubled: each is in its places, in the queue, among the records of its destination,
deferred, dropped as cancelled or lost with an exception, exactly as often as it has come in. -/
theorem events_conserved {allowed : Simulation Q σ → HostOp → Prop} {s : Simulation Q σ}
    (h : Reachable model cfg allowed s) (ev : Event) : s.present ev = (s.entered cfg).count ev := by
  have hmoves : AllMoves False True model cfg (Simulation.create Q model).atRest s.atRest :=
    h.moves fun hfalse => hfalse.elim
  simpa [Situation.present, Simulation.atRest, Activity.hand] using hmoves.present_eq ev

/-- The LP 1 has executed the first event and gone back for the second one. -/
def lateRun (first second : Event) : Simulation sortedEventQueue ByteBuffer :=
  hostRun (fun _ => journal) {} [.addLp 1, .addLp 2, .schedule first, .runOne {} true, .schedule second,
    .runOne {} true, .runOne {} true] (Simulation.create _ fun _ => journal)

/-- The first event waits in the queue again, the second one has been executed. -/
theorem events_conserved_late :
    let first : Event := { ts := ⟨20, 1⟩, src := 9, dst := 1, uid := 1, payload := { kind := 3 } }
    let second : Event := { ts := ⟨10, 1⟩, src := 9, dst := 1, uid := 2, payload := { kind := 4 } }
    let s := lateRun first second
    (s.entered {}).count first = 1 ∧ (s.ctx 1).kept.map (·.ev) = [second] ∧
      s.present first = (s.entered {}).count first :=
  ⟨by decide +kernel, by decide +kernel, events_conserved (Reachable.hostRun .create (obeys_true _ _)) _⟩

/-! ## What goes to other ranks -/

/-- The rank and the event that a message is about. -/
def WireMessage.carried : WireMessage → Option (RankId × Event)
  | .event _ dstRank ev => some (dstRank, ev)
  | _ => none

/-- The events in the outbox are those sent to other ranks, in the order in which they were sent. -/
def Transmits (cfg : SimulationConfig) (s : Simulation Q σ) : Prop :=
  s.outbox.filterMap WireMessage.carried = (s.hist.sends.filter (·.rank ≠ cfg.rank)).map fun r => (r.rank, r.ev)

theorem Transmits.same {s t : Simulation Q σ} (h : Transmits cfg s) (houtbox : t.outbox = s.outbox)
    (hsends : t.hist.sends = s.hist.sends) : Transmits cfg t := by
  rw [Transmits, houtbox, hsends]
  exact h

theorem Transmits.posted {s : Simulation Q σ} (h : Transmits cfg s) (cause : SendCause) (asked ev : Event) :
    Transmits cfg (posted cause cfg asked ev s) := by
  have houtbox : (WarpSim.posted cause cfg asked ev s).outbox.filterMap WireMessage.carried =
      s.outbox.filterMap WireMessage.carried ++
        if cfg.rankOf ev.dst = cfg.rank then [] else [(cfg.rankOf ev.dst, ev)] := by
    unfold WarpSim.posted
    dsimp only
    split
    · exact (List.append_nil _).symm
    · split
      · rw [trackInflightSend_eq]
        exact List.filterMap_append ..
      · exact List.filterMap_append ..
  rw [Transmits, houtbox, posted_sends, List.filter_append, List.map_append, h]
  by_cases hrank : cfg.rankOf ev.dst = cfg.rank <;> simp [hrank, sendRecord]

theorem Move.transmits {x y : Situation Q σ} (hm : Move model cfg x y) (h : Transmits cfg x.state) :
    Transmits cfg y.state := by
  cases hm with
  | quiet hq => exact h.same (by rw [hq]) (by rw [hq])
  | @receive s srcRank ev =>
      have houtbox : (receiveEvent cfg srcRank ev s).outbox.filterMap WireMessage.carried =
          s.outbox.filterMap WireMessage.carried := by
        unfold receiveEvent
        dsimp only
        split
        · rfl
        · rw [Simulation.trackInflightRecv, clearInflightKey_eq]
          exact (List.filterMap_append ..).trans (List.append_nil _)
      rw [Transmits, houtbox, receiveEvent_eq]
      exact h
  | acknowledge => exact h.same (by rw [receiveAck_eq]) (by rw [receiveAck_eq])
  | @sent a s cause asked ev uid normal control wraps =>
      have hbefore : Transmits cfg (renumber asked.src uid normal control wraps s) := h.same rfl rfl
      exact (hbefore.posted cause asked (stampColor cfg s ev)).same rfl rfl
  | @unlogged a s cause asked ev uid normal control wraps =>
      have hbefore : Transmits cfg (renumber asked.src uid normal control wraps s) := h.same rfl rfl
      exact hbefore.posted cause asked (stampColor cfg s ev)
  | @annul a id log owed s ev uid normal control wraps =>
      have hbefore : Transmits cfg (renumber id uid normal control wraps s) := h.same rfl rfl
      exact (hbefore.posted (.rollback id) (antiOf id log) (stampColor cfg s ev)).same rfl rfl
  | straggle => exact h.same (by rw [unwound_eq]) (by rw [unwound_eq])
  | matched => exact h.same (by rw [unwound_eq]) (by rw [unwound_eq])
  | release => exact h.same (by rw [released_eq]) (by rw [released_eq]; rfl)
  | _ => exact h.same rfl rfl

/-- Nothing is lost or doubled on the way out, either: what has been sent to other ranks has been handed to the
transport, each event once. -/
theorem sends_transmitted {allowed : Simulation Q σ → HostOp → Prop} {s : Simulation Q σ}
    (h : Reachable model cfg allowed s) : Transmits cfg s := by
  have hmoves : AllMoves False True model cfg (Simulation.create Q model).atRest s.atRest :=
    h.moves fun hfalse => hfalse.elim
  change Transmits cfg s.atRest.state
  generalize s.atRest = y at hmoves
  induction hmoves with
  | refl => exact rfl
  | tail _ hm ih =>
      rcases hm with hm | hm
      · exact hm.transmits ih
      · cases hm <;> exact ih.same rfl rfl

end WarpSim

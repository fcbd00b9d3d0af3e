import WarpSim.Library.Sequential
import WarpSim.Verification.Sequential.Accounts

/-! # What has been handled

Only events with an anti-message are dropped. Once nothing waits any more, the positive events in place are
therefore those that have come from outside, and those that have been sent and not cancelled. -/

namespace WarpSim

variable {Q : EventQueue} {σ : Type} {sound final : Prop} {model : Model σ} {cfg : SimulationConfig}

open Simulation

/-! ## Tombstones -/

/-- A move sets the tombstone of an anti-message, or it undoes records. -/
inductive TombStep (x y : Situation Q σ) : Prop where
  | same : y.state.cancelledByUid = x.state.cancelledByUid → TombStep x y
  | mark {ev} : x.activity.hand = some ev → ev.isAnti = true →
      y.state.cancelledByUid = (insertTombstone ev x.state).cancelledByUid → TombStep x y
  | undo {i} {records : List ProcessedRecord} : (∀ rec ∈ records, rec ∈ (x.state.ctx i).processed) →
      y.state.cancelledByUid = records.foldl restoreTombstone x.state.cancelledByUid → TombStep x y

theorem TombStep.unwound {x y : Situation Q σ} {i : LPId} {target : TimeStamp}
    (hy : y.state = WarpSim.unwound model i target x.state) : TombStep x y := by
  have hsub : ∀ rec ∈ (undoneRecords target (x.state.ctx i).processed).reverse, rec ∈ (x.state.ctx i).processed :=
    fun rec hrec => (List.rtakeWhile_suffix _ _).subset (List.mem_reverse.mp hrec)
  refine .undo hsub ?_
  rw [hy, unwound_eq]

theorem Move.tombStep {x y : Situation Q σ} (hm : Move model cfg x y) : TombStep x y := by
  cases hm with
  | quiet hq => exact .same (by rw [hq])
  | receive => exact .same (by rw [receiveEvent_eq])
  | acknowledge => exact .same (by rw [receiveAck_eq])
  | sent => exact .same (by rw [posted_eq]; rfl)
  | unlogged => exact .same (by rw [posted_eq]; rfl)
  | annul => exact .same (by rw [posted_eq]; rfl)
  | release => exact .same (by rw [released_eq])
  | straggle => exact .unwound rfl
  | matched => exact .unwound rfl
  | mark hanti => exact .mark rfl hanti rfl
  | _ => exact .same rfl

/-- Tombstones are those of anti-messages that have come in, and what has been dropped has one. -/
structure TombSource (cfg : SimulationConfig) (s : Simulation Q σ) : Prop where
  tombstones : ∀ key, s.cancelledByUid key ≠ none → ∃ anti ∈ s.entered cfg, anti.annuls key = true
  dropped : ∀ ev ∈ s.hist.dropped, ∃ anti ∈ s.entered cfg, anti.annuls ev.uidKey = true

theorem Move.tombSource {x y : Situation Q σ} (hm : Move model cfg x y) (hb : BooksInv x)
    (hpresent : ∀ ev, x.present ev = (x.state.entered cfg).count ev) (h : TombSource cfg x.state) :
    TombSource cfg y.state := by
  have hentered : (x.state.entered cfg).Sublist (y.state.entered cfg) := entered_sublist hm.extends
  have hold : ∀ key, x.state.cancelledByUid key ≠ none → ∃ anti ∈ y.state.entered cfg, anti.annuls key = true := by
    intro key hne
    obtain ⟨anti, hanti, hannuls⟩ := h.tombstones key hne
    exact ⟨anti, hentered.subset hanti, hannuls⟩
  refine ⟨fun key hne => ?_, fun ev hev => ?_⟩
  · cases hm.tombStep with
    | same heq => exact hold key (heq ▸ hne)
    | @mark ev hhand hanti heq =>
        by_cases hkey : key = ev.uidKey
        · exact ⟨ev, hentered.subset (entered_of_hand hpresent hhand), by simp [Event.annuls, hanti, hkey]⟩
        · refine hold key fun hnone => hne ?_
          rw [heq]
          exact (Function.update_of_ne hkey ..).trans hnone
    | @undo i records hsub heq =>
        by_cases hannuls : ∃ rec ∈ records, rec.annuls key = true
        · obtain ⟨rec, hrec, hannuls⟩ := hannuls
          have hkept : rec ∈ (x.state.ctx i).kept := List.mem_append_right _ (hsub rec hrec)
          exact ⟨rec.ev, hentered.subset (entered_of_kept hpresent hb hkept), hannuls⟩
        · refine hold key fun hnone => hne ?_
          rw [heq, restore_others records _ (by simpa using hannuls), hnone]
  · rcases hm.dropped_eq with heq | ⟨-, evs, heq, hevs⟩
    · rw [heq] at hev
      obtain ⟨anti, hanti, hannuls⟩ := h.dropped ev hev
      exact ⟨anti, hentered.subset hanti, hannuls⟩
    · rw [heq] at hev
      rcases List.mem_append.mp hev with hev | hev
      · obtain ⟨anti, hanti, hannuls⟩ := h.dropped ev hev
        exact ⟨anti, hentered.subset hanti, hannuls⟩
      · exact hold _ (Option.isSome_iff_ne_none.mp (hevs ev hev).2)

theorem GvtMove.tombSource {x y : Situation Q σ} (hm : GvtMove sound final cfg x y) (h : TombSource cfg x.state) :
    TombSource cfg y.state := by
  have hprune : ∀ (gvt : TimeStamp) (s : Simulation Q σ), TombSource cfg s →
      TombSource cfg (pruneToGvt cfg gvt s) := fun gvt s h =>
    ⟨fun key hne => h.tombstones key fun hnone => hne (by simp [pruneToGvt, hnone]), h.dropped⟩
  cases hm with
  | advance => exact hprune _ _ ⟨h.tombstones, h.dropped⟩
  | prune => exact hprune _ _ h
  | flush => exact ⟨(hprune _ _ h).tombstones, h.dropped⟩
  | flip => exact ⟨h.tombstones, h.dropped⟩
  | reset => exact ⟨h.tombstones, h.dropped⟩

theorem AllMoves.tombSource {y : Situation Q σ}
    (h : AllMoves sound final model cfg (Simulation.create Q model).atRest y) : TombSource cfg y.state := by
  induction h with
  | refl => exact ⟨by simp [Simulation.create, Simulation.atRest], by simp [Simulation.create, Simulation.atRest]⟩
  | @tail x y hxs hm ih =>
      rcases hm with hm | hm
      · exact hm.tombSource (AllMoves.booksInv hxs booksInv_create) (AllMoves.present_eq hxs) ih
      · exact hm.tombSource ih

/-! ## Cancelled events -/

/-- Events that are pairwise apart and have one key. -/
theorem length_le_one_of_apart (key : UidKey) {sends : List SendRecord} (h : sends.Pairwise SendRecord.Apart)
    (hkey : ∀ r ∈ sends, r.ev.uidKey = key) : sends.length ≤ 1 := by
  match sends with
  | [] => simp
  | [_] => simp
  | a :: b :: _ =>
      have hapart : a.Apart b := List.rel_of_pairwise_cons h List.mem_cons_self
      exact absurd ((hkey a (by simp)).trans (hkey b (by simp)).symm) hapart

/-- Positive events with the same key are the same. -/
theorem Paired.positive_eq {sends : List SendRecord} (h : Paired sends) {p r : SendRecord} (hp : p ∈ sends)
    (hr : r ∈ sends) (hpos : p.Positive) (hpos' : r.Positive) (hkey : p.ev.uidKey = r.ev.uidKey) : p = r := by
  by_contra hne
  have : Std.Symm SendRecord.Apart := ⟨fun _ _ => Ne.symm⟩
  exact h.distinct.forall (List.mem_filter.mpr ⟨hp, decide_eq_true hpos⟩)
    (List.mem_filter.mpr ⟨hr, decide_eq_true hpos'⟩) hne hkey

/-- An anti-message that has come in was sent by a rollback. -/
theorem Disciplined.anti_sent {s : Simulation Q σ} (hd : Disciplined s.hist) {anti : Event}
    (hanti : anti ∈ s.entered cfg) (hneg : anti.isAnti = true) :
    ∃ q ∈ s.hist.sends, q.ev = anti ∧ ∃ i, q.cause = .rollback i := by
  rcases List.mem_append.mp hanti with hmem | hmem
  · obtain ⟨d, hin, rfl⟩ := List.mem_map.mp hmem
    exact absurd (hneg.symm.trans (hd.delivered d hin).1) (by simp)
  · obtain ⟨q, hq, rfl⟩ := List.mem_map.mp hmem
    have hq := (List.mem_filter.mp hq).1
    exact ⟨q, hq, rfl, (hd.sends q hq).undoes hneg⟩

namespace Progress

variable {s : Simulation Q σ} (h : Progress cfg s) (hd : Disciplined s.hist)

include h hd

/-- The events with the key of a cancelled event are that event and its one anti-message. -/
theorem cancelling {q p : SendRecord} (hp : p ∈ s.hist.sends) (hcancels : q.Cancels p) :
    Cancelling cfg p.ev.uidKey p.ev.dst p.ev.ts s := by
  refine ⟨fun ev hev hkey => ?_, ?_, by simp [hd.lost]⟩
  · rcases List.mem_append.mp hev with hmem | hmem
    · obtain ⟨d, hin, rfl⟩ := List.mem_map.mp hmem
      exact absurd hkey (hd.apart d hin p hp)
    · obtain ⟨r, hr, rfl⟩ := List.mem_map.mp hmem
      have hr := (List.mem_filter.mp hr).1
      by_cases hneg : r.ev.isAnti = true
      · obtain ⟨i, hcause⟩ := (hd.sends r hr).undoes hneg
        obtain ⟨p', hp', hcancels'⟩ := h.pairing.paired.partner hr hcause
        obtain rfl := h.pairing.paired.positive_eq hp' hp hcancels'.positive hcancels.positive
          (hcancels'.key.symm.trans hkey)
        exact ⟨hcancels'.dst, hcancels'.ts⟩
      · obtain rfl := h.pairing.paired.positive_eq hr hp (by simpa [SendRecord.Positive] using hneg)
          hcancels.positive hkey
        exact ⟨rfl, rfl⟩
  · have hdelivered : (s.hist.delivered.map (·.ev)).filter (·.annuls p.ev.uidKey) = [] := by
      refine List.filter_eq_nil_iff.mpr fun ev hev => ?_
      obtain ⟨d, hmem, rfl⟩ := List.mem_map.mp hev
      simp [Event.annuls, (hd.delivered d hmem).1]
    have hsent : ((s.hist.sends.filter (·.rank = cfg.rank)).filter (·.ev.annuls p.ev.uidKey)).Sublist
        (s.hist.sends.filter (·.Undoes)) := by
      have hself : ((s.hist.sends.filter (·.rank = cfg.rank)).filter (·.ev.annuls p.ev.uidKey)).filter (·.Undoes) =
          (s.hist.sends.filter (·.rank = cfg.rank)).filter (·.ev.annuls p.ev.uidKey) := by
        refine List.filter_eq_self.mpr fun r hr => ?_
        obtain ⟨hr, hannuls⟩ := List.mem_filter.mp hr
        simp only [Event.annuls, Bool.and_eq_true] at hannuls
        exact decide_eq_true ((hd.sends r (List.mem_filter.mp hr).1).undoes hannuls.1)
      rw [← hself]
      exact (List.filter_sublist.trans List.filter_sublist).filter _
    rw [Simulation.entered, List.filter_append, hdelivered, List.nil_append, List.filter_map, List.length_map]
    refine length_le_one_of_apart p.ev.uidKey (h.pairing.paired.once.sublist hsent) fun r hr => ?_
    exact Event.annuls_key (List.mem_filter.mp hr).2

end Progress

/-! ## The balance -/

/-- A positive event has been sent at most once. -/
theorem Paired.count_le {sends : List SendRecord} (h : Paired sends) {ev : Event} (hpos : ev.isAnti = false) :
    (sends.map (·.ev)).count ev ≤ 1 := by
  have hfilter : (sends.map (·.ev)).count ev = ((sends.filter (·.Positive)).map (·.ev)).count ev := by
    have hmap : (sends.filter (·.Positive)).map (·.ev) = (sends.map (·.ev)).filter (·.isAnti = false) := by
      rw [List.filter_map]
      rfl
    rw [hmap, List.count_filter (by simp [hpos])]
  have hnodup : ((sends.filter (·.Positive)).map (·.ev)).Nodup := by
    refine List.pairwise_map.mpr (h.distinct.imp fun hapart heq => hapart ?_)
    rw [heq]
  rw [hfilter]
  exact List.nodup_iff_count_le_one.mp hnodup ev

/-- What has been sent in the name of one LP and not cancelled is part of what has been sent. -/
theorem Paired.count_outstanding_le {sends : List SendRecord} (h : Paired sends) (i : LPId) (ev : Event) :
    ((outstanding i sends).map (·.ev)).count ev ≤ (sends.map (·.ev)).count ev :=
  (((h.kept i).trans List.filter_sublist).map _).count_le ev

section

variable {s : Simulation Q σ}

/-- An event that has been sent and not cancelled is outstanding. -/
theorem Progress.sent_outstanding (h : Progress cfg s) (halone : ∀ i, cfg.rankOf i = cfg.rank)
    {r : SendRecord} (hr : r ∈ s.hist.sends) (hpos : r.Positive)
    (hfree : ∀ anti ∈ s.entered cfg, anti.annuls r.ev.uidKey = false) : r ∈ outstanding r.ev.src s.hist.sends := by
  have hcause : r.cause ≠ .rollback r.ev.src := by
    intro hcause
    obtain ⟨sent, -, hasked⟩ := h.sends.undoing r hr _ hcause
    have hanti : r.ev.isAnti = true := by
      rw [(h.sends.framed r hr).2.1, hasked]
      rfl
    exact absurd (hanti.symm.trans hpos) (by simp)
  refine (outstanding_or_annulled hr ⟨rfl, hpos⟩ hcause).resolve_right ?_
  rintro ⟨anti, hanti, hundoes, hasked⟩
  obtain ⟨hsrc, hneg, huid⟩ := h.sends.framed anti hanti
  obtain ⟨sent, hne, hsent⟩ := h.sends.undoing anti hanti _ hundoes
  have hentered : anti.ev ∈ s.entered cfg := by
    refine List.mem_append_right _ (List.mem_map_of_mem (List.mem_filter.mpr ⟨hanti, ?_⟩))
    simp [h.pairing.numbered.routed anti hanti, halone]
  have hannuls : anti.ev.annuls r.ev.uidKey = true := by
    have huid : anti.ev.uid = anti.asked.uid := huid (by rw [hsent]; exact hne)
    rw [hasked] at hneg hsrc huid
    simp only [Event.annuls, Event.uidKey, Bool.and_eq_true, decide_eq_true_eq, UidKey.mk.injEq]
    exact ⟨hneg, hsrc, huid⟩
  exact absurd ((hfree _ hentered).symm.trans hannuls) (by simp)

/-- Nothing waits any more, and there is no other rank to which something could have gone. -/
structure Quiescent (cfg : SimulationConfig) (s : Simulation Q σ) : Prop where
  alone : ∀ i, cfg.rankOf i = cfg.rank
  empty : Q.elems s.pending = 0

/-- The positive events in place at an LP. -/
def handledAt (s : Simulation Q σ) (i : LPId) : List Event :=
  ((s.ctx i).kept.map (·.ev)).filter (·.isAnti = false)

theorem Quiescent.entered_eq (h : Quiescent cfg s) (hs : Progress cfg s) :
    s.entered cfg = s.hist.delivered.map (·.ev) ++ s.hist.sends.map (·.ev) := by
  have hall : s.hist.sends.filter (·.rank = cfg.rank) = s.hist.sends := by
    refine List.filter_eq_self.mpr fun r hr => ?_
    simp [hs.pairing.numbered.routed r hr, h.alone]
  rw [Simulation.entered, hall]

/-- Of the events with the key of an anti-message, none is in place, none has come from outside and none is
outstanding. -/
theorem UnderWay.none_annulled (h : UnderWay model cfg (Simulation.create Q model) s)
    (hoff : cfg.enableInstallBeforeUseBuffering = false) (ht : Covered s.hist) (hd : Disciplined s.hist)
    (hempty : Q.elems s.pending = 0) {anti ev : Event} (hanti : anti ∈ s.entered cfg)
    (hannuls : anti.annuls ev.uidKey = true) (hpos : ev.isAnti = false) :
    ((s.ctx ev.dst).kept.map (·.ev)).count ev = 0 ∧ (s.hist.delivered.map (·.ev)).count ev = 0 ∧
      ((outstanding ev.src s.hist.sends).map (·.ev)).count ev = 0 := by
  have hs := h.progress ht hd
  have hmoves := h.moves baseInv_create
  have hneg : anti.isAnti = true := by
    simp only [Event.annuls, Bool.and_eq_true] at hannuls
    exact hannuls.1
  obtain ⟨q, hq, rfl, i, hcause⟩ := hd.anti_sent hanti hneg
  obtain ⟨p, hp, hcancels⟩ := hs.pairing.paired.partner hq hcause
  have hkey : ev.uidKey = p.ev.uidKey := (Event.annuls_key hannuls).symm.trans hcancels.key
  have hcancelling := hs.cancelling hd hp hcancels
  refine ⟨List.count_eq_zero.mpr fun hmem => ?_, List.count_eq_zero.mpr fun hmem => ?_,
    List.count_eq_zero.mpr fun hmem => ?_⟩
  · obtain ⟨rec, hrec, rfl⟩ := List.mem_map.mp hmem
    have hdst : rec.ev.dst = p.ev.dst :=
      (hcancelling.placed _ (entered_of_kept hs.present hs.books hrec) hkey).1
    have hdeferred : s.deferred = [] :=
      congrArg (List.flatMap Prod.snd) (AllMoves.noDeferral hoff hmoves).empty
    obtain ⟨-, hnone⟩ := hcancelling.settled hmoves ht rfl hdeferred hanti (hkey ▸ hannuls)
    have hexecutes := hnone hempty rec (hdst ▸ hrec)
    simp [ProcessedRecord.executes, hpos, hkey] at hexecutes
  · obtain ⟨d, hin, rfl⟩ := List.mem_map.mp hmem
    exact hd.apart d hin p hp hkey
  · obtain ⟨r, hr, rfl⟩ := List.mem_map.mp hmem
    have hsrc : i = r.ev.src := by
      rw [← hs.pairing.paired.own q hq i hcause]
      exact congrArg UidKey.src (Event.annuls_key hannuls)
    exact hs.pairing.paired.spent _ r hr q hq (hsrc ▸ hcause) (Event.annuls_key hannuls)

/-- The positive events with one content are in place at their destination. -/
theorem Progress.count_handled (hs : Progress cfg s) (hids : s.lpIds.Nodup) (ev : Event) :
    (s.lpIds.flatMap (handledAt s)).count ev = (handledAt s ev.dst).count ev := by
  refine List.count_flatMap_own hids (fun i e he => ?_) (fun i hi => ?_) ev
  · obtain ⟨rec, hrec, rfl⟩ := List.mem_map.mp (List.mem_filter.mp he).1
    exact (hs.books.ledger i).filed rec ((hs.books.ledger i).kept_sub hrec)
  · have hfresh : (s.ctx i).kept = [] := hs.books.kept_of_fresh hi
    rw [handledAt, hfresh]
    rfl

/-- Events with one content are outstanding of their source. -/
theorem Progress.count_outstanding (hs : Progress cfg s) (hids : s.lpIds.Nodup) (ev : Event) :
    (s.lpIds.flatMap fun i => (outstanding i s.hist.sends).map (·.ev)).count ev =
      ((outstanding ev.src s.hist.sends).map (·.ev)).count ev := by
  refine List.count_flatMap_own hids (fun i e he => ?_) (fun i hi => ?_) ev
  · obtain ⟨r, hr, rfl⟩ := List.mem_map.mp he
    exact (hs.pairing.paired.outstanding_mine hr).2.1
  · refine List.map_eq_nil_iff.mpr (List.eq_nil_iff_forall_not_mem.mpr fun r hr => hi ?_)
    obtain ⟨hmem, hmine⟩ := hs.pairing.paired.outstanding_mine hr
    exact hmine.1 ▸ (hs.pairing.numbered.below r hmem hmine.positive).1

/-- An event without an anti-message is in place as often as it has come from outside or is outstanding. -/
theorem UnderWay.kept_free (h : UnderWay model cfg (Simulation.create Q model) s)
    (hoff : cfg.enableInstallBeforeUseBuffering = false) (ht : Covered s.hist) (hd : Disciplined s.hist)
    (hq : Quiescent cfg s) {ev : Event} (hpos : ev.isAnti = false)
    (hfree : ∀ anti ∈ s.entered cfg, anti.annuls ev.uidKey = false) :
    ((s.ctx ev.dst).kept.map (·.ev)).count ev = (s.hist.delivered.map (·.ev)).count ev +
      ((outstanding ev.src s.hist.sends).map (·.ev)).count ev := by
  have hs := h.progress ht hd
  have hmoves := h.moves baseInv_create
  -- the event has not been dropped, and if it was sent, it is outstanding
  have hdropped : s.hist.dropped.count ev = 0 := List.count_eq_zero.mpr fun hmem => by
    obtain ⟨anti, hanti, hannuls⟩ := (AllMoves.tombSource hmoves).dropped ev hmem
    exact absurd ((hfree anti hanti).symm.trans hannuls) (by simp)
  have hdeferred : s.deferred = [] := congrArg (List.flatMap Prod.snd) (AllMoves.noDeferral hoff hmoves).empty
  have hplaces := hs.present ev
  rw [hq.entered_eq hs, List.count_append] at hplaces
  simp only [Situation.present, Simulation.present, Simulation.atRest, Activity.hand, Option.toList_none,
    List.count_nil, hq.empty, Multiset.count_zero, hdeferred, hd.lost, hdropped, add_zero, zero_add] at hplaces
  have hpaired : Paired s.hist.sends := hs.pairing.paired
  have hle := hpaired.count_outstanding_le ev.src ev
  have hone := hpaired.count_le hpos
  have hsent : 0 < (s.hist.sends.map (·.ev)).count ev →
      0 < ((outstanding ev.src s.hist.sends).map (·.ev)).count ev := by
    intro hcount
    obtain ⟨r, hr, rfl⟩ := List.mem_map.mp (List.count_pos_iff.mp hcount)
    exact List.count_pos_iff.mpr (List.mem_map_of_mem (hs.sent_outstanding hq.alone hr hpos hfree))
  omega

/-- The positive events in place are those that have come from outside, and those that have been sent and not
cancelled. -/
theorem UnderWay.handled_eq (h : UnderWay model cfg (Simulation.create Q model) s)
    (hoff : cfg.enableInstallBeforeUseBuffering = false) (ht : Covered s.hist) (hd : Disciplined s.hist)
    (hq : Quiescent cfg s) : (s.lpIds.flatMap (handledAt s) : Multiset Event) =
      (s.hist.delivered.map (·.ev) : Multiset Event) +
        (s.lpIds.flatMap fun i => (outstanding i s.hist.sends).map (·.ev) : Multiset Event) := by
  have hs := h.progress ht hd
  have hids : s.lpIds.Nodup := h.lpIds_nodup
  refine Multiset.ext.mpr fun ev => ?_
  rw [Multiset.count_add, Multiset.coe_count, Multiset.coe_count, Multiset.coe_count, hs.count_handled hids,
    hs.count_outstanding hids]
  by_cases hpos : ev.isAnti = false
  · have hkept : (handledAt s ev.dst).count ev = ((s.ctx ev.dst).kept.map (·.ev)).count ev :=
      List.count_filter (by simp [hpos])
    rw [hkept]
    by_cases hfree : ∀ anti ∈ s.entered cfg, anti.annuls ev.uidKey = false
    · exact h.kept_free hoff ht hd hq hpos hfree
    · push Not at hfree
      obtain ⟨anti, hanti, hannuls⟩ := hfree
      obtain ⟨hnone, hdelivered, hsent⟩ := h.none_annulled hoff ht hd hq.empty hanti (by simpa using hannuls) hpos
      rw [hnone, hdelivered, hsent]
  · have hnone : ∀ l : List Event, (∀ e ∈ l, e.isAnti = false) → l.count ev = 0 := fun l hl =>
      List.count_eq_zero.mpr fun hmem => hpos (hl ev hmem)
    rw [hnone _ fun e he => by simpa using (List.mem_filter.mp he).2, hnone, hnone]
    · intro e he
      obtain ⟨r, hr, rfl⟩ := List.mem_map.mp he
      exact (hs.pairing.paired.outstanding_mine hr).2.2
    · intro e he
      obtain ⟨d, hin, rfl⟩ := List.mem_map.mp he
      exact (hd.delivered d hin).1

end

end WarpSim

import WarpSim.Verification.Conservation
import WarpSim.Verification.Sinks
import WarpSim.Verification.Suppression

/-! # A cancelled event is never committed

An event and its anti-message come in any order, and rollbacks undo and replay either of them. Their
records are never in place together, and once all is done it is the anti-message that is. -/

namespace WarpSim

variable {Q : EventQueue} {σ : Type} {sound final : Prop} {model : Model σ} {cfg : SimulationConfig}
  {key : UidKey} {id : LPId} {ts : TimeStamp}

open Simulation

/-! ## The events with a key -/

/-- All events with the key are for one LP and one time, and at most one of them is an anti-message, which is
not lost to an exception. -/
structure Cancelling (cfg : SimulationConfig) (key : UidKey) (id : LPId) (ts : TimeStamp) (s : Simulation Q σ) :
    Prop where
  placed : ∀ ev ∈ s.entered cfg, ev.uidKey = key → ev.dst = id ∧ ev.ts = ts
  once : ((s.entered cfg).filter (·.annuls key)).length ≤ 1
  found : ∀ ev ∈ s.hist.lost, ev.annuls key = false

theorem Cancelling.mono {s t : Simulation Q σ} (h : Cancelling cfg key id ts t) (hle : s.hist.Extends t.hist) :
    Cancelling cfg key id ts s where
  placed ev hev := h.placed ev ((entered_sublist hle).subset hev)
  once := ((entered_sublist hle).filter _).length_le.trans h.once
  found ev hev := h.found ev (hle.lost.subset hev)

theorem Event.annuls_key {ev : Event} (h : ev.annuls key = true) : ev.uidKey = key := by
  simp only [Event.annuls, Bool.and_eq_true, decide_eq_true_eq] at h
  exact h.2

/-- Two anti-messages with the key cannot both have come in. -/
theorem Cancelling.clash {s : Simulation Q σ} (h : Cancelling cfg key id ts s) {a b : Event} {m n : Multiset Event}
    (hle : m + n ≤ (s.entered cfg : Multiset Event)) (ha : a ∈ m) (hb : b ∈ n) (hannuls : a.annuls key = true) :
    b.annuls key = false := by
  by_contra hb'
  have hpair : {a} + {b} ≤ (s.entered cfg : Multiset Event) :=
    (add_le_add (Multiset.singleton_le.mpr ha) (Multiset.singleton_le.mpr hb)).trans hle
  have hcard := Multiset.card_le_card (Multiset.filter_le_filter (fun ev => ev.annuls key = true) hpair)
  have honce := h.once
  rw [Multiset.filter_add, Multiset.filter_singleton, Multiset.filter_singleton, if_pos hannuls,
    if_pos (by simpa using hb'), Multiset.filter_coe, Multiset.coe_card] at hcard
  simp only [Bool.decide_eq_true] at hcard
  simp at hcard
  omega

/-! ## Before a move -/

/-- What is known of a situation before each move. -/
structure Footing (cfg : SimulationConfig) (key : UidKey) (id : LPId) (ts : TimeStamp) (x : Situation Q σ) : Prop where
  books : BooksInv x
  bound : BoundInv x
  present : ∀ ev, x.present ev = (x.state.entered cfg).count ev
  cancelling : Cancelling cfg key id ts x.state
  going : x.state.finished = false

namespace Footing

variable {x : Situation Q σ} (h : Footing cfg key id ts x)

include h

/-- What waits, what is in place at an LP and what is in the hands has all come in. -/
theorem places_le (i : LPId) : Q.elems x.state.pending + ((x.state.ctx i).kept.map (·.ev) : Multiset Event) +
    (x.activity.hand.toList : Multiset Event) ≤ (x.state.entered cfg : Multiset Event) := by
  rw [Multiset.le_iff_count]
  intro ev
  have hpresent := h.present ev
  unfold Situation.present Simulation.present at hpresent
  rw [Multiset.count_add, Multiset.count_add, Multiset.coe_count, Multiset.coe_count, Multiset.coe_count]
  by_cases hdst : ev.dst = i
  · subst hdst
    omega
  · have hnone : ((x.state.ctx i).kept.map (·.ev)).count ev = 0 := by
      rw [List.count_eq_zero]
      intro hmem
      obtain ⟨rec, hrec, rfl⟩ := List.mem_map.mp hmem
      exact hdst ((h.books.ledger i).filed rec ((h.books.ledger i).kept_sub hrec))
    omega

theorem kept_mem {i : LPId} {rec : ProcessedRecord} (hrec : rec ∈ (x.state.ctx i).kept) :
    rec.ev ∈ x.state.entered cfg :=
  entered_of_kept h.present h.books hrec

theorem hand_mem {ev : Event} (hev : x.activity.hand = some ev) : ev ∈ x.state.entered cfg :=
  entered_of_hand h.present hev

theorem pending_mem {ev : Event} (hev : ev ∈ Q.elems x.state.pending) : ev ∈ x.state.entered cfg :=
  entered_of_pending h.present hev

theorem kept_ts {rec : ProcessedRecord} (hrec : rec ∈ (x.state.ctx id).kept) (hkey : rec.ev.uidKey = key) :
    rec.ev.ts = ts :=
  (h.cancelling.placed _ (h.kept_mem hrec) hkey).2

/-- While the anti-message is in the hands, it is not in place. -/
theorem hand_clash {ev : Event} (hev : x.activity.hand = some ev) (hannuls : ev.annuls key = true) :
    ∀ rec ∈ (x.state.ctx id).kept, rec.annuls key = false := by
  intro rec hrec
  refine h.cancelling.clash (m := x.activity.hand.toList) (n := (x.state.ctx id).kept.map (·.ev)) ?_ (a := ev) ?_ ?_ hannuls
  · refine le_trans ?_ (h.places_le id)
    rw [add_assoc, add_comm (Multiset.ofList x.activity.hand.toList)]
    exact Multiset.le_add_left _ _
  · simp [hev]
  · exact List.mem_map_of_mem hrec

/-- While the anti-message waits, it is not in place. -/
theorem pending_clash {ev : Event} (hev : ev ∈ Q.elems x.state.pending) (hannuls : ev.annuls key = true) :
    ∀ rec ∈ (x.state.ctx id).kept, rec.annuls key = false := by
  intro rec hrec
  refine h.cancelling.clash (m := Q.elems x.state.pending) (n := (x.state.ctx id).kept.map (·.ev)) ?_ hev ?_ hannuls
  · exact le_trans (Multiset.le_add_right _ _) (h.places_le id)
  · exact List.mem_map_of_mem hrec

/-- The anti-message is in place once. -/
theorem kept_clash {before after : List ProcessedRecord} (hsplit : (x.state.ctx id).kept = before ++ after)
    {a : ProcessedRecord} (ha : a ∈ after) (hannuls : a.annuls key = true) :
    ∀ rec ∈ before, rec.annuls key = false := by
  intro rec hrec
  refine h.cancelling.clash (m := after.map (·.ev)) (n := before.map (·.ev)) ?_ (a := a.ev) ?_ ?_ hannuls
  · refine le_trans ?_ (h.places_le id)
    rw [hsplit, List.map_append, ← Multiset.coe_add, add_comm (Multiset.ofList (after.map _)), add_assoc]
    exact (Multiset.le_add_right _ _).trans (Multiset.le_add_left _ _)
  · exact List.mem_map_of_mem ha
  · exact List.mem_map_of_mem hrec

/-- What the kernel still holds is not committed. -/
theorem no_fossil {ev : Event} (hev : Held x ev) (hmem : ev ∈ x.state.entered cfg) (hkey : ev.uidKey = key) :
    ∀ rec ∈ (x.state.ctx id).fossils, rec.ev.uidKey ≠ key := by
  intro rec hrec hrec'
  have hle := h.bound.held ev hev
  have hlt := h.bound.committed h.going id rec hrec
  rw [(h.cancelling.placed ev hmem hkey).2] at hle
  rw [h.kept_ts (List.mem_append_left _ hrec) hrec'] at hlt
  exact absurd hle (not_le.mpr hlt)

end Footing

/-! ## The invariant -/

/-- Undoing the record of the one anti-message takes its tombstone away. -/
theorem restore_own {undone : List ProcessedRecord} (cancelled : UidKey → Option TimeStamp)
    (hannuls : ∃ rec ∈ undone, rec.annuls key = true)
    (hsaved : ∀ rec ∈ undone, rec.annuls key = true → rec.saved = none) :
    undone.foldl restoreTombstone cancelled key = none := by
  induction undone generalizing cancelled with
  | nil => simp at hannuls
  | cons first undone ih =>
      rw [List.foldl_cons]
      by_cases hlater : ∃ rec ∈ undone, rec.annuls key = true
      · exact ih _ hlater fun rec hrec => hsaved rec (List.mem_cons_of_mem _ hrec)
      · have hnone : ∀ rec ∈ undone, rec.annuls key = false := by simpa using hlater
        have hfirst : first.annuls key = true := by simpa [hlater] using hannuls
        rw [restore_others undone _ hnone, restoreTombstone_apply, if_pos hfirst]
        exact hsaved first List.mem_cons_self hfirst

/-- The tombstone of the key is there exactly while the anti-message is in place, which has found none, and no
event with the key is in place together with the anti-message. -/
structure AnnulInv (key : UidKey) (id : LPId) (ts : TimeStamp) (x : Situation Q σ) : Prop where
  tombed : ∀ rec ∈ (x.state.ctx id).processed ++ x.activity.undoing, rec.annuls key = true →
    rec.saved = none ∧ x.state.cancelledByUid key = some ts
  source : x.state.cancelledByUid key ≠ none →
    ∃ rec ∈ (x.state.ctx id).kept ++ x.activity.undoing, rec.annuls key = true
  hand : ∀ ev, x.activity.hand = some ev → ev.isAnti = false → ev.uidKey = key →
    ∀ rec ∈ (x.state.ctx id).kept, rec.annuls key = false
  stage : ∀ rec, x.activity = .annulled rec → rec.annuls key = true →
    ∀ r ∈ (x.state.ctx id).kept, r.executes key = false
  apart : ∀ a ∈ (x.state.ctx id).kept, a.annuls key = true → ∀ r ∈ (x.state.ctx id).kept, r.executes key = false

theorem executes_of_annuls {rec : ProcessedRecord} (h : rec.annuls key = true) : rec.executes key = false := by
  simp only [ProcessedRecord.annuls, Bool.and_eq_true] at h
  simp [ProcessedRecord.executes, h.1]

theorem matchesAnti_of_executes {rec r : ProcessedRecord} (hrec : rec.annuls key = true)
    (hr : r.executes key = true) : matchesAnti rec.ev r = true := by
  simp only [ProcessedRecord.annuls, ProcessedRecord.executes, Bool.and_eq_true, decide_eq_true_eq,
    Bool.not_eq_true'] at hrec hr
  have hkeys : r.ev.uidKey = rec.ev.uidKey := hr.2.trans hrec.2.symm
  simp only [Event.uidKey, UidKey.mk.injEq] at hkeys
  simp [matchesAnti, hr.1, hkeys.1, hkeys.2]

theorem annuls_key {rec : ProcessedRecord} (h : rec.annuls key = true) : rec.ev.uidKey = key :=
  Event.annuls_key h

theorem executes_key {rec : ProcessedRecord} (h : rec.executes key = true) : rec.ev.uidKey = key := by
  simp only [ProcessedRecord.executes, Bool.and_eq_true, decide_eq_true_eq] at h
  exact h.2

/-- A move that leaves the records of the LP and the tombstone alone. -/
theorem AnnulInv.carry {x y : Situation Q σ} (h : AnnulInv key id ts x)
    (hprocessed : (y.state.ctx id).processed = (x.state.ctx id).processed)
    (hfossils : (y.state.ctx id).fossils = (x.state.ctx id).fossils)
    (hundoing : ∀ rec, rec.annuls key = true → (rec ∈ y.activity.undoing ↔ rec ∈ x.activity.undoing))
    (hcancelled : y.state.cancelledByUid key = x.state.cancelledByUid key)
    (hhand : ∀ ev, y.activity.hand = some ev → x.activity.hand = some ev)
    (hstage : ∀ rec, y.activity = .annulled rec → rec.annuls key = true →
      ∀ r ∈ (x.state.ctx id).kept, r.executes key = false) : AnnulInv key id ts y := by
  have hkept : (y.state.ctx id).kept = (x.state.ctx id).kept := by
    rw [LPContext.kept, LPContext.kept, hprocessed, hfossils]
  refine ⟨fun rec hrec hrec' => ?_, fun hne => ?_, ?_, ?_, ?_⟩
  · rw [hcancelled]
    rw [hprocessed, List.mem_append, hundoing rec hrec', ← List.mem_append] at hrec
    exact h.tombed rec hrec hrec'
  · rw [hcancelled] at hne
    obtain ⟨rec, hrec, hrec'⟩ := h.source hne
    refine ⟨rec, ?_, hrec'⟩
    rw [hkept, List.mem_append, hundoing rec hrec', ← List.mem_append]
    exact hrec
  · rw [hkept]
    exact fun ev hev => h.hand ev (hhand ev hev)
  · rw [hkept]
    exact hstage
  · rw [hkept]
    exact h.apart

theorem AnnulInv.same {x y : Situation Q σ} (h : AnnulInv key id ts x)
    (hbooks : SameBooks (x.state.ctx id) (y.state.ctx id)) (hundoing : y.activity.undoing = x.activity.undoing)
    (hcancelled : y.state.cancelledByUid = x.state.cancelledByUid)
    (hhand : ∀ ev, y.activity.hand = some ev → x.activity.hand = some ev)
    (hstage : ∀ rec, y.activity = .annulled rec → x.activity = .annulled rec) : AnnulInv key id ts y :=
  h.carry hbooks.processed hbooks.fossils (fun _ _ => by rw [hundoing]) (congrFun hcancelled key) hhand
    fun rec hrec => h.stage rec (hstage rec hrec)

/-- An update of a context that touches neither the records in place nor the committed ones. -/
theorem AnnulInv.modifyCtx {a a' : Activity σ} {owed owed' : List (LPId × SentRecord)} {s : Simulation Q σ}
    (h : AnnulInv key id ts ⟨a, owed, s⟩) (i : LPId) (f : LPContext σ → LPContext σ)
    (hf : ∀ c, (f c).processed = c.processed ∧ (f c).fossils = c.fossils) (hundoing : a'.undoing = a.undoing)
    (hhand : ∀ ev, a'.hand = some ev → a.hand = some ev)
    (hstage : ∀ rec, a' = .annulled rec → a = .annulled rec) : AnnulInv key id ts ⟨a', owed', s.modifyCtx i f⟩ :=
  h.carry (modifyCtx_proj (·.processed) (fun c => (hf c).1) s i id)
    (modifyCtx_proj (·.fossils) (fun c => (hf c).2) s i id) (fun _ _ => by rw [hundoing]) rfl hhand
    fun rec hrec => h.stage rec (hstage rec hrec)

/-- A record is put in place at the LP. -/
theorem AnnulInv.push {x y : Situation Q σ} (rec : ProcessedRecord) (h : AnnulInv key id ts x)
    (hprocessed : (y.state.ctx id).processed = (x.state.ctx id).processed ++ [rec])
    (hfossils : (y.state.ctx id).fossils = (x.state.ctx id).fossils)
    (hcancelled : y.state.cancelledByUid = x.state.cancelledByUid) (hidle : y.activity = .idle)
    (hundoing : ∀ r, r.annuls key = true → (r ∈ x.activity.undoing ↔ r = rec))
    (hexecutes : rec.executes key = true → ∀ a ∈ (x.state.ctx id).kept, a.annuls key = false)
    (hannuls : rec.annuls key = true → ∀ r ∈ (x.state.ctx id).kept, r.executes key = false) :
    AnnulInv key id ts y := by
  have hkept : (y.state.ctx id).kept = (x.state.ctx id).kept ++ [rec] := by
    rw [LPContext.kept, LPContext.kept, hprocessed, hfossils, List.append_assoc]
  refine ⟨fun r hr hr' => ?_, fun hne => ?_, by simp [hidle, Activity.hand], by simp [hidle], fun a ha ha' r hr => ?_⟩
  · rw [hcancelled]
    refine h.tombed r ?_ hr'
    rw [List.mem_append, hundoing r hr']
    simpa [hprocessed, hidle, Activity.undoing] using hr
  · rw [hcancelled] at hne
    obtain ⟨r, hr, hr'⟩ := h.source hne
    rw [List.mem_append, hundoing r hr'] at hr
    refine ⟨r, ?_, hr'⟩
    simpa [hkept, hidle, Activity.undoing] using hr
  · rw [hkept, List.mem_append, List.mem_singleton] at ha hr
    rcases ha with ha | rfl
    · rcases hr with hr | rfl
      · exact h.apart a ha ha' r hr
      · by_contra hr'
        simp [hexecutes (by simpa using hr') a ha] at ha'
    · rcases hr with hr | rfl
      · exact hannuls ha' r hr
      · exact executes_of_annuls ha'

theorem annulled_noteCall {a : Activity σ} {asked : Event} {r : Except String Event} {rec : ProcessedRecord}
    (h : a.noteCall asked r = .annulled rec) : a = .annulled rec := by
  cases a <;> first | exact h | cases h

theorem undoing_hand {a : Activity σ} {rec : ProcessedRecord} (h : rec ∈ a.undoing) : a.hand = some rec.ev := by
  cases a <;> simp_all [Activity.undoing, Activity.hand]

theorem LPContext.kept_split (target : TimeStamp) (c : LPContext σ) :
    c.kept = c.fossils ++ keptRecords target c.processed ++ undoneRecords target c.processed := by
  rw [List.append_assoc, keptRecords_append_undoneRecords, LPContext.kept]

theorem rewind_kept (lp : LogicalProcess σ) (target : TimeStamp) (c : LPContext σ) :
    (c.rewind lp target).kept = c.fossils ++ keptRecords target c.processed := by
  rw [LPContext.rewind_eq, LPContext.kept]

/-- A rollback of any LP. -/
theorem AnnulInv.unwound {x y : Situation Q σ} {j : LPId} {target : TimeStamp} (h : AnnulInv key id ts x)
    (hf : Footing cfg key id ts x) (hy : y.state = WarpSim.unwound model j target x.state)
    (hundoing : y.activity.undoing = x.activity.undoing) (hhand : y.activity.hand = x.activity.hand)
    (hstage : ∀ rec, y.activity = .annulled rec → rec.annuls key = true →
      ∀ r ∈ (y.state.ctx id).kept, r.executes key = false) : AnnulInv key id ts y := by
  have hcancelled : y.state.cancelledByUid =
      (undoneRecords target (x.state.ctx j).processed).reverse.foldl restoreTombstone x.state.cancelledByUid := by
    rw [hy, unwound_eq]
  by_cases hj : id = j
  · subst hj
    have hctx : y.state.ctx id = (x.state.ctx id).rewind (model id) target := by
      rw [hy, unwound_ctx, Function.update_self]
    have hsplit := (x.state.ctx id).kept_split target
    have hkept : (y.state.ctx id).kept = (x.state.ctx id).fossils ++ keptRecords target (x.state.ctx id).processed := by
      rw [hctx, rewind_kept]
    have hsub : ∀ rec ∈ (y.state.ctx id).kept, rec ∈ (x.state.ctx id).kept := by
      intro rec hrec
      rw [hsplit, ← hkept]
      exact List.mem_append_left _ hrec
    have hprocessed : (y.state.ctx id).processed = keptRecords target (x.state.ctx id).processed := by
      rw [hctx, LPContext.rewind_eq]
    have hundone_sub : ∀ rec ∈ undoneRecords target (x.state.ctx id).processed, rec ∈ (x.state.ctx id).processed :=
      fun rec hrec => (List.rtakeWhile_suffix _ _).subset hrec
    by_cases hannuls : ∃ rec ∈ undoneRecords target (x.state.ctx id).processed, rec.annuls key = true
    · obtain ⟨a, ha, ha'⟩ := hannuls
      have hnone : y.state.cancelledByUid key = none := by
        rw [hcancelled]
        refine restore_own _ ⟨a, List.mem_reverse.mpr ha, ha'⟩ fun rec hrec hrec' => ?_
        have hmem := hundone_sub rec (List.mem_reverse.mp hrec)
        exact (h.tombed rec (List.mem_append_left _ hmem) hrec').1
      have hclear : ∀ rec ∈ (y.state.ctx id).kept, rec.annuls key = false := by
        rw [hkept]
        exact hf.kept_clash hsplit ha ha'
      have hafter : ∀ rec ∈ x.activity.undoing, rec.annuls key = false := by
        intro rec hrec
        by_contra hrec'
        have := hf.hand_clash (undoing_hand hrec) (by simpa [Event.annuls, ProcessedRecord.annuls] using hrec') a
          (List.mem_append_right _ (hundone_sub a ha))
        simp [this] at ha'
      refine ⟨fun rec hrec hrec' => ?_, fun hne => absurd hnone hne, fun ev _ _ _ => hclear, hstage,
        fun rec hrec hrec' => ?_⟩
      · rw [hundoing] at hrec
        rcases List.mem_append.mp hrec with hrec | hrec
        · simp [hclear rec (List.mem_append_right _ hrec)] at hrec'
        · simp [hafter rec hrec] at hrec'
      · simp [hclear rec hrec] at hrec'
    · have hnone : ∀ rec ∈ undoneRecords target (x.state.ctx id).processed, rec.annuls key = false := by
        simpa using hannuls
      have hsame : y.state.cancelledByUid key = x.state.cancelledByUid key := by
        rw [hcancelled]
        exact restore_others _ _ fun rec hrec => hnone rec (List.mem_reverse.mp hrec)
      refine ⟨fun rec hrec hrec' => ?_, fun hne => ?_, fun ev hev hpos hkey rec hrec => ?_, hstage,
        fun a ha ha' r hr => h.apart a (hsub a ha) ha' r (hsub r hr)⟩
      · rw [hsame]
        rw [hundoing, hprocessed] at hrec
        refine h.tombed rec ?_ hrec'
        exact (List.mem_append.mp hrec).elim
          (fun hrec => List.mem_append_left _ ((List.rdropWhile_prefix _ _).subset hrec))
          fun hrec => List.mem_append_right _ hrec
      · rw [hsame] at hne
        obtain ⟨rec, hrec, hrec'⟩ := h.source hne
        refine ⟨rec, ?_, hrec'⟩
        rw [hundoing, hkept]
        rw [hsplit] at hrec
        rcases List.mem_append.mp hrec with hrec | hrec
        · rcases List.mem_append.mp hrec with hrec | hrec
          · exact List.mem_append_left _ hrec
          · simp [hnone rec hrec] at hrec'
        · exact List.mem_append_right _ hrec
      · rw [hhand] at hev
        exact h.hand ev hev hpos hkey rec (hsub rec hrec)
  · have hctx : y.state.ctx id = x.state.ctx id := by
      rw [hy, unwound_ctx, Function.update_of_ne hj]
    have hsame : y.state.cancelledByUid key = x.state.cancelledByUid key := by
      rw [hcancelled]
      refine restore_others _ _ fun rec hrec => ?_
      have hmem : rec ∈ (x.state.ctx j).processed := (List.rtakeWhile_suffix _ _).subset (List.mem_reverse.mp hrec)
      have hdst := (hf.books.ledger j).filed rec ((hf.books.ledger j).processed_sub hmem)
      by_contra hrec'
      have hkey := annuls_key (by simpa using hrec')
      exact hj ((hf.cancelling.placed _ (hf.kept_mem (List.mem_append_right _ hmem)) hkey).1.symm.trans hdst)
    refine h.carry (by rw [hctx]) (by rw [hctx]) (fun _ _ => by rw [hundoing]) hsame (fun ev hev => hhand ▸ hev) ?_
    rwa [hctx] at hstage

/-! ## Moves -/

theorem Move.annulInv {x y : Situation Q σ} (hm : Move model cfg x y) (hf : Footing cfg key id ts x)
    (hc : Cancelling cfg key id ts y.state) (h : AnnulInv key id ts x) : AnnulInv key id ts y := by
  cases hm with
  | quiet hq => exact h.same (by rw [hq.ctx]; exact .refl _) rfl (by rw [hq]) (fun _ h => h) fun _ h => h
  | @register s i hi =>
      by_cases hid : id = i
      · subst hid
        obtain ⟨hfossils, hprocessed⟩ := List.append_eq_nil_iff.mp (hf.books.kept_of_fresh hi)
        dsimp only at hfossils hprocessed
        refine h.carry ?_ ?_ (fun _ _ => Iff.rfl) rfl (fun _ h => h) (by rintro _ ⟨⟩)
        · simp [hprocessed]
        · simp [hfossils]
      · refine h.same ?_ rfl rfl (fun _ h => h) fun _ h => h
        dsimp only
        rw [Function.update_of_ne hid]
        exact .refl _
  | prepare => exact h.same (sameBooks_setLp ..) rfl rfl (fun _ h => h) fun _ h => h
  | receive =>
      exact h.same (by rw [receiveEvent_eq]; exact .refl _) rfl (by rw [receiveEvent_eq]) (fun _ h => h) fun _ h => h
  | acknowledge =>
      exact h.same (by rw [receiveAck_eq]; exact .refl _) rfl (by rw [receiveAck_eq]) (fun _ h => h) fun _ h => h
  | migrate => exact h.same (sameBooks_setLp ..) rfl rfl (fun _ h => h) fun _ h => h
  | sent =>
      refine h.same (sameWork_sent ..).books (undoing_noteCall ..) ?_ (fun _ hev => ?_) fun _ => annulled_noteCall
      · rw [posted_eq]
        rfl
      · rwa [hand_noteCall] at hev
  | unlogged =>
      refine h.same ?_ (undoing_noteCall ..) ?_ (fun _ hev => ?_) fun _ => annulled_noteCall
      · rw [posted_ctx]
        exact (sameWork_renumber ..).books
      · rw [posted_eq]
        rfl
      · rwa [hand_noteCall] at hev
  | refused =>
      refine h.same (sameWork_renumber ..).books (undoing_noteCall ..) rfl (fun _ hev => ?_) fun _ => annulled_noteCall
      rwa [hand_noteCall] at hev
  | @pop s ev _ htop hskip =>
      refine ⟨h.tombed, h.source, fun e he hpos hkey rec hrec => ?_, by rintro _ ⟨⟩, h.apart⟩
      cases he
      have hmem := mem_of_top? htop
      by_contra hannuls
      have hannuls : rec.annuls key = true := by simpa using hannuls
      rcases List.mem_append.mp hrec with hrec | hrec
      · exact hf.no_fossil (.pending hmem) (hf.pending_mem hmem) hkey rec hrec (annuls_key hannuls)
      · have htomb : s.cancelledByUid key = some ts := (h.tombed rec (List.mem_append_left _ hrec) hannuls).2
        have hfree := hskip.resolve_left (by simp [hpos])
        rw [tombstoned, hkey] at hfree
        simp [htomb] at hfree
  | @straggle s ev => exact h.unwound hf rfl rfl rfl (by rintro _ ⟨⟩)
  | requeue => exact h.same (.refl _) rfl rfl (by rintro _ ⟨⟩) (by rintro _ ⟨⟩)
  | @enter s ev =>
      exact h.modifyCtx ev.dst (LPContext.enter ev) (fun _ => ⟨rfl, rfl⟩) rfl (fun _ h => h) (by rintro _ ⟨⟩)
  | store => exact h.same (sameBooks_setLp ..) rfl rfl (fun _ h => h) fun _ h => h
  | @finish before ev calls s rec hrun =>
      obtain ⟨hpos, -⟩ := hf.books.stage
      have hev : rec.ev = ev := hrun.filled.ev
      have hannuls : rec.annuls key = false := by simp [ProcessedRecord.annuls, hev, hpos]
      by_cases hid : id = ev.dst
      · subst hid
        refine h.push rec ?_ ?_ rfl rfl (fun r hr => ?_) (fun hrec => ?_) fun hrec => ?_
        · dsimp only
          rw [pushProcessed, modifyCtx_self, left_self]
        · dsimp only
          rw [pushProcessed, modifyCtx_self, left_self]
        · refine ⟨(by rintro ⟨⟩), ?_⟩
          rintro rfl
          simp [hannuls] at hr
        · exact h.hand ev rfl hpos (hev ▸ executes_key hrec)
        · simp [hannuls] at hrec
      · have hctx : (pushProcessed ev.dst rec (left ev.dst s)).ctx id = s.ctx id := by
          rw [pushProcessed, modifyCtx_of_ne _ _ hid, left_of_ne s hid]
        exact h.carry (by rw [hctx]) (by rw [hctx]) (fun _ _ => Iff.rfl) rfl (by rintro _ ⟨⟩) (by rintro _ ⟨⟩)
  | release =>
      exact h.same (by rw [released_eq]; exact .refl _) rfl (by rw [released_eq]) (fun _ h => h) (by rintro _ ⟨⟩)
  | @defer before ev calls s =>
      have hleft : AnnulInv key id ts ⟨.idle, [], left ev.dst s⟩ :=
        h.modifyCtx ev.dst (fun c => { c with inEvent := false }) (fun _ => ⟨rfl, rfl⟩) rfl (by rintro _ ⟨⟩)
          (by rintro _ ⟨⟩)
      have hback : AnnulInv key id ts ⟨.idle, [], (left ev.dst s).modifyCtx ev.dst fun c =>
          { c with vt := before.vt, currentExecTs := before.vt }⟩ :=
        hleft.modifyCtx ev.dst _ (fun _ => ⟨rfl, rfl⟩) rfl (by rintro _ ⟨⟩) (by rintro _ ⟨⟩)
      exact hback.same (.refl _) rfl rfl (fun _ h => h) (by rintro _ ⟨⟩)
  | @abort before ev calls s =>
      exact h.modifyCtx ev.dst (fun c => { c with inEvent := false }) (fun _ => ⟨rfl, rfl⟩) rfl (fun _ h => h)
        (by rintro _ ⟨⟩)
  | @mark s ev hanti hdst hvt =>
      have hev : (antiRecord ev s).ev = ev := (antiRecord_fits ev s).1
      by_cases hkey : ev.uidKey = key
      · have hannuls : ev.annuls key = true := by simp [Event.annuls, hanti, hkey]
        have hclear := hf.hand_clash rfl hannuls
        have hnone : s.cancelledByUid key = none := by
          by_contra hne
          obtain ⟨rec, hrec, hrec'⟩ := h.source hne
          simp only [Activity.undoing, List.append_nil] at hrec
          simp [hclear rec hrec] at hrec'
        refine ⟨fun rec hrec hrec' => ?_, fun _ => ⟨antiRecord ev s, ?_, ?_⟩, fun e he hpos => ?_,
          by rintro _ ⟨⟩, h.apart⟩
        · rcases List.mem_append.mp hrec with hrec | hrec
          · simp [hclear rec (List.mem_append_right _ hrec)] at hrec'
          · rw [List.mem_singleton.mp hrec, antiRecord_saved, hkey]
            refine ⟨hnone, ?_⟩
            have hts := (hf.cancelling.placed ev (hf.hand_mem rfl) hkey).2
            simp [insertTombstone, hkey, hnone, hts]
        · exact List.mem_append_right _ (List.mem_singleton_self _)
        · simpa [ProcessedRecord.annuls, Event.annuls, hev] using hannuls
        · cases he
          rw [hev] at hpos
          simp [hanti] at hpos
      · refine h.carry rfl rfl (fun rec hrec => ⟨fun hmem => ?_, by rintro ⟨⟩⟩) ?_ (fun e he => ?_) (by rintro _ ⟨⟩)
        · rw [List.mem_singleton.mp hmem] at hrec
          exact absurd (hev ▸ annuls_key hrec) hkey
        · exact Function.update_of_ne (Ne.symm hkey) ..
        · cases he
          rw [hev]
          rfl
  | @matched s rec r hdst hfind =>
      refine h.unwound hf rfl rfl rfl fun rec' hrec' hannuls r' hr' => ?_
      cases hrec'
      have hid : rec.ev.dst = id := (hf.cancelling.placed _ (hf.hand_mem rfl) (annuls_key hannuls)).1
      have hmem : r ∈ (s.ctx id).processed := hid ▸ lastMatch_mem hfind
      have hr : r.executes key = true := executes_of_matchesAnti hannuls (List.find?_some hfind)
      have hts : r.ev.ts = ts := hf.kept_ts (List.mem_append_right _ hmem) (executes_key hr)
      have hkept : ((unwound model rec.ev.dst r.ev.ts s).ctx id).kept =
          (s.ctx id).fossils ++ keptRecords ts (s.ctx id).processed := by
        rw [unwound_ctx, hid, Function.update_self, rewind_kept, hts]
      by_contra hexecutes
      have hexecutes := executes_key (by simpa using hexecutes)
      rw [hkept] at hr'
      rcases List.mem_append.mp hr' with hr' | hr'
      · exact hf.no_fossil (.hand rfl) (hf.hand_mem rfl) (annuls_key hannuls) r' hr' hexecutes
      · have hsub : r' ∈ (s.ctx id).processed := (List.rdropWhile_prefix _ _).subset hr'
        have hlt := keptRecords_lt (hf.books.context id).sorted r' hr'
        rw [hf.kept_ts (List.mem_append_right _ hsub) hexecutes] at hlt
        exact lt_irrefl _ hlt
  | @unmatched s rec hnone =>
      refine h.carry rfl rfl (fun _ _ => Iff.rfl) rfl (fun _ h => h) fun rec' hrec' hannuls r hr => ?_
      cases hrec'
      have hid : rec.ev.dst = id := (hf.cancelling.placed _ (hf.hand_mem rfl) (annuls_key hannuls)).1
      by_contra hexecutes
      have hexecutes : r.executes key = true := by simpa using hexecutes
      rcases List.mem_append.mp hr with hr | hr
      · exact hf.no_fossil (.hand rfl) (hf.hand_mem rfl) (annuls_key hannuls) r hr (executes_key hexecutes)
      · have hmatch := List.find?_eq_none.mp hnone r (by rw [hid]; exact List.mem_reverse.mpr hr)
        exact hmatch (matchesAnti_of_executes hannuls hexecutes)
  | @settle s rec =>
      obtain ⟨hanti, -⟩ := hf.books.stage
      by_cases hid : id = rec.ev.dst
      · subst hid
        refine h.push rec ?_ ?_ rfl rfl (fun r _ => List.mem_singleton) (fun hrec => ?_) fun hrec => ?_
        · dsimp only
          rw [pushProcessed, modifyCtx_self, modifyCtx_self]
        · dsimp only
          rw [pushProcessed, modifyCtx_self, modifyCtx_self]
        · simp [ProcessedRecord.executes, hanti] at hrec
        · exact h.stage rec rfl hrec
      · have hctx : (pushProcessed rec.ev.dst rec (s.modifyCtx rec.ev.dst fun c =>
            { c with vt := rec.ev.ts })).ctx id = s.ctx id := by
          rw [pushProcessed, modifyCtx_of_ne _ _ hid, modifyCtx_of_ne _ _ hid]
        refine h.carry (by rw [hctx]) (by rw [hctx]) (fun r hr => ⟨(by rintro ⟨⟩), fun hmem => ?_⟩) rfl
          (by rintro _ ⟨⟩) (by rintro _ ⟨⟩)
        rw [List.mem_singleton.mp hmem] at hr
        exact absurd (hf.cancelling.placed _ (hf.hand_mem rfl) (annuls_key hr)).1.symm hid
  | annul =>
      refine h.same (sameWork_annul ..).books rfl ?_ (fun _ h => h) fun _ h => h
      rw [posted_eq]
      rfl
  | @stuck a i log owed s ev u n k w what ha =>
      have hbooks : SameBooks (s.ctx id) ((renumber i u n k w s).ctx id) := (sameWork_renumber i u n k w s id).books
      refine h.carry hbooks.processed hbooks.fossils (fun r hr => ⟨(by rintro ⟨⟩), fun hmem => ?_⟩) rfl
          (by rintro _ ⟨⟩) (by rintro _ ⟨⟩)
      have hhand : some r.ev = some ev := (undoing_hand hmem).symm.trans (hand_of_unwinding ha)
      have hlost := hc.found ev (List.mem_append_right _ (List.mem_singleton_self _))
      rw [← Option.some.inj hhand] at hlost
      exact absurd (hr.symm.trans hlost) (by simp)
  | lose => exact h.same (.refl _) rfl rfl (by rintro _ ⟨⟩) (by rintro _ ⟨⟩)
  | _ => exact h.same (.refl _) rfl rfl (fun _ h => h) fun _ h => h

theorem GvtMove.annulInv {x y : Situation Q σ} (hm : GvtMove sound final cfg x y) (hf : Footing cfg key id ts x)
    (h : AnnulInv key id ts x) : AnnulInv key id ts y := by
  have hprune : ∀ (s t : Simulation Q σ) (gvt : TimeStamp), Footing cfg key id ts s.atRest → AnnulInv key id ts s.atRest →
      t.ctx = (pruneToGvt cfg gvt s).ctx → t.cancelledByUid = (pruneToGvt cfg gvt s).cancelledByUid →
      AnnulInv key id ts t.atRest := by
    intro s t gvt hf h hctx hcancelled
    have hkept : (t.ctx id).kept = (s.ctx id).kept := by
      rw [hctx]
      exact prune_proj cfg (·.kept) kept_prune gvt s id
    have hall : ∀ rec ∈ (t.ctx id).processed, rec ∈ (s.ctx id).processed ∧ gvt ≤ rec.ev.ts := by
      intro rec hrec
      rw [hctx] at hrec
      exact ⟨mem_prune_processed hrec, hf.books.prune_le gvt id rec hrec⟩
    refine ⟨fun rec hrec hannuls => ?_, fun hne => ?_, by rintro _ ⟨⟩, by rintro _ ⟨⟩, ?_⟩
    · obtain ⟨hmem, hle⟩ := hall rec (by simpa [atRest, Activity.undoing] using hrec)
      obtain ⟨hsaved, htomb⟩ := h.tombed rec (List.mem_append_left _ hmem) hannuls
      refine ⟨hsaved, ?_⟩
      change t.cancelledByUid key = some ts
      rw [hcancelled]
      change (s.cancelledByUid key).filter _ = some ts
      rw [show s.cancelledByUid key = some ts from htomb, Option.filter_some,
        if_pos (by simpa [← hf.kept_ts (List.mem_append_right _ hmem) (annuls_key hannuls)] using hle)]
    · have hold : s.cancelledByUid key ≠ none := by
        intro hnone
        apply hne
        change t.cancelledByUid key = none
        rw [hcancelled]
        change (s.cancelledByUid key).filter _ = none
        rw [hnone]
        rfl
      have hsource := h.source hold
      simp only [atRest, Activity.undoing, List.append_nil] at hsource ⊢
      rwa [hkept]
    · simp only [atRest]
      rw [hkept]
      exact h.apart
  cases hm with
  | advance => exact hprune _ _ _ hf h rfl rfl
  | prune => exact hprune _ _ _ hf h rfl rfl
  | flush => exact hprune _ _ _ hf h rfl rfl
  | flip => exact h.same (.refl _) rfl rfl (fun _ h => h) fun _ h => h
  | reset => exact h.same (.refl _) rfl rfl (fun _ h => h) fun _ h => h

/-! ## What is dropped -/

theorem Move.dropped_eq {x y : Situation Q σ} (hm : Move model cfg x y) :
    y.state.hist.dropped = x.state.hist.dropped ∨
      x.activity = .idle ∧ ∃ evs, y.state.hist.dropped = x.state.hist.dropped ++ evs ∧
        ∀ ev ∈ evs, ev ∈ Q.elems x.state.pending ∧ x.state.tombstoned ev = true := by
  cases hm with
  | quiet hq => exact Or.inl (by rw [hq])
  | receive => exact Or.inl (by rw [receiveEvent_eq])
  | acknowledge => exact Or.inl (by rw [receiveAck_eq])
  | sent => exact Or.inl (by rw [posted_eq]; rfl)
  | unlogged => exact Or.inl (by rw [posted_eq]; rfl)
  | annul => exact Or.inl (by rw [posted_eq]; rfl)
  | straggle => exact Or.inl (by rw [unwound_eq])
  | matched => exact Or.inl (by rw [unwound_eq])
  | release => exact Or.inl (by rw [released_eq]; rfl)
  | @discard s skip hskip =>
      refine Or.inr ⟨rfl, _, rfl, fun ev hev => ⟨?_, hskip ev (Q.skip_of_mem_discardWhile skip _ _ ev hev)⟩⟩
      dsimp only
      rw [Q.elems_discardWhile skip (Q.size s.pending) s.pending, Multiset.mem_add]
      exact Or.inl (Multiset.mem_coe.mpr hev)
  | _ => exact Or.inl rfl

/-- The anti-message is not dropped. -/
theorem Move.spares {x y : Situation Q σ} (hm : Move model cfg x y) (hf : Footing cfg key id ts x)
    (h : AnnulInv key id ts x) (hx : ∀ ev ∈ x.state.hist.dropped, ev.annuls key = false) :
    ∀ ev ∈ y.state.hist.dropped, ev.annuls key = false := by
  rcases hm.dropped_eq with heq | ⟨hidle, evs, heq, hevs⟩
  · rwa [heq]
  · rw [heq]
    intro ev hev
    rcases List.mem_append.mp hev with hev | hev
    · exact hx ev hev
    · obtain ⟨hpending, htomb⟩ := hevs ev hev
      by_contra hannuls
      have hannuls : ev.annuls key = true := by simpa using hannuls
      have hkey := Event.annuls_key hannuls
      obtain ⟨rec, hrec, hrec'⟩ := h.source (by
        rw [tombstoned, hkey, Option.isSome_iff_ne_none] at htomb
        exact htomb)
      simp only [hidle, Activity.undoing, List.append_nil] at hrec
      simp [hf.pending_clash hpending hannuls rec hrec] at hrec'

/-! ## Runs -/

theorem annulInv_create : AnnulInv key id ts (Simulation.create Q model).atRest := by
  refine ⟨?_, ?_, by rintro _ ⟨⟩, by rintro _ ⟨⟩, ?_⟩ <;>
    simp [Simulation.create, Simulation.atRest, Activity.undoing, LPContext.kept]

theorem Cancelling.run {y : Situation Q σ} (hc : Cancelling cfg key id ts y.state)
    (h : AllMoves True False model cfg (Simulation.create Q model).atRest y) (ht : Covered y.state.hist) :
    Footing cfg key id ts y ∧ AnnulInv key id ts y ∧ ∀ ev ∈ y.state.hist.dropped, ev.annuls key = false := by
  have hfooting : ∀ {z : Situation Q σ}, AllMoves True False model cfg (Simulation.create Q model).atRest z →
      Covered z.state.hist → Cancelling cfg key id ts z.state → Footing cfg key id ts z := fun hz ht hc =>
    ⟨AllMoves.booksInv hz booksInv_create, AllMoves.boundInv hz booksInv_create boundInv_create ht,
      AllMoves.present_eq hz, hc, AllMoves.finished_eq hz⟩
  refine ⟨hfooting h ht hc, ?_⟩
  induction h with
  | refl => exact ⟨annulInv_create, by simp [Simulation.create, Simulation.atRest]⟩
  | @tail x y hxs hm ih =>
      have hle : x.state.hist.Extends y.state.hist := hm.elim (fun hm => hm.extends) fun hm => hm.extends
      obtain ⟨hx, hdropped⟩ := ih (hc.mono hle) (ht.mono hle)
      have hf := hfooting hxs (ht.mono hle) (hc.mono hle)
      rcases hm with hm | hm
      · exact ⟨hm.annulInv hf hc hx, hm.spares hf hx hdropped⟩
      · refine ⟨hm.annulInv hf hx, ?_⟩
        cases hm <;> exact hdropped

/-- What has come in of the anti-message's key has not been committed with an event, and when nothing waits any
more, the anti-message is in place and no event with its key is. -/
theorem Cancelling.settled {y : Situation Q σ} (hc : Cancelling cfg key id ts y.state)
    (h : AllMoves True False model cfg (Simulation.create Q model).atRest y) (ht : Covered y.state.hist)
    (hidle : y.activity = .idle) (hnone : y.state.deferred = []) {anti : Event} (hanti : anti ∈ y.state.entered cfg)
    (hannuls : anti.annuls key = true) :
    (∀ rec ∈ (y.state.ctx id).fossils, rec.executes key = false) ∧
      (Q.elems y.state.pending = 0 → ∀ rec ∈ (y.state.ctx id).kept, rec.executes key = false) := by
  obtain ⟨hf, hinv, hdropped⟩ := hc.run h ht
  have hkey := Event.annuls_key hannuls
  have hplace := hf.present anti
  have hcount : 0 < (y.state.entered cfg).count anti := List.count_pos_iff.mpr hanti
  have hlost : y.state.hist.lost.count anti = 0 :=
    List.count_eq_zero.mpr fun hmem => by simp [hc.found anti hmem] at hannuls
  have hdrop : y.state.hist.dropped.count anti = 0 :=
    List.count_eq_zero.mpr fun hmem => by simp [hdropped anti hmem] at hannuls
  have hdst : anti.dst = id := (hc.placed anti hanti hkey).1
  simp only [Situation.present, Simulation.present, hidle, Activity.hand, Option.toList_none, List.count_nil,
    hnone, hlost, hdrop, hdst, add_zero] at hplace
  have hkept : 0 < ((y.state.ctx id).kept.map (·.ev)).count anti →
      ∀ rec ∈ (y.state.ctx id).kept, rec.executes key = false := by
    intro hpos
    obtain ⟨a, ha, heq⟩ := List.mem_map.mp (List.count_pos_iff.mp hpos)
    refine hinv.apart a ha ?_
    rw [← heq] at hannuls
    exact hannuls
  refine ⟨fun rec hrec => ?_, fun hempty => hkept ?_⟩
  · by_contra hexecutes
    have hexecutes : rec.executes key = true := by simpa using hexecutes
    have hpending : 0 < (Q.elems y.state.pending).count anti := by
      by_contra hzero
      have hpos : 0 < ((y.state.ctx id).kept.map (·.ev)).count anti := by omega
      simp [hkept hpos rec (List.mem_append_left _ hrec)] at hexecutes
    have hmem := Multiset.count_pos.mp hpending
    exact hf.no_fossil (.pending hmem) hanti hkey rec hrec (executes_key hexecutes)
  · rw [hempty, Multiset.count_zero] at hplace
    omega

/-- An event whose anti-message has come in is not among the committed records, and once nothing waits it is not in
place. -/
theorem Cancelling.apart {allowed : Simulation Q σ → HostOp → Prop} {s : Simulation Q σ}
    (hc : Cancelling cfg key id ts s) (h : Reachable model cfg allowed s) (hleaves : Leaves allowed)
    (hsound : ∀ s op, allowed s op → op.SoundReduction cfg) (hoff : cfg.enableInstallBeforeUseBuffering = false)
    (ht : Timely s.hist) {anti : Event} (hanti : anti ∈ s.entered cfg) (hannuls : anti.annuls key = true) :
    (∀ i, ∀ rec ∈ (s.ctx i).fossils, rec.executes key = false) ∧
      (Q.elems s.pending = 0 → ∀ i, ∀ rec ∈ (s.ctx i).kept, rec.executes key = false) := by
  have hnone := h.noDeferral hoff
  have hcovered := hnone.covered ht
  -- elsewhere there is nothing with the key at all
  have helsewhere : ∀ i, i ≠ id → ∀ rec ∈ (s.ctx i).kept, rec.executes key = false := by
    intro i hi rec hrec
    by_contra hexecutes
    have hdst := (h.booksInv.ledger i).filed rec ((h.booksInv.ledger i).kept_sub hrec)
    have hmoves : AllMoves True True model cfg (Simulation.create Q model).atRest s.atRest := h.moves fun _ => hsound
    have hmem : rec.ev ∈ s.entered cfg := entered_of_kept hmoves.present_eq h.booksInv hrec
    exact hi (hdst.symm.trans (hc.placed _ hmem (executes_key (by simpa using hexecutes))).1)
  have hown : (∀ rec ∈ (s.ctx id).fossils, rec.executes key = false) ∧
      (Q.elems s.pending = 0 → ∀ rec ∈ (s.ctx id).kept, rec.executes key = false) := by
    obtain ⟨t, hmoves, -, rfl | ⟨hempty, hlast, hmig⟩⟩ := h.under_way hleaves fun _ => hsound
    · exact hc.settled hmoves hcovered rfl (congrArg (List.flatMap Prod.snd) hnone.empty) hanti hannuls
    · have hlast : AllMoves True False model cfg (flushed cfg t).atRest s.atRest := hlast.all
      have hle : t.hist.Extends s.hist := AllMoves.extends hlast
      have hentered : s.entered cfg = t.entered cfg := by
        rw [hmig.rest]
        rfl
      have hdeferred : t.deferred = [] := by
        have hsame : s.deferredTargeted = t.deferredTargeted := by
          rw [hmig.rest]
          rfl
        rw [Simulation.deferred, ← hsame, hnone.empty]
        rfl
      obtain ⟨-, hkept⟩ := (hc.mono hle).settled hmoves (hcovered.mono hle) rfl hdeferred (hentered ▸ hanti) hannuls
      have hsame : (s.ctx id).kept = (t.ctx id).kept := by
        rw [hmig.ctx]
        exact prune_proj cfg (·.kept) kept_prune maxStamp t id
      have hall : ∀ rec ∈ (s.ctx id).kept, rec.executes key = false := hsame ▸ hkept (hempty trivial)
      exact ⟨fun rec hrec => hall rec (List.mem_append_left _ hrec), fun _ => hall⟩
  have hfossils : ∀ i, ∀ rec ∈ (s.ctx i).fossils, rec.executes key = false := by
    intro i rec hrec
    by_cases hi : i = id
    · exact hown.1 rec (hi ▸ hrec)
    · exact helsewhere i hi rec (List.mem_append_left _ hrec)
  refine ⟨hfossils, fun hempty i => ?_⟩
  by_cases hi : i = id
  · rw [hi]
    exact hown.2 hempty
  · exact helsewhere i hi

/-- An event whose anti-message comes in is never committed, whichever of them comes first and however often each
of them is rolled back and dealt with again. It is in no flush, and once nothing waits, it is not in place. -/
theorem cancelled_never_commits {allowed : Simulation Q σ → HostOp → Prop} {s : Simulation Q σ}
    (h : Reachable model cfg allowed s) (hleaves : Leaves allowed)
    (hsound : ∀ s op, allowed s op → op.SoundReduction cfg) (hoff : cfg.enableInstallBeforeUseBuffering = false)
    (ht : Timely s.hist) (hc : Cancelling cfg key id ts s) {anti : Event} (hanti : anti ∈ s.entered cfg)
    (hannuls : anti.annuls key = true) :
    (∀ i, ∀ rec ∈ (s.ctx i).fossils, rec.executes key = false) ∧
      (Q.elems s.pending = 0 → ∀ i, ∀ rec ∈ (s.ctx i).kept, rec.executes key = false) ∧
      ∀ (ι : Type) (sink : Sink Q σ ι), sink.Served cfg → ∀ out ∈ sink.calls s,
        ∃ item ∈ committedItems s, out ∈ sink.render item ∧ item.2.executes key = false := by
  obtain ⟨hfossils, hkept⟩ := hc.apart h hleaves hsound hoff ht hanti hannuls
  refine ⟨hfossils, hkept, fun ι sink hserved out hout => ?_⟩
  obtain ⟨bound, hexact, -⟩ := hserved.reachable h hleaves hsound ((h.noDeferral hoff).covered ht)
  obtain ⟨item, hitem, hmem⟩ := List.mem_flatMap.mp ((Multiset.coe_eq_coe.mp hexact).subset hout)
  refine ⟨item, hitem, hmem, ?_⟩
  obtain ⟨i, -, hitem⟩ := List.mem_flatMap.mp hitem
  obtain ⟨rec, hrec, heq⟩ := List.mem_map.mp hitem
  rw [← heq]
  exact hfossils i rec hrec

def cancelledAt (time : UInt64) (uid : EventUid) (anti : Bool) : Event :=
  { ts := ⟨time, 1⟩, src := 9, dst := 1, uid := uid, isAnti := anti, payload := { kind := 3 } }

/-- The event at 20 has been executed when its anti-message comes, which an event at 10 then rolls back. -/
def cancelledOps : List HostOp :=
  [.addLp 1, .addLp 2, .schedule (cancelledAt 20 1 false), .runOne {} true, .schedule (cancelledAt 20 1 true),
    .runOne {} true, .schedule (cancelledAt 10 2 false), .runOne {} true, .runOne {} true, .runOne {} true]

def cancelledRun : Simulation sortedEventQueue ByteBuffer :=
  hostRun (fun _ => journal) {} cancelledOps (Simulation.create _ fun _ => journal)

theorem cancelled_never_commits_late :
    (cancelledRun.ctx 1).undone.map (fun rec => (rec.ev.ts.time, rec.ev.isAnti)) = [(20, false), (20, true)] ∧
      (cancelledRun.ctx 1).kept.map (fun rec => (rec.ev.ts.time, rec.ev.isAnti)) = [(10, false), (20, true)] ∧
      (cancelledRun.ctx 1).kept.all (fun rec => !rec.executes ⟨9, 1⟩) = true := by
  have hrun : Reachable (fun _ => journal) {} (fun s _ => s.finished = false) cancelledRun :=
    Reachable.hostRun .create (by decide +kernel)
  have hcancelling : Cancelling {} ⟨9, 1⟩ 1 ⟨20, 1⟩ cancelledRun :=
    ⟨by decide +kernel, by decide +kernel, by decide +kernel⟩
  have hentered : cancelledAt 20 1 true ∈ cancelledRun.entered {} := by decide +kernel
  have hempty : sortedEventQueue.elems cancelledRun.pending = 0 := by decide +kernel
  obtain ⟨-, hall, -⟩ := cancelled_never_commits hrun (fun _ _ h => h)
    (fun _ op _ => HostOp.soundReduction_of_alone rfl rfl op) rfl ⟨by decide +kernel, by decide +kernel⟩ hcancelling
    hentered rfl
  refine ⟨by decide +kernel, by decide +kernel, ?_⟩
  simpa using hall hempty 1

end WarpSim

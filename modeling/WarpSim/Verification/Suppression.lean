import WarpSim.Verification.Bounds
import WarpSim.Verification.Stages

/-! # What keeps an annulled event from being executed

An anti-message that comes before its event leaves a tombstone, which `pop_next_` looks up. The
tombstone is rolled back with the record of the anti-message and expires with GVT. -/

namespace WarpSim

variable {Q : EventQueue} {σ : Type} {sound final : Prop} {model : Model σ} {cfg : SimulationConfig}
  {key : UidKey} {id : LPId}

open Prog Simulation

/-! ## Tombstones and records -/

/-- The record is of an anti-message with the key. -/
def ProcessedRecord.annuls (key : UidKey) (rec : ProcessedRecord) : Bool :=
  rec.ev.isAnti && decide (rec.ev.uidKey = key)

/-- The record is of an event with the key. -/
def ProcessedRecord.executes (key : UidKey) (rec : ProcessedRecord) : Bool :=
  !rec.ev.isAnti && decide (rec.ev.uidKey = key)

/-- The stamp of the first anti-message with the key. -/
def firstAnti (key : UidKey) (records : List ProcessedRecord) : Option TimeStamp :=
  (records.find? (·.annuls key)).map (·.ev.ts)

/-- The tombstone that the record brings back when it is undone. -/
def ProcessedRecord.saved (rec : ProcessedRecord) : Option TimeStamp :=
  if rec.cancelHadEntry then some rec.cancelPrevTs else none

/-- Each anti-message with the key has saved the stamp of the first one before it. -/
def Saves (key : UidKey) (records : List ProcessedRecord) : Prop :=
  ∀ before rec after, records = before ++ rec :: after → rec.annuls key = true →
    rec.saved = firstAnti key before

theorem firstAnti_snoc (records : List ProcessedRecord) (rec : ProcessedRecord) :
    firstAnti key (records ++ [rec]) =
      (firstAnti key records).or (if rec.annuls key then some rec.ev.ts else none) := by
  unfold firstAnti
  rw [List.find?_append]
  cases records.find? (·.annuls key) with
  | some first => rfl
  | none => cases h : rec.annuls key <;> simp [h]

theorem firstAnti_eq_none {records : List ProcessedRecord} :
    firstAnti key records = none ↔ ∀ rec ∈ records, rec.annuls key = false := by
  simp [firstAnti]

theorem firstAnti_append_of_none {before after : List ProcessedRecord}
    (h : ∀ rec ∈ before, rec.annuls key = false) : firstAnti key (before ++ after) = firstAnti key after := by
  have hnone : before.find? (·.annuls key) = none := by simpa using h
  simp [firstAnti, List.find?_append, hnone]

theorem firstAnti_mem {records : List ProcessedRecord} {ts : TimeStamp}
    (h : firstAnti key records = some ts) : ∃ rec ∈ records, rec.annuls key = true ∧ rec.ev.ts = ts := by
  obtain ⟨rec, hfind, hts⟩ := Option.map_eq_some_iff.mp h
  exact ⟨rec, List.mem_of_find?_eq_some hfind, by simpa using List.find?_some hfind, hts⟩

theorem Saves.nil : Saves key [] := by
  intro before rec after h
  simp at h

theorem Saves.left {records records' : List ProcessedRecord} (h : Saves key (records ++ records')) :
    Saves key records := by
  intro before rec after heq hrec
  exact h before rec (after ++ records') (by rw [heq]; simp) hrec

theorem Saves.of_prefix {records records' : List ProcessedRecord} (h : Saves key records)
    (hpre : records' <+: records) : Saves key records' := by
  obtain ⟨rest, rfl⟩ := hpre
  exact h.left

theorem Saves.last {records : List ProcessedRecord} {rec : ProcessedRecord}
    (h : Saves key (records ++ [rec])) (hrec : rec.annuls key = true) :
    rec.saved = firstAnti key records :=
  h records rec [] rfl hrec

theorem Saves.snoc {records : List ProcessedRecord} {rec : ProcessedRecord} (h : Saves key records)
    (hrec : rec.annuls key = true → rec.saved = firstAnti key records) : Saves key (records ++ [rec]) := by
  intro before rec' after heq hrec'
  rcases List.eq_nil_or_concat after with rfl | ⟨after, last, rfl⟩
  · obtain ⟨rfl, hlast⟩ := List.append_inj' heq rfl
    cases hlast
    exact hrec hrec'
  · rw [List.concat_eq_append, ← List.cons_append, ← List.append_assoc] at heq
    obtain ⟨hleft, -⟩ := List.append_inj' heq rfl
    exact h before rec' after hleft hrec'

/-- Records before all anti-messages with the key do not matter. -/
theorem Saves.right {before after : List ProcessedRecord} (h : Saves key (before ++ after))
    (hbefore : ∀ rec ∈ before, rec.annuls key = false) : Saves key after := by
  intro before' rec after' heq hrec
  rw [h (before ++ before') rec after' (by rw [heq]; simp) hrec, firstAnti_append_of_none hbefore]

theorem restoreTombstone_apply (cancelled : UidKey → Option TimeStamp) (rec : ProcessedRecord) :
    restoreTombstone cancelled rec key = if rec.annuls key then rec.saved else cancelled key := by
  unfold restoreTombstone ProcessedRecord.annuls ProcessedRecord.saved
  cases hanti : rec.ev.isAnti with
  | false => simp
  | true =>
      by_cases hkey : rec.ev.uidKey = key
      · subst hkey
        simp
      · simp [hkey, Function.update_of_ne (Ne.symm hkey)]

/-- Undoing records from the newest on brings back the tombstone that the rest of them makes. -/
theorem restore_undone (kept undone : List ProcessedRecord) (cancelled : UidKey → Option TimeStamp)
    (hsaves : Saves key (kept ++ undone)) (hkey : cancelled key = firstAnti key (kept ++ undone)) :
    undone.reverse.foldl restoreTombstone cancelled key = firstAnti key kept := by
  induction undone using List.reverseRecOn generalizing cancelled with
  | nil => simpa using hkey
  | append_singleton undone rec ih =>
      rw [List.reverse_append, List.reverse_singleton, List.singleton_append, List.foldl_cons]
      rw [← List.append_assoc] at hsaves hkey
      apply ih _ hsaves.left
      rw [restoreTombstone_apply]
      cases hrec : rec.annuls key with
      | true => exact hsaves.last hrec
      | false =>
          rw [firstAnti_snoc] at hkey
          simpa [hrec] using hkey

/-- Undoing no anti-message with the key leaves the tombstone alone. -/
theorem restore_others (undone : List ProcessedRecord) (cancelled : UidKey → Option TimeStamp)
    (h : ∀ rec ∈ undone, rec.annuls key = false) :
    undone.foldl restoreTombstone cancelled key = cancelled key := by
  induction undone generalizing cancelled with
  | nil => rfl
  | cons rec undone ih =>
      rw [List.foldl_cons, ih _ fun r hr => h r (List.mem_cons_of_mem _ hr), restoreTombstone_apply,
        h rec List.mem_cons_self]
      rfl

/-! ## The invariant -/

/-- The record of the anti-message that is being dealt with. -/
def Activity.undoing : Activity σ → List ProcessedRecord
  | .annulling rec => [rec]
  | .annulled rec => [rec]
  | _ => []

theorem undoing_noteCall (a : Activity σ) (asked : Event) (r : Except String Event) :
    (a.noteCall asked r).undoing = a.undoing := by
  cases a <;> rfl

/-- The tombstone of the key is the one that the records make. -/
structure Entombed (key : UidKey) (records : List ProcessedRecord)
    (cancelled : UidKey → Option TimeStamp) : Prop where
  saves : Saves key records
  tombstone : cancelled key = firstAnti key records

/-- The event is an anti-message with the key. -/
def Event.annuls (key : UidKey) (ev : Event) : Bool := ev.isAnti && decide (ev.uidKey = key)

/-- As long as no anti-message with the key has been committed, nor been lost to an exception, the
records in place make up the tombstone. -/
def TombInv (key : UidKey) (id : LPId) (x : Situation Q σ) : Prop :=
  (∀ rec ∈ (x.state.ctx id).fossils, rec.annuls key = false) →
    (∀ ev ∈ x.state.hist.lost, ev.annuls key = false) →
      Entombed key ((x.state.ctx id).processed ++ x.activity.undoing) x.state.cancelledByUid

theorem TombInv.keep {x y : Situation Q σ} (h : TombInv key id x)
    (hle : x.state.hist.Extends y.state.hist)
    (hprocessed : (y.state.ctx id).processed = (x.state.ctx id).processed)
    (hfossils : (y.state.ctx id).fossils = (x.state.ctx id).fossils)
    (hundoing : y.activity.undoing = x.activity.undoing)
    (hcancelled : y.state.cancelledByUid = x.state.cancelledByUid) : TombInv key id y := by
  intro hnone hlost
  rw [hfossils] at hnone
  rw [hprocessed, hundoing, hcancelled]
  exact h hnone fun ev hev => hlost ev (hle.lost.subset hev)

theorem TombInv.same {x y : Situation Q σ} (h : TombInv key id x)
    (hle : x.state.hist.Extends y.state.hist) (hbooks : SameBooks (x.state.ctx id) (y.state.ctx id))
    (hundoing : y.activity.undoing = x.activity.undoing)
    (hcancelled : y.state.cancelledByUid = x.state.cancelledByUid) : TombInv key id y :=
  h.keep hle hbooks.processed hbooks.fossils hundoing hcancelled

/-- An update of a context that touches neither the records in place nor the committed ones. -/
theorem TombInv.modifyCtx {a a' : Activity σ} {owed owed' : List (LPId × SentRecord)}
    {s : Simulation Q σ} (h : TombInv key id ⟨a, owed, s⟩) (i : LPId) (f : LPContext σ → LPContext σ)
    (hf : ∀ c, (f c).processed = c.processed ∧ (f c).fossils = c.fossils)
    (hundoing : a'.undoing = a.undoing) : TombInv key id ⟨a', owed', s.modifyCtx i f⟩ :=
  h.keep (.refl _) (modifyCtx_proj (·.processed) (fun c => (hf c).1) s i id)
    (modifyCtx_proj (·.fossils) (fun c => (hf c).2) s i id) hundoing rfl

/-- A record that is no anti-message with the key changes nothing. -/
theorem Entombed.snoc {records : List ProcessedRecord} {cancelled : UidKey → Option TimeStamp}
    (h : Entombed key records cancelled) {rec : ProcessedRecord} (hrec : rec.annuls key = false) :
    Entombed key (records ++ [rec]) cancelled := by
  refine ⟨h.saves.snoc fun h => absurd (hrec.symm.trans h) (by simp), ?_⟩
  rw [h.tombstone, firstAnti_snoc, hrec]
  simp

theorem antiRecord_saved (ev : Event) (s : Simulation Q σ) :
    (antiRecord ev s).saved = s.cancelledByUid ev.uidKey := by
  unfold antiRecord ProcessedRecord.saved
  split
  · next ts hts => simp [hts]
  · next hnone => simp [newRecord, hnone]

/-- An anti-message that is not before the records leaves its tombstone. -/
theorem Entombed.mark {s : Simulation Q σ} {records : List ProcessedRecord} {ev : Event}
    (h : Entombed key records s.cancelledByUid) (hanti : ev.isAnti = true)
    (hle : ∀ rec ∈ records, rec.ev.ts ≤ ev.ts) :
    Entombed key (records ++ [antiRecord ev s]) (insertTombstone ev s).cancelledByUid := by
  have hev : (antiRecord ev s).ev = ev := antiRecord_ev ev s
  by_cases hkey : ev.uidKey = key
  · have hannuls : (antiRecord ev s).annuls key = true := by
      simp [ProcessedRecord.annuls, hev, hanti, hkey]
    have hsaved : (antiRecord ev s).saved = firstAnti key records := by
      rw [antiRecord_saved, hkey, h.tombstone]
    refine ⟨h.saves.snoc fun _ => hsaved, ?_⟩
    rw [firstAnti_snoc, if_pos hannuls, hev]
    change Function.update s.cancelledByUid ev.uidKey _ key = _
    rw [hkey, Function.update_self, h.tombstone]
    cases hfirst : firstAnti key records with
    | none => rfl
    | some ts =>
        obtain ⟨rec, hrec, -, rfl⟩ := firstAnti_mem hfirst
        simp [not_lt.mpr (hle rec hrec)]
  · have hannuls : (antiRecord ev s).annuls key = false := by
      simp [ProcessedRecord.annuls, hev, hkey]
    have hsame : (insertTombstone ev s).cancelledByUid key = s.cancelledByUid key :=
      Function.update_of_ne (Ne.symm hkey) ..
    obtain ⟨hsaves, htomb⟩ := h.snoc hannuls
    exact ⟨hsaves, hsame.trans htomb⟩

/-- A rollback brings the tombstone of the remaining records back. -/
theorem Entombed.unwound {s : Simulation Q σ} {target : TimeStamp} {undoing : List ProcessedRecord}
    (h : Entombed key ((s.ctx id).processed ++ undoing) s.cancelledByUid)
    (hundoing : undoing = [] ∨ ∃ rec, undoing = [rec] ∧ (rec.annuls key = true →
      ∀ a ∈ (s.ctx id).processed, a.annuls key = false)) :
    Entombed key (keptRecords target (s.ctx id).processed ++ undoing)
      (unwound model id target s).cancelledByUid := by
  have hsplit := keptRecords_append_undoneRecords target (s.ctx id).processed
  have hcancelled : (WarpSim.unwound model id target s).cancelledByUid =
      (undoneRecords target (s.ctx id).processed).reverse.foldl restoreTombstone s.cancelledByUid := by
    rw [unwound_eq]
  rw [hcancelled]
  rcases hundoing with rfl | ⟨rec, rfl, hclear⟩
  · rw [List.append_nil] at h ⊢
    rw [← hsplit] at h
    exact ⟨h.saves.left, restore_undone _ _ _ h.saves h.tombstone⟩
  · have htomb := h.tombstone
    rw [firstAnti_snoc] at htomb
    cases hrec : rec.annuls key with
    | false =>
        rw [hrec] at htomb
        have hprocessed : Entombed key ((s.ctx id).processed) s.cancelledByUid :=
          ⟨h.saves.left, by simpa using htomb⟩
        rw [← hsplit] at hprocessed
        refine Entombed.snoc ⟨hprocessed.saves.left, ?_⟩ hrec
        exact restore_undone _ _ _ hprocessed.saves hprocessed.tombstone
    | true =>
        -- none of the records is of an anti-message with the key
        have hnone := hclear hrec
        have hkept : ∀ r ∈ keptRecords target (s.ctx id).processed, r.annuls key = false :=
          fun r hr => hnone r ((List.rdropWhile_prefix _ _).subset hr)
        have hundone : ∀ r ∈ (undoneRecords target (s.ctx id).processed).reverse, r.annuls key = false :=
          fun r hr => hnone r ((List.rtakeWhile_suffix _ _).subset (List.mem_reverse.mp hr))
        have hsaved : rec.saved = none := (h.saves.last hrec).trans (firstAnti_eq_none.mpr hnone)
        refine ⟨(h.saves.left.of_prefix (List.rdropWhile_prefix _ _)).snoc fun _ => ?_, ?_⟩
        · exact hsaved.trans (firstAnti_eq_none.mpr hkept).symm
        · rw [restore_others _ _ hundone, htomb, firstAnti_eq_none.mpr hnone,
            firstAnti_append_of_none hkept]
          simp [firstAnti, hrec]

/-! ## Moves -/

/-- The rollback for an anti-message with the key meets no other one. -/
def Unentangled (key : UidKey) (id : LPId) (x : Situation Q σ) : Prop :=
  ∀ rec r, x.activity = .annulling rec → rec.annuls key = true →
    r ∈ (x.state.ctx id).processed → r.executes key = true →
    ∀ a ∈ (x.state.ctx id).processed, a.annuls key = false

theorem executes_of_matchesAnti {rec r : ProcessedRecord} (hrec : rec.annuls key = true)
    (h : matchesAnti rec.ev r = true) : r.executes key = true := by
  simp only [matchesAnti, Bool.and_eq_true, Bool.not_eq_true', beq_iff_eq] at h
  simp only [ProcessedRecord.annuls, Bool.and_eq_true, decide_eq_true_eq] at hrec
  have hkey : r.ev.uidKey = key := by rw [← hrec.2, Event.uidKey, Event.uidKey, h.1.2, h.2]
  simp [ProcessedRecord.executes, h.1.1, hkey]

theorem TombInv.unwound {x y : Situation Q σ} {target : TimeStamp} (h : TombInv key id x)
    (hy : y.state = WarpSim.unwound model id target x.state)
    (hundoing : y.activity.undoing = x.activity.undoing)
    (hclear : x.activity.undoing = [] ∨ ∃ rec, x.activity.undoing = [rec] ∧ (rec.annuls key = true →
      ∀ a ∈ (x.state.ctx id).processed, a.annuls key = false)) : TombInv key id y := by
  intro hfossils hlost
  have hself : (WarpSim.unwound model id target x.state).ctx id =
      (x.state.ctx id).rewind (model id) target := by
    rw [unwound_ctx, Function.update_self]
  rw [hy, hself, LPContext.rewind_eq] at hfossils
  rw [hy, unwound_eq] at hlost
  have hx := h hfossils hlost
  rw [hy, hself, LPContext.rewind_eq, hundoing]
  exact hx.unwound hclear

/-- A record that has been made is put in place. -/
theorem TombInv.push {x y : Situation Q σ} {rec : ProcessedRecord} (h : TombInv key id x)
    (hprocessed : (y.state.ctx id).processed = (x.state.ctx id).processed ++ [rec])
    (hfossils : (y.state.ctx id).fossils = (x.state.ctx id).fossils)
    (hlost : y.state.hist.lost = x.state.hist.lost) (hidle : y.activity.undoing = [])
    (hcancelled : y.state.cancelledByUid = x.state.cancelledByUid)
    (hundoing : x.activity.undoing = [rec] ∨ x.activity.undoing = [] ∧ rec.annuls key = false) :
    TombInv key id y := by
  intro hnone hnot
  rw [hfossils] at hnone
  rw [hlost] at hnot
  have hx := h hnone hnot
  rw [hprocessed, hidle, hcancelled, List.append_nil]
  rcases hundoing with hrec | ⟨hempty, hrec⟩
  · rw [hrec] at hx
    exact hx
  · rw [hempty, List.append_nil] at hx
    exact hx.snoc hrec

theorem Move.tombInv {x y : Situation Q σ} (hm : Move model cfg x y) (hb : BooksInv x)
    (hone : ∀ i ∈ y.state.lpIds, i = id) (hclear : Unentangled key id x) (h : TombInv key id x) :
    TombInv key id y := by
  have hsame : ∀ s : Simulation Q σ, SameBooks (s.ctx id) (s.ctx id) := fun s => SameBooks.refl _
  have hle := hm.extends
  cases hm with
  | quiet hq => exact h.same hle (by rw [hq.ctx]; exact hsame _) rfl (by rw [hq])
  | @register s i hi =>
      by_cases hid : i = id
      · subst hid
        obtain ⟨hfossils, hprocessed⟩ := List.append_eq_nil_iff.mp (hb.kept_of_fresh hi)
        dsimp only at hfossils hprocessed
        refine h.keep hle ?_ ?_ rfl rfl
        · dsimp only
          rw [Function.update_self, hprocessed]
        · dsimp only
          rw [Function.update_self, hfossils]
      · refine h.same hle ?_ rfl rfl
        dsimp only
        rw [Function.update_of_ne (Ne.symm hid)]
        exact hsame _
  | prepare => exact h.same hle (sameBooks_setLp _ _ _ id) rfl rfl
  | receive => exact h.same hle (by rw [receiveEvent_eq]; exact hsame _) rfl (by rw [receiveEvent_eq])
  | acknowledge => exact h.same hle (by rw [receiveAck_eq]; exact hsame _) rfl (by rw [receiveAck_eq])
  | migrate => exact h.same hle (sameBooks_setLp _ _ _ id) rfl rfl
  | sent =>
      refine h.same hle (sameWork_sent ..).books (undoing_noteCall ..) ?_
      rw [posted_eq]
      rfl
  | unlogged =>
      refine h.same hle ?_ (undoing_noteCall ..) ?_
      · rw [posted_ctx]
        exact (sameWork_renumber ..).books
      · rw [posted_eq]
        rfl
  | refused => exact h.same hle (sameWork_renumber ..).books (undoing_noteCall ..) rfl
  | @straggle s ev hdst =>
      have hid : ev.dst = id := hone _ (by rw [unwound_lpIds]; exact hdst)
      subst hid
      exact h.unwound rfl rfl (Or.inl rfl)
  | @enter s ev => exact h.modifyCtx ev.dst (LPContext.enter ev) (fun _ => ⟨rfl, rfl⟩) rfl
  | store => exact h.same hle (sameBooks_setLp _ _ _ id) rfl rfl
  | @finish before ev calls s rec hrun =>
      obtain ⟨hanti, hdst, -⟩ := hb.stage
      have hid : ev.dst = id := hone _ hdst
      subst hid
      have hself : (pushProcessed ev.dst rec (left ev.dst s)).ctx ev.dst =
          { s.ctx ev.dst with
            inEvent := false
            processed := (s.ctx ev.dst).processed ++ [rec]
            executed := (s.ctx ev.dst).executed ++ [rec] } := by
        rw [pushProcessed, modifyCtx_self, left_self]
      have hannuls : rec.annuls key = false := by
        simp [ProcessedRecord.annuls, hrun.filled.ev, newRecord, hanti]
      refine h.push ?_ ?_ rfl rfl rfl (Or.inr ⟨rfl, hannuls⟩)
      · dsimp only
        rw [hself]
      · dsimp only
        rw [hself]
  | release => exact h.same hle (by rw [released_eq]; exact hsame _) rfl (by rw [released_eq])
  | @defer before ev calls s =>
      have hleft : TombInv key id ⟨.idle, [], left ev.dst s⟩ :=
        h.modifyCtx ev.dst (fun c => { c with inEvent := false }) (fun _ => ⟨rfl, rfl⟩) rfl
      have hback : TombInv key id ⟨.idle, [], (left ev.dst s).modifyCtx ev.dst fun c =>
          { c with vt := before.vt, currentExecTs := before.vt }⟩ :=
        hleft.modifyCtx ev.dst _ (fun _ => ⟨rfl, rfl⟩) rfl
      exact hback.same (.refl _) (hsame _) rfl rfl
  | @abort before ev calls s =>
      exact h.modifyCtx ev.dst (fun c => { c with inEvent := false }) (fun _ => ⟨rfl, rfl⟩) rfl
  | @mark s ev hanti hdst hvt =>
      have hid : ev.dst = id := hone _ hdst
      subst hid
      intro hfossils hlost
      have hx : Entombed key ((s.ctx ev.dst).processed ++ []) s.cancelledByUid := h hfossils hlost
      rw [List.append_nil] at hx
      exact hx.mark hanti fun rec hrec => ((hb.context ev.dst).behind rec hrec).trans (not_lt.mp hvt)
  | @matched s rec r hdst hfind =>
      have hid : rec.ev.dst = id := hone _ (by rw [unwound_lpIds]; exact hdst)
      subst hid
      refine h.unwound rfl rfl (Or.inr ⟨rec, rfl, fun hrec => ?_⟩)
      exact hclear rec r rfl hrec (lastMatch_mem hfind)
        (executes_of_matchesAnti hrec (List.find?_some hfind))
  | unmatched => exact h.same hle (hsame _) rfl rfl
  | @settle s rec =>
      obtain ⟨hanti, hdst, -⟩ := hb.stage
      have hid : rec.ev.dst = id := hone _ hdst
      subst hid
      have hself : (pushProcessed rec.ev.dst rec (s.modifyCtx rec.ev.dst fun c =>
          { c with vt := rec.ev.ts })).ctx rec.ev.dst =
          { s.ctx rec.ev.dst with
            vt := rec.ev.ts
            processed := (s.ctx rec.ev.dst).processed ++ [rec]
            executed := (s.ctx rec.ev.dst).executed ++ [rec] } := by
        rw [pushProcessed, modifyCtx_self, modifyCtx_self]
      refine h.push ?_ ?_ rfl rfl rfl (Or.inl rfl)
      · dsimp only
        rw [hself]
      · dsimp only
        rw [hself]
  | annul =>
      refine h.same hle (sameWork_annul ..).books rfl ?_
      rw [posted_eq]
      rfl
  | @stuck a i log owed s ev u n k w what ha =>
      -- the tombstone may be left without a record, but then the anti-message is lost
      intro hfossils hlost
      have hbooks : SameBooks (s.ctx id) ((renumber i u n k w s).ctx id) :=
        (sameWork_renumber i u n k w s id).books
      change ∀ rec ∈ ((renumber i u n k w s).ctx id).fossils, _ at hfossils
      rw [hbooks.fossils] at hfossils
      have hx := h hfossils fun e he => hlost e (List.mem_append_left _ he)
      have hev : ev.annuls key = false := hlost ev (List.mem_append_right _ (List.mem_singleton.mpr rfl))
      change Entombed key (((renumber i u n k w s).ctx id).processed ++ []) s.cancelledByUid
      rw [hbooks.processed, List.append_nil]
      cases a with
      | holding ev' => simpa [Activity.undoing] using hx
      | annulled rec =>
          cases ha
          have htomb := hx.tombstone
          change s.cancelledByUid key = firstAnti key ((s.ctx id).processed ++ [rec]) at htomb
          rw [firstAnti_snoc, show rec.annuls key = false from hev] at htomb
          exact ⟨hx.saves.left, by simpa using htomb⟩
      | _ => cases ha
  | _ => exact h.same hle (hsame _) rfl rfl

/-- Committing what lies before a bound keeps the tombstone of what stays in place. -/
theorem TombInv.prune {s : Simulation Q σ} (h : TombInv key id s.atRest) (hb : BooksInv s.atRest)
    (gvt : TimeStamp) : TombInv key id (pruneToGvt cfg gvt s).atRest := by
  intro hfossils hlost
  have hlost' : ∀ ev ∈ s.hist.lost, ev.annuls key = false := hlost
  change Entombed key (((pruneToGvt cfg gvt s).ctx id).processed ++ []) fun k =>
    (s.cancelledByUid k).filter fun ts => ¬ ts < gvt
  change ∀ rec ∈ ((pruneToGvt cfg gvt s).ctx id).fossils, _ at hfossils
  rw [List.append_nil]
  rcases prune_ctx_cases cfg gvt s id with ⟨-, hctx⟩ | ⟨hid, hctx⟩
  · rw [hctx] at hfossils ⊢
    have hcommitted : ∀ rec ∈ (s.ctx id).processed.takeWhile fun rec => decide (rec.ev.ts < gvt),
        rec.annuls key = false :=
      fun rec hrec => hfossils rec (List.mem_append_right _ hrec)
    have hx : Entombed key ((s.ctx id).processed ++ []) s.cancelledByUid :=
      h (fun rec hrec => hfossils rec (List.mem_append_left _ hrec)) hlost'
    rw [List.append_nil, ← List.takeWhile_append_dropWhile (p := fun rec => decide (rec.ev.ts < gvt))
      (l := (s.ctx id).processed)] at hx
    refine ⟨hx.saves.right hcommitted, ?_⟩
    have htomb := hx.tombstone
    rw [firstAnti_append_of_none hcommitted] at htomb
    change (s.cancelledByUid key).filter _ = firstAnti key ((s.ctx id).processed.dropWhile _)
    rw [htomb]
    cases hfirst : firstAnti key ((s.ctx id).processed.dropWhile fun rec => rec.ev.ts < gvt) with
    | none => rfl
    | some ts =>
        obtain ⟨rec, hrec, -, rfl⟩ := firstAnti_mem hfirst
        have hle := mem_dropWhile_of_sorted (hb.context id).pairwise rec hrec
        simp [hle]
  · rw [hctx] at hfossils ⊢
    have hx : Entombed key ((s.ctx id).processed ++ []) s.cancelledByUid := h hfossils hlost'
    rw [List.append_nil] at hx
    have hnone : (s.ctx id).processed = [] := (List.append_eq_nil_iff.mp (hb.kept_of_fresh hid)).2
    rw [hnone] at hx ⊢
    exact ⟨Saves.nil, by rw [hx.tombstone]; rfl⟩

theorem GvtMove.tombInv {x y : Situation Q σ} (hm : GvtMove sound final cfg x y) (hb : BooksInv x)
    (h : TombInv key id x) : TombInv key id y := by
  cases hm with
  | @advance s gvt =>
      have hbooks : BooksInv (raiseGvt gvt s).atRest :=
        ⟨hb.context, hb.ledger, hb.fresh, hb.executing, trivial, nofun⟩
      have hraised : TombInv key id (raiseGvt gvt s).atRest := h
      exact hraised.prune hbooks gvt
  | prune => exact TombInv.prune h hb _
  | @flush s =>
      have hpruned : TombInv key id (pruneToGvt cfg maxStamp s).atRest := TombInv.prune h hb maxStamp
      exact hpruned
  | flip => exact h
  | reset => exact h

theorem tombInv_create : TombInv key id (Simulation.create Q model).atRest :=
  fun _ _ => ⟨Saves.nil, rfl⟩

/-! ## Before the dispatch -/

/-- What is delivered or sent from `s` to `t`. -/
def entering (s t : Simulation Q σ) : List Event :=
  (t.hist.delivered.drop s.hist.delivered.length).map (·.ev) ++
    (t.hist.sends.drop s.hist.sends.length).map (·.ev)

theorem mem_drop_mono {α : Type*} {l l' l'' : List α} (h : l <+: l') (h' : l' <+: l'') {a : α}
    (ha : a ∈ l'.drop l.length) : a ∈ l''.drop l.length := by
  obtain ⟨m, rfl⟩ := h
  obtain ⟨m', rfl⟩ := h'
  rw [List.append_assoc, List.drop_left]
  rw [List.drop_left] at ha
  exact List.mem_append_left _ ha

theorem entering_mono {s t t' : Simulation Q σ} (h : s.hist.Extends t.hist) (h' : t.hist.Extends t'.hist) :
    entering s t ⊆ entering s t' := by
  intro ev hev
  rcases List.mem_append.mp hev with hev | hev
  · obtain ⟨d, hd, rfl⟩ := List.mem_map.mp hev
    exact List.mem_append_left _ (List.mem_map_of_mem (mem_drop_mono h.delivered h'.delivered hd))
  · obtain ⟨r, hr, rfl⟩ := List.mem_map.mp hev
    exact List.mem_append_right _ (List.mem_map_of_mem (mem_drop_mono h.sends h'.sends hr))

theorem Enters.mem_entering {s : Simulation Q σ} {x y : Situation Q σ} {ev : Event} (h : Enters x y ev)
    (hle : s.hist.Extends x.state.hist) : ev ∈ entering s y.state := by
  rcases h with ⟨d, hd, rfl, -⟩ | ⟨r, hr, rfl, -⟩
  · obtain ⟨m, hm⟩ := hle.delivered
    refine List.mem_append_left _ (List.mem_map_of_mem ?_)
    rw [hd, ← hm, List.append_assoc, List.drop_left]
    simp
  · obtain ⟨m, hm⟩ := hle.sends
    refine List.mem_append_right _ (List.mem_map_of_mem ?_)
    rw [hr, ← hm, List.append_assoc, List.drop_left]
    simp

/-- The records in place after a move. -/
inductive PlaceStep (i : LPId) (x y : Situation Q σ) : Prop where
  | same : (y.state.ctx i).processed = (x.state.ctx i).processed → PlaceStep i x y
  | added : y.activity = .idle → PlaceStep i x y
  | undone (target) : (y.state.ctx i).processed = keptRecords target (x.state.ctx i).processed →
      PlaceStep i x y
  | registered : i ∉ x.state.lpIds → (y.state.ctx i).processed = [] → PlaceStep i x y

theorem Move.placeStep {x y : Situation Q σ} (hm : Move model cfg x y) (i : LPId) : PlaceStep i x y := by
  have hundone : ∀ {s : Simulation Q σ} {a a' : Activity σ} {owed owed'} (j : LPId) (target : TimeStamp),
      PlaceStep i ⟨a, owed, s⟩ ⟨a', owed', WarpSim.unwound model j target s⟩ := by
    intro s a a' owed owed' j target
    by_cases hi : i = j
    · subst hi
      refine .undone target ?_
      dsimp only
      rw [unwound_ctx, Function.update_self, LPContext.rewind_eq]
    · refine .same ?_
      dsimp only
      rw [unwound_ctx, Function.update_of_ne hi]
  cases hm with
  | quiet hq => exact .same (by rw [hq.ctx])
  | @register s j hj =>
      by_cases hi : i = j
      · subst hi
        refine .registered hj ?_
        dsimp only
        rw [Function.update_self]
      · refine .same ?_
        dsimp only
        rw [Function.update_of_ne hi]
  | prepare => exact .same (sameBooks_setLp _ _ _ i).processed
  | receive => exact .same (by rw [receiveEvent_eq])
  | acknowledge => exact .same (by rw [receiveAck_eq])
  | migrate => exact .same (sameBooks_setLp _ _ _ i).processed
  | sent => exact .same (sameWork_sent ..).processed
  | unlogged =>
      refine .same ?_
      rw [posted_ctx]
      exact (sameWork_renumber ..).processed
  | refused => exact .same (sameWork_renumber ..).processed
  | straggle => exact hundone _ _
  | @enter s ev => exact .same (modifyCtx_proj (·.processed) (f := LPContext.enter ev) (fun _ => rfl) s ev.dst i)
  | store => exact .same (sameBooks_setLp _ _ _ i).processed
  | finish => exact .added rfl
  | release => exact .same (by rw [released_eq])
  | defer => exact .added rfl
  | @abort before ev calls s =>
      exact .same (modifyCtx_proj (·.processed) (f := fun c => { c with inEvent := false }) (fun _ => rfl)
        s ev.dst i)
  | matched => exact hundone _ _
  | settle => exact .added rfl
  | annul => exact .same (sameWork_annul ..).processed
  | stuck => exact .added rfl
  | _ => exact .same rfl

/-- While an event is being dealt with, no record is put in place. -/
theorem Move.processed_subset {x y : Situation Q σ} (hm : Move model cfg x y) (hbusy : y.activity ≠ .idle)
    (i : LPId) : (y.state.ctx i).processed ⊆ (x.state.ctx i).processed := by
  cases hm.placeStep i with
  | same h => rw [h]; exact List.Subset.refl _
  | added h => exact absurd h hbusy
  | undone target h => rw [h]; exact (List.rdropWhile_prefix _ _).subset
  | registered _ h => rw [h]; exact List.nil_subset _

/-- Nothing has been dispatched since `s`. -/
structure Undisturbed (s : Simulation Q σ) (id : LPId) (x : Situation Q σ) : Prop where
  idle : x.activity = .idle
  processed : (x.state.ctx id).processed = (s.ctx id).processed
  fossils : (x.state.ctx id).fossils = (s.ctx id).fossils
  lost : x.state.hist.lost = s.hist.lost
  events : ∀ ev, ev ∈ Q.elems x.state.pending ∨ ev ∈ x.state.deferred →
    ev ∈ Q.elems s.pending ∨ ev ∈ s.deferred ∨ ev ∈ entering s x.state

/-- A move that leaves the records of the LP alone and brings no event that does not enter. -/
theorem Undisturbed.keep {s : Simulation Q σ} {x y : Situation Q σ} (h : Undisturbed s id x)
    (hsx : s.hist.Extends x.state.hist) (hxy : x.state.hist.Extends y.state.hist)
    (hidle : y.activity = .idle) (hkept : (y.state.ctx id).processed = (x.state.ctx id).processed ∧
      (y.state.ctx id).fossils = (x.state.ctx id).fossils)
    (hlost : y.state.hist.lost = x.state.hist.lost)
    (hevents : ∀ ev, ev ∈ Q.elems y.state.pending ∨ ev ∈ y.state.deferred →
      (ev ∈ Q.elems x.state.pending ∨ ev ∈ x.state.deferred) ∨ Enters x y ev) : Undisturbed s id y := by
  refine ⟨hidle, hkept.1.trans h.processed, hkept.2.trans h.fossils, hlost.trans h.lost,
    fun ev hev => ?_⟩
  rcases hevents ev hev with hev | hev
  · rcases h.events ev hev with hev | hev | hev
    · exact Or.inl hev
    · exact Or.inr (Or.inl hev)
    · exact Or.inr (Or.inr (entering_mono hsx hxy hev))
  · exact Or.inr (Or.inr (hev.mem_entering hsx))

/-- What is posted enters. -/
theorem Enters.of_posted {x y : Situation Q σ} (cause : SendCause) (asked : Event) {sent ev : Event}
    (s' : Simulation Q σ) (hpending : y.state.pending = (posted cause cfg asked sent s').pending)
    (hbefore : s'.pending = x.state.pending)
    (hsends : y.state.hist.sends =
      x.state.hist.sends ++ [sendRecord cause asked sent (cfg.rankOf sent.dst) s'])
    (hgvt : s'.lastGvt = x.state.lastGvt) (hev : ev ∈ Q.elems y.state.pending) :
    ev ∈ Q.elems x.state.pending ∨ Enters x y ev := by
  rw [hpending] at hev
  rcases mem_posted_pending hev with hev | rfl
  · exact Or.inl (hbefore ▸ hev)
  · exact Or.inr (Or.inr ⟨_, hsends, rfl, hgvt⟩)

theorem Move.undisturbed {s : Simulation Q σ} {x y : Situation Q σ} (hm : Move model cfg x y)
    (hb : BooksInv x) (hsx : s.hist.Extends x.state.hist)
    (hnone : y.state.hist.dispatched = x.state.hist.dispatched) (h : Undisturbed s id x) :
    Undisturbed s id y := by
  have hxy := hm.extends
  have hidle := h.idle
  have hkept : ∀ {c c' : LPContext σ}, SameBooks c c' → c'.processed = c.processed ∧ c'.fossils = c.fossils :=
    fun h => ⟨h.processed, h.fossils⟩
  have hquiet : x.activity.unwinding = none := by rw [hidle]; rfl
  cases hm with
  | quiet hq =>
      refine h.keep hsx hxy hidle (by rw [hq.ctx]; exact ⟨rfl, rfl⟩) (by rw [hq]) fun ev hev => Or.inl ?_
      rw [hq] at hev
      exact hev
  | @register t i hi =>
      refine h.keep hsx hxy rfl ?_ rfl fun ev hev => Or.inl hev
      by_cases hid : i = id
      · subst hid
        obtain ⟨hfossils, hprocessed⟩ := List.append_eq_nil_iff.mp (hb.kept_of_fresh hi)
        dsimp only at hfossils hprocessed ⊢
        rw [Function.update_self, hfossils, hprocessed]
        exact ⟨rfl, rfl⟩
      · dsimp only
        rw [Function.update_of_ne (Ne.symm hid)]
        exact ⟨rfl, rfl⟩
  | start => exact h.keep hsx hxy rfl ⟨rfl, rfl⟩ rfl fun ev hev => Or.inl hev
  | prepare => exact h.keep hsx hxy rfl (hkept (sameBooks_setLp _ _ _ id)) rfl fun ev hev => Or.inl hev
  | @schedule t e =>
      refine h.keep hsx hxy rfl ⟨rfl, rfl⟩ rfl fun ev hev => ?_
      rcases hev with hev | hev
      · rcases Multiset.mem_cons.mp ((Q.elems_push t.pending e) ▸ hev) with rfl | hev
        · exact Or.inr (Or.inl ⟨_, rfl, rfl, rfl⟩)
        · exact Or.inl (Or.inl hev)
      · exact Or.inl (Or.inr hev)
  | @receive t srcRank e =>
      refine h.keep hsx hxy rfl (by rw [receiveEvent_eq]; exact ⟨rfl, rfl⟩)
        (by rw [receiveEvent_eq]) fun ev hev => ?_
      rw [receiveEvent_eq] at hev ⊢
      rcases hev with hev | hev
      · rcases Multiset.mem_cons.mp ((Q.elems_push t.pending e) ▸ hev) with rfl | hev
        · exact Or.inr (Or.inl ⟨_, rfl, rfl, rfl⟩)
        · exact Or.inl (Or.inl hev)
      · exact Or.inl (Or.inr hev)
  | acknowledge =>
      refine h.keep hsx hxy rfl (by rw [receiveAck_eq]; exact ⟨rfl, rfl⟩)
        (by rw [receiveAck_eq]) fun ev hev => Or.inl ?_
      rw [receiveAck_eq] at hev
      exact hev
  | queueMigration => exact h.keep hsx hxy rfl ⟨rfl, rfl⟩ rfl fun ev hev => Or.inl hev
  | migrate => exact h.keep hsx hxy rfl (hkept (sameBooks_setLp _ _ _ id)) rfl fun ev hev => Or.inl hev
  | misplace => exact h.keep hsx hxy rfl ⟨rfl, rfl⟩ rfl fun ev hev => Or.inl hev
  | @sent a t cause asked e u n k w =>
      refine h.keep hsx hxy ?_ (hkept (sameWork_sent ..).books) (by rw [posted_eq]; rfl) fun ev hev => ?_
      · dsimp only at hidle
        rw [hidle]
        rfl
      · rcases hev with hev | hev
        · refine (Enters.of_posted cause asked (renumber asked.src u n k w t) rfl rfl ?_ rfl hev).imp_left Or.inl
          exact congrArg History.sends (congrArg Simulation.hist (posted_eq ..))
        · rw [posted_eq] at hev
          exact Or.inl (Or.inr hev)
  | @unlogged a t cause asked e u n k w =>
      refine h.keep hsx hxy ?_ ?_ (by rw [posted_eq]; rfl) fun ev hev => ?_
      · dsimp only at hidle
        rw [hidle]
        rfl
      · rw [posted_ctx]
        exact hkept (sameWork_renumber ..).books
      · rcases hev with hev | hev
        · refine (Enters.of_posted cause asked (renumber asked.src u n k w t) rfl rfl ?_ rfl hev).imp_left Or.inl
          exact congrArg History.sends (congrArg Simulation.hist (posted_eq ..))
        · rw [posted_eq] at hev
          exact Or.inl (Or.inr hev)
  | refused =>
      refine h.keep hsx hxy ?_ (hkept (sameWork_renumber ..).books) rfl fun ev hev => Or.inl hev
      dsimp only at hidle
      rw [hidle]
      rfl
  | discard =>
      refine h.keep hsx hxy rfl ⟨rfl, rfl⟩ rfl fun ev hev => Or.inl ?_
      exact hev.imp_left mem_discardPending
  | pop => exact absurd hnone (by simp [recordDispatch])
  | release =>
      refine h.keep hsx hxy rfl (by rw [released_eq]; exact ⟨rfl, rfl⟩)
        (by rw [released_eq]; rfl) fun ev hev => Or.inl ?_
      rcases hev with hev | hev
      · exact mem_released_pending hev
      · exact Or.inr (mem_released_deferred hev)
  | annul => exact absurd hquiet (hb.owed (by simp))
  | stuck hunwinding => exact absurd (hunwinding.symm.trans hquiet) (by simp)
  | _ => cases hidle

/-! ## The dispatch -/

/-- A move dispatches nothing, or it takes the front of the queue. -/
inductive PopStep (x y : Situation Q σ) : Prop where
  | none : y.state.hist.dispatched = x.state.hist.dispatched →
      (x.activity = .idle → y.activity = .idle) → PopStep x y
  | popped (d : Dispatch) : y.state.hist.dispatched = x.state.hist.dispatched ++ [d] →
      d.ev ∈ Q.elems x.state.pending → d.ev.isAnti = true ∨ x.state.tombstoned d.ev = false →
      y.state.ctx = x.state.ctx → PopStep x y

theorem noteCall_idle {a : Activity σ} {asked : Event} {r : Except String Event} (h : a = .idle) :
    a.noteCall asked r = .idle := by
  rw [h]
  rfl

theorem Move.popStep {x y : Situation Q σ} (hm : Move model cfg x y) : PopStep x y := by
  cases hm with
  | quiet hq => exact .none (by rw [hq]) id
  | receive => exact .none (by rw [receiveEvent_eq]) id
  | acknowledge => exact .none (by rw [receiveAck_eq]) id
  | sent => exact .none (by rw [posted_eq]; rfl) noteCall_idle
  | unlogged => exact .none (by rw [posted_eq]; rfl) noteCall_idle
  | refused => exact .none rfl noteCall_idle
  | pop _ htop hlive => exact .popped _ rfl (mem_of_top? htop) hlive rfl
  | straggle => exact .none (by rw [unwound_eq]) nofun
  | enter => exact .none rfl nofun
  | store => exact .none rfl nofun
  | abort => exact .none rfl nofun
  | mark => exact .none rfl nofun
  | matched => exact .none (by rw [unwound_eq]) nofun
  | unmatched => exact .none rfl nofun
  | release => exact .none (by rw [released_eq]; rfl) id
  | annul => exact .none (by rw [posted_eq]; rfl) id
  | _ => exact .none rfl fun _ => rfl

/-- The condition on a step from `s` that leads to `t`. While an event with the key waits or enters, no
anti-message with the key has been committed. None has been lost to an exception, and no event
with the key is in place together with an anti-message. -/
structure ClearTo (key : UidKey) (s t : Simulation Q σ) : Prop where
  uncommitted : ∀ ev, ev.isAnti = false → ev.uidKey = key →
    ev ∈ Q.elems s.pending ∨ ev ∈ s.deferred ∨ ev ∈ entering s t →
      ∀ rec ∈ (s.ctx ev.dst).fossils, rec.annuls key = false
  unlost : ∀ ev ∈ s.hist.lost, ev.annuls key = false
  apart : ∀ i, ∀ r ∈ (s.ctx i).processed, r.executes key = true →
    ∀ a ∈ (s.ctx i).processed, a.annuls key = false

theorem ClearTo.mono {s t t' : Simulation Q σ} (h : ClearTo key s t') (hst : s.hist.Extends t.hist)
    (htt' : t.hist.Extends t'.hist) : ClearTo key s t := by
  refine ⟨fun ev hpos hkey hev => h.uncommitted ev hpos hkey ?_, h.unlost, h.apart⟩
  exact hev.imp_right fun hev => hev.imp_right fun hev => entering_mono hst htt' hev

/-- The step dispatches no event with the key while an anti-message with the key is in effect. -/
def SpareOf (key : UidKey) (s : Simulation Q σ) (d : Dispatch) : Prop :=
  d.ev.isAnti = false → d.ev.uidKey = key → ∀ rec ∈ (s.ctx d.ev.dst).kept, rec.annuls key = false

/-- What holds up to the end of the dispatch in a step from `s`. -/
structure StepInv (key : UidKey) (id : LPId) (s : Simulation Q σ) (x : Situation Q σ) : Prop where
  tomb : TombInv key id x
  before : x.state.hist.dispatched = s.hist.dispatched → Undisturbed s id x
  within : x.state.hist.dispatched ≠ s.hist.dispatched → x.activity ≠ .idle →
    (x.state.ctx id).processed ⊆ (s.ctx id).processed
  spares : ∀ d, x.state.hist.dispatched = s.hist.dispatched ++ [d] → SpareOf key s d

theorem StepInv.unentangled {s : Simulation Q σ} {x : Situation Q σ} (h : StepInv key id s x)
    (hclear : ClearTo key s x.state) : Unentangled key id x := by
  intro rec r hact _ hr hexec a ha
  have hbusy : x.activity ≠ .idle := by rw [hact]; nofun
  have hsome : x.state.hist.dispatched ≠ s.hist.dispatched := fun heq => hbusy (h.before heq).idle
  have hsub := h.within hsome hbusy
  exact hclear.apart id r (hsub hr) hexec a (hsub ha)

theorem Undisturbed.spares {s : Simulation Q σ} {x : Situation Q σ} {d : Dispatch}
    (h : Undisturbed s id x) (hs : BooksInv s.atRest) (hone : ∀ i ∈ s.lpIds, i = id)
    (htomb : TombInv key id x) (hclear : ClearTo key s x.state) (hmem : d.ev ∈ Q.elems x.state.pending)
    (hlive : d.ev.isAnti = true ∨ x.state.tombstoned d.ev = false) : SpareOf key s d := by
  intro hpos hkey rec hrec
  by_cases hid : d.ev.dst = id
  · have huncommitted := hclear.uncommitted d.ev hpos hkey (h.events _ (Or.inl hmem))
    rw [hid] at huncommitted hrec
    have hx := htomb (by rw [h.fossils]; exact huncommitted) (by rw [h.lost]; exact hclear.unlost)
    have hnone : x.state.cancelledByUid key = none := by
      rcases hlive with hanti | htombstoned
      · exact absurd (hpos.symm.trans hanti) (by simp)
      · simpa [Simulation.tombstoned, hkey] using htombstoned
    have hidle : x.activity.undoing = [] := by rw [h.idle]; rfl
    rw [hx.tombstone, hidle, List.append_nil, h.processed, firstAnti_eq_none] at hnone
    rcases List.mem_append.mp hrec with hrec | hrec
    · exact huncommitted rec hrec
    · exact hnone rec hrec
  · have hfresh := hs.kept_of_fresh (i := d.ev.dst) fun hmem => hid (hone _ hmem)
    rw [show (s.ctx d.ev.dst).kept = [] from hfresh] at hrec
    cases hrec

theorem Move.stepInv {s : Simulation Q σ} {x y : Situation Q σ} (hm : Move model cfg x y)
    (hs : BooksInv s.atRest) (hb : BooksInv x) (hsx : s.hist.Extends x.state.hist)
    (hone : ∀ i ∈ y.state.lpIds, i = id) (hsub : s.lpIds ⊆ x.state.lpIds) (hclear : ClearTo key s y.state)
    (hlen : y.state.hist.dispatched.length ≤ s.hist.dispatched.length + 1) (h : StepInv key id s x) :
    StepInv key id s y := by
  have hclear' := hclear.mono hsx hm.extends
  have hones : ∀ i ∈ s.lpIds, i = id := fun i hi => hone i (hm.lpIds_subset (hsub hi))
  have htomb := hm.tombInv hb hone (h.unentangled hclear') h.tomb
  cases hm.popStep with
  | none heq hidle =>
      refine ⟨htomb, fun hy => ?_, fun hy hbusy => ?_, fun d hy => h.spares d (heq ▸ hy)⟩
      · exact hm.undisturbed hb hsx heq (h.before (heq ▸ hy))
      · exact List.Subset.trans (hm.processed_subset hbusy id)
          (h.within (heq ▸ hy) fun hx => hbusy (hidle hx))
  | popped d heq hmem hlive hctx =>
      have hfirst : x.state.hist.dispatched = s.hist.dispatched := by
        obtain ⟨rest, hrest⟩ := hsx.dispatched
        rw [heq, ← hrest] at hlen
        have hnil : rest = [] := by simpa [Nat.add_assoc] using hlen
        rw [← hrest, hnil, List.append_nil]
      have hund := h.before hfirst
      refine ⟨htomb, fun hy => ?_, fun _ _ => ?_, fun d' hy => ?_⟩
      · rw [heq, hfirst] at hy
        exact absurd hy (by simp)
      · rw [hctx, hund.processed]
        exact List.Subset.refl _
      · rw [heq, hfirst] at hy
        cases List.append_cancel_left hy
        exact hund.spares hs hones h.tomb hclear' hmem hlive

/-! ## Steps and runs -/

theorem Undisturbed.refl (s : Simulation Q σ) : Undisturbed s id s.atRest :=
  ⟨rfl, rfl, rfl, rfl, fun _ hev => hev.imp_right Or.inl⟩

/-- Up to the end of the dispatch. -/
theorem Moves.stepInv {s : Simulation Q σ} {y : Situation Q σ} (h : Moves model cfg s.atRest y)
    (hs : BooksInv s.atRest) (hone : ∀ i ∈ y.state.lpIds, i = id) (hclear : ClearTo key s y.state)
    (hlen : y.state.hist.dispatched.length ≤ s.hist.dispatched.length + 1)
    (htomb : TombInv key id s.atRest) : StepInv key id s y := by
  induction h with
  | refl =>
      refine ⟨htomb, fun _ => .refl s, fun hne => absurd rfl hne, fun d hd => ?_⟩
      exact absurd hd (by simp [atRest])
  | @tail x y hmoves hm ih =>
      have hall : AllMoves False True model cfg s.atRest x := Moves.all hmoves
      have hsx := AllMoves.extends hall
      have hle := hm.extends
      refine hm.stepInv hs (AllMoves.booksInv hall hs) hsx hone (AllMoves.lpIds_subset hall) hclear hlen
        (ih (fun i hi => hone i (hm.lpIds_subset hi)) (hclear.mono hsx hle) ?_)
      exact hle.dispatched.length_le.trans hlen

/-- After the dispatch. -/
theorem AllMoves.tombInv {v : Simulation Q σ} {y : Situation Q σ}
    (h : AllMoves sound final model cfg v.atRest y) (hv : BooksInv v.atRest)
    (hone : ∀ i ∈ y.state.lpIds, i = id)
    (hnone : y.state.hist.dispatched.length ≤ v.hist.dispatched.length) (htomb : TombInv key id v.atRest) :
    TombInv key id y ∧ y.activity = .idle := by
  induction h with
  | refl => exact ⟨htomb, rfl⟩
  | @tail x y hmoves hm ih =>
      have hbooks := AllMoves.booksInv hmoves hv
      have hvx := AllMoves.extends hmoves
      rcases hm with hm | hm
      · obtain ⟨hx, hidle⟩ := ih (fun i hi => hone i (hm.lpIds_subset hi))
          (hm.extends.dispatched.length_le.trans hnone)
        have hunentangled : Unentangled key id x := by
          intro rec r hact
          rw [hidle] at hact
          cases hact
        refine ⟨hm.tombInv hbooks hone hunentangled hx, ?_⟩
        cases hm.popStep with
        | none _ hstays => exact hstays hidle
        | popped d heq =>
            have hlen := hvx.dispatched.length_le
            rw [heq, List.length_append] at hnone
            change v.hist.dispatched.length ≤ _ at hlen
            simp at hnone
            omega
      · have hle := hm.extends.dispatched.length_le
        obtain ⟨hx, -⟩ := ih (fun i hi => hone i (hm.lpIds_eq ▸ hi)) (hle.trans hnone)
        exact ⟨hm.tombInv hbooks hx, hm.activity_eq⟩

variable (model cfg key) in
/-- The condition on a step. -/
def Clear (s : Simulation Q σ) (op : HostOp) : Prop := ClearTo key s (exec (hostOp model cfg op) s).2

variable (model cfg key) in
/-- The step hands no event with the key to `dispatch_` while an anti-message with the key that is not
after it is in effect: processed, or committed by now. -/
def Suppresses (s : Simulation Q σ) (op : HostOp) : Prop :=
  ∀ d ∈ dispatchedBy model cfg op s, d.ev.isAnti = false → d.ev.uidKey = key →
    ∀ rec ∈ (s.ctx d.ev.dst).kept, rec.annuls key = true → ¬ rec.ev.ts ≤ d.ev.ts

theorem Staged.tombInv {s u v t : Simulation Q σ} (hst : Staged model cfg s u v t)
    (hs : BooksInv s.atRest) (hone : ∀ i ∈ t.lpIds, i = id) (hclear : ClearTo key s t)
    (htomb : TombInv key id s.atRest) :
    TombInv key id t.atRest ∧ ∀ d ∈ t.hist.dispatched.drop s.hist.dispatched.length, SpareOf key s d := by
  obtain ⟨htv, hus, hvu⟩ := hst.dispatched_cases
  have hsv : Moves model cfg s.atRest v.atRest := hst.prepared.trans hst.dispatch
  have hall : AllMoves False True model cfg s.atRest v.atRest := hsv.all
  have hlen : v.hist.dispatched.length ≤ s.hist.dispatched.length + 1 := by
    rcases hvu with hvu | ⟨d, hvu⟩
    · rw [hvu, hus]
      omega
    · rw [hvu, hus, List.length_append, List.length_singleton]
  have hstep : StepInv key id s v.atRest := by
    refine Moves.stepInv hsv hs (fun i hi => hone i (AllMoves.lpIds_subset hst.concluded hi)) ?_ hlen htomb
    exact hclear.mono (AllMoves.extends hall) (AllMoves.extends hst.concluded)
  refine ⟨(AllMoves.tombInv hst.concluded (AllMoves.booksInv hall hs) hone (congrArg List.length htv).le
    hstep.tomb).1, fun d hd => ?_⟩
  rw [htv] at hd
  rcases hvu with hvu | ⟨d', hvu⟩
  · rw [hvu, hus, List.drop_length] at hd
    cases hd
  · rw [hvu, hus, List.drop_left, List.mem_singleton] at hd
    subst hd
    exact hstep.spares d (by rw [atRest, hvu, hus])

theorem Reachable.tombInv {s : Simulation Q σ} (h : Reachable model cfg (Clear model cfg key) s)
    (hone : ∀ i ∈ s.lpIds, i = id) : TombInv key id s.atRest := by
  induction h with
  | create => exact tombInv_create
  | @step s op hs hop ih =>
      obtain ⟨u, v, hst⟩ := hostOp_staged op hs.baseInv
      have hmoves : AllMoves False True model cfg s.atRest (exec (hostOp model cfg op) s).2.atRest :=
        hostOp_moves op hs.baseInv fun h => h.elim
      refine (hst.tombInv hs.booksInv hone hop (ih fun i hi => hone i ?_)).1
      exact AllMoves.lpIds_subset hmoves hi

/-- In a run of a single LP whose steps are clear for the key, an anti-message that is in effect keeps
its event from being dispatched. -/
theorem early_anti_suppresses {s : Simulation Q σ} (h : Reachable model cfg (Clear model cfg key) s)
    {op : HostOp} (hop : Clear model cfg key s op)
    (hone : ∀ i ∈ (exec (hostOp model cfg op) s).2.lpIds, i = id) : Suppresses model cfg key s op := by
  obtain ⟨u, v, hst⟩ := hostOp_staged op h.baseInv
  have hmoves : AllMoves False True model cfg s.atRest (exec (hostOp model cfg op) s).2.atRest :=
    hostOp_moves op h.baseInv fun h => h.elim
  have hones : ∀ i ∈ s.lpIds, i = id := fun i hi => hone i (AllMoves.lpIds_subset hmoves hi)
  intro d hd hpos hkey rec hrec hannuls
  have hspares := (hst.tombInv h.booksInv hone hop (h.tombInv hones)).2 d hd hpos hkey rec hrec
  exact absurd (hspares.symm.trans hannuls) (by simp)

/-! ## Runs of the journal -/

/-- The one LP has committed no anti-message with the key and executed no event with it. -/
structure Bare (key : UidKey) (id : LPId) (s : Simulation Q σ) : Prop where
  alone : s.lpIds = [] ∨ s.lpIds = [id]
  fossils : ∀ rec ∈ (s.ctx id).fossils, rec.annuls key = false
  unlost : ∀ ev ∈ s.hist.lost, ev.annuls key = false
  processed : ∀ rec ∈ (s.ctx id).processed, rec.executes key = false

instance (key : UidKey) (id : LPId) (s : Simulation Q σ) : Decidable (Bare key id s) :=
  decidable_of_iff ((s.lpIds = [] ∨ s.lpIds = [id]) ∧ (∀ rec ∈ (s.ctx id).fossils, rec.annuls key = false) ∧
      (∀ ev ∈ s.hist.lost, ev.annuls key = false) ∧
        ∀ rec ∈ (s.ctx id).processed, rec.executes key = false)
    ⟨fun ⟨ha, hf, hl, hp⟩ => ⟨ha, hf, hl, hp⟩, fun ⟨ha, hf, hl, hp⟩ => ⟨ha, hf, hl, hp⟩⟩

theorem Bare.clear {s t : Simulation Q σ} (h : Bare key id s) (hb : BooksInv s.atRest) :
    ClearTo key s t := by
  have hkept : ∀ i rec, rec ∈ (s.ctx i).kept → i = id := by
    intro i rec hrec
    by_cases hi : i ∈ s.lpIds
    · rcases h.alone with hids | hids
      · rw [hids] at hi
        cases hi
      · simpa [hids] using hi
    · rw [show (s.ctx i).kept = [] from hb.kept_of_fresh hi] at hrec
      cases hrec
  refine ⟨fun ev _ _ _ rec hrec => ?_, h.unlost, fun i r hr hexec => ?_⟩
  · rw [hkept _ rec (List.mem_append_left _ hrec)] at hrec
    exact h.fossils rec hrec
  · rw [hkept i r (List.mem_append_right _ hr)] at hr
    exact absurd ((h.processed r hr).symm.trans hexec) (by simp)

theorem Reachable.bare {s : Simulation Q σ} (h : Reachable model cfg (Clear model cfg key) s)
    {ops : List HostOp} (hops : Obeys model cfg (fun s _ => Bare key id s) ops s) :
    Reachable model cfg (Clear model cfg key) (WarpSim.hostRun model cfg ops s) := by
  induction ops generalizing s with
  | nil => exact h
  | cons op ops ih => exact ih (h.step (hops.1.clear h.booksInv)) hops.2

def workAt (time : UInt64) (uid : EventUid) : Event :=
  { ts := ⟨time, 1⟩, src := 9, dst := 1, uid := uid, payload := { kind := uid.toUInt32 } }

/-- An anti-message for the event `7`, which is due at 8. -/
def antiAt (time : UInt64) : Event :=
  { ts := ⟨time, 1⟩, src := 9, dst := 1, uid := 7, isAnti := true }

/-- A journal with the anti-message, its event and other work in its queue. -/
def antiRun (work : List Event) (turns : ℕ) : List HostOp :=
  [.addLp 1, .schedule (antiAt 5), .schedule (workAt 8 7)] ++ work.map .schedule ++
    List.replicate turns (.runOne {} true)

def afterRun (ops : List HostOp) : Simulation sortedEventQueue ByteBuffer :=
  hostRun (fun _ => journal) {} ops (Simulation.create _ fun _ => journal)

/-- With work at one other time the event is gone when GVT gets to the anti-message. -/
theorem early_anti_suppresses_journal :
    Suppresses (fun _ => journal) {} ⟨9, 7⟩ (afterRun (antiRun [workAt 6 1] 1)) (.runOne {} true) := by
  have hops : Obeys (Q := sortedEventQueue) (fun _ => journal) {} (fun s _ => Bare ⟨9, 7⟩ 1 s)
      (antiRun [workAt 6 1] 1) (Simulation.create _ fun _ => journal) :=
    ⟨by decide +kernel, by decide +kernel, by decide +kernel, by decide +kernel, by decide +kernel, trivial⟩
  have h := Reachable.bare .create hops
  have hbare : Bare ⟨9, 7⟩ 1 (afterRun (antiRun [workAt 6 1] 1)) := by decide +kernel
  have hop : Clear (fun _ => journal) {} ⟨9, 7⟩ (afterRun (antiRun [workAt 6 1] 1)) (.runOne {} true) :=
    hbare.clear h.booksInv
  have hids : (exec (hostOp (fun _ => journal) {} (.runOne {} true))
      (afterRun (antiRun [workAt 6 1] 1))).2.lpIds = [1] := by decide +kernel
  have hone : ∀ i ∈ (exec (hostOp (fun _ => journal) {} (.runOne {} true))
      (afterRun (antiRun [workAt 6 1] 1))).2.lpIds, i = 1 :=
    fun i hi => List.mem_singleton.mp (hids ▸ hi)
  exact early_anti_suppresses h hop hone

/-- With work at two other times GVT passes the anti-message first, and its event is executed though the
anti-message has never been undone. -/
theorem early_anti_expires :
    ∃ s : Simulation sortedEventQueue ByteBuffer,
      Reachable (fun _ => journal) {} (fun _ _ => True) s ∧ Timely s.hist ∧ s.lpIds = [1] ∧
        (s.ctx 1).undone = [] ∧ ¬ Suppresses (fun _ => journal) {} ⟨9, 7⟩ s (.runOne {} true) ∧
        7 ∈ ((exec (hostOp (fun _ => journal) {} (.runOne {} true)) s).2.ctx 1).lp := by
  refine ⟨afterRun (antiRun [workAt 6 1, workAt 7 2] 3), Reachable.hostRun .create (obeys_true _ _),
    ⟨?_, ?_⟩, ?_, ?_, fun h => ?_, ?_⟩
  rotate_left 4
  · have hd : (⟨workAt 8 7, ⟨7, 1⟩, some (workAt 7 2)⟩ : Dispatch) ∈
        dispatchedBy (fun _ => journal) {} (.runOne {} true)
          (afterRun (antiRun [workAt 6 1, workAt 7 2] 3)) := by decide +kernel
    have hrec : newRecord (antiAt 5) ({ lp := [] } : LPContext ByteBuffer) ∈
        ((afterRun (antiRun [workAt 6 1, workAt 7 2] 3)).ctx 1).kept := by decide +kernel
    exact h _ hd rfl rfl _ hrec (by decide) (by decide)
  all_goals decide +kernel

end WarpSim

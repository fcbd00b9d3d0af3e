import WarpSim.Verification.Checker.Runs

/-! # The books of the LPs

Every LP keeps a list of all records it has ever made. At each move these are the records still
in place, those undone and those committed. -/

namespace WarpSim

variable {Q : EventQueue} {σ : Type} {sound final : Prop} {model : Model σ} {cfg : SimulationConfig}

open Simulation

/-! ## What is kept of an LP -/

/-- The records of the LP that have not been undone, in the order of execution. -/
def LPContext.kept (c : LPContext σ) : List ProcessedRecord := c.fossils ++ c.processed

/-- The records of an LP, apart from the state of the model code. -/
structure SameBooks (c c' : LPContext σ) : Prop where
  vt : c'.vt = c.vt
  inEvent : c'.inEvent = c.inEvent
  currentExecTs : c'.currentExecTs = c.currentExecTs
  processed : c'.processed = c.processed
  executed : c'.executed = c.executed
  undone : c'.undone = c.undone
  fossils : c'.fossils = c.fossils

theorem SameBooks.refl (c : LPContext σ) : SameBooks c c := ⟨rfl, rfl, rfl, rfl, rfl, rfl, rfl⟩

theorem SameBooks.trans {c c' c'' : LPContext σ} (h : SameBooks c c') (h' : SameBooks c' c'') :
    SameBooks c c'' :=
  ⟨h'.vt.trans h.vt, h'.inEvent.trans h.inEvent, h'.currentExecTs.trans h.currentExecTs,
    h'.processed.trans h.processed, h'.executed.trans h.executed, h'.undone.trans h.undone,
    h'.fossils.trans h.fossils⟩

theorem SameWork.books {c c' : LPContext σ} (h : SameWork c c') : SameBooks c c' :=
  ⟨h.vt, h.inEvent, h.currentExecTs, h.processed, h.executed, h.undone, h.fossils⟩

theorem sameBooks_setLp (id : LPId) (state : σ) (s : Simulation Q σ) (i : LPId) :
    SameBooks (s.ctx i) ((setLp id state s).ctx i) := by
  by_cases hi : i = id
  · rw [hi, setLp, modifyCtx_self]
    exact ⟨rfl, rfl, rfl, rfl, rfl, rfl, rfl⟩
  · rw [setLp, modifyCtx_of_ne s _ hi]
    exact SameBooks.refl _

/-- What the records of the LP `id` satisfy. -/
structure LedgerInv (id : LPId) (c : LPContext σ) : Prop where
  balanced : c.executed.Perm (c.undone ++ c.kept)
  serials : c.executed.map (·.serial) = List.range c.executed.length
  filed : ∀ rec ∈ c.executed, rec.ev.dst = id
  stamped : ∀ rec ∈ c.executed, ∀ out ∈ rec.committed, out.ts = rec.ev.ts

theorem SameBooks.kept {c c' : LPContext σ} (h : SameBooks c c') : c'.kept = c.kept := by
  rw [LPContext.kept, LPContext.kept, h.fossils, h.processed]

theorem LedgerInv.congr {id : LPId} {c c' : LPContext σ} (h : LedgerInv id c)
    (hexec : c'.executed = c.executed) (hundone : c'.undone = c.undone) (hkept : c'.kept = c.kept) :
    LedgerInv id c' := by
  refine ⟨?_, ?_, ?_, ?_⟩
  · rw [hexec, hundone, hkept]; exact h.balanced
  · rw [hexec]; exact h.serials
  · rw [hexec]; exact h.filed
  · rw [hexec]; exact h.stamped

theorem LedgerInv.same {id : LPId} {c c' : LPContext σ} (h : LedgerInv id c) (hs : SameBooks c c') :
    LedgerInv id c' :=
  h.congr hs.executed hs.undone hs.kept

theorem ContextInv.same {c c' : LPContext σ} (h : ContextInv c) (hs : SameBooks c c') :
    ContextInv c' := by
  refine ⟨?_, ?_, ?_⟩
  · rw [hs.processed]; exact h.sorted
  · rw [hs.processed, hs.vt]; exact h.behind
  · rw [hs.inEvent, hs.currentExecTs, hs.vt]; exact h.executing

theorem LedgerInv.kept_sub {id : LPId} {c : LPContext σ} (h : LedgerInv id c) {rec : ProcessedRecord}
    (hrec : rec ∈ c.kept) : rec ∈ c.executed :=
  h.balanced.mem_iff.mpr (List.mem_append_right _ hrec)

theorem LedgerInv.processed_sub {id : LPId} {c : LPContext σ} (h : LedgerInv id c)
    {rec : ProcessedRecord} (hrec : rec ∈ c.processed) : rec ∈ c.executed :=
  h.kept_sub (List.mem_append_right _ hrec)

theorem LedgerInv.nodup {id : LPId} {c : LPContext σ} (h : LedgerInv id c) :
    (c.undone.map (·.serial) ++ c.kept.map (·.serial)).Nodup := by
  rw [← List.map_append, ← (h.balanced.map _).nodup_iff, h.serials]
  exact List.nodup_range

theorem mem_append_singleton {α : Type*} {l : List α} {a b : α} (h : b ∈ l ++ [a]) : b ∈ l ∨ b = a := by
  simpa using h

theorem LedgerInv.push {id : LPId} {c : LPContext σ} (h : LedgerInv id c) {rec : ProcessedRecord}
    (hdst : rec.ev.dst = id) (hserial : rec.serial = c.executed.length)
    (hout : ∀ out ∈ rec.committed, out.ts = rec.ev.ts) :
    LedgerInv id { c with processed := c.processed ++ [rec], executed := c.executed ++ [rec] } := by
  refine ⟨?_, ?_, fun r hr => ?_, fun r hr => ?_⟩
  · have hperm := h.balanced.append_right [rec]
    simpa [LPContext.kept] using hperm
  · simp [h.serials, hserial, List.range_succ]
  · rcases List.mem_append.mp hr with hr | hr
    · exact h.filed r hr
    · rw [List.mem_singleton.mp hr]; exact hdst
  · rcases List.mem_append.mp hr with hr | hr
    · exact h.stamped r hr
    · rw [List.mem_singleton.mp hr]; exact hout

theorem LedgerInv.rewind {id : LPId} {c : LPContext σ} (h : LedgerInv id c) (lp : LogicalProcess σ)
    (target : TimeStamp) : LedgerInv id (c.rewind lp target) := by
  rw [LPContext.rewind_eq]
  refine ⟨?_, h.serials, h.filed, h.stamped⟩
  refine h.balanced.trans ?_
  have hsplit := keptRecords_append_undoneRecords target c.processed
  simp only [LPContext.kept]
  conv_lhs => rw [← hsplit]
  rw [List.append_assoc]
  refine List.Perm.append_left _ ?_
  rw [← List.append_assoc]
  exact List.perm_append_comm

/-- Committing records keeps the list of kept records as it is. -/
theorem kept_prune (gvt : TimeStamp) (c : LPContext σ) : (c.prune gvt).kept = c.kept := by
  simp [LPContext.kept, LPContext.prune, committedRecords, List.takeWhile_append_dropWhile]

theorem LedgerInv.prune {id : LPId} {c : LPContext σ} (h : LedgerInv id c) (gvt : TimeStamp) :
    LedgerInv id (c.prune gvt) :=
  ⟨by rw [kept_prune]; exact h.balanced, h.serials, h.filed, h.stamped⟩

/-! ## The record that a handler fills -/

/-- What filling leaves of a record, and what it adds to it. -/
structure Filled (rec rec' : ProcessedRecord) : Prop where
  ev : rec'.ev = rec.ev
  serial : rec'.serial = rec.serial
  normal : rec'.preNextSeqNormal = rec.preNextSeqNormal
  control : rec'.preNextSeqControl = rec.preNextSeqControl
  hadEntry : rec'.cancelHadEntry = rec.cancelHadEntry
  committed : ∃ outs, rec'.committed = rec.committed ++ outs ∧ ∀ out ∈ outs, out.ts = rec.ev.ts

theorem Filled.trans {rec rec' rec'' : ProcessedRecord} (h : Filled rec rec') (h' : Filled rec' rec'') :
    Filled rec rec'' := by
  obtain ⟨outs, hout, hts⟩ := h.committed
  obtain ⟨outs', hout', hts'⟩ := h'.committed
  refine ⟨h'.ev.trans h.ev, h'.serial.trans h.serial, h'.normal.trans h.normal,
    h'.control.trans h.control, h'.hadEntry.trans h.hadEntry, outs ++ outs', ?_, fun out hmem => ?_⟩
  · rw [hout', hout, List.append_assoc]
  · rcases List.mem_append.mp hmem with hmem | hmem
    · exact hts out hmem
    · rw [← h.ev]; exact hts' out hmem

theorem filled_requestWrite (lp : LogicalProcess σ) (state : σ) (entity : EntityId)
    (rec : ProcessedRecord) : Filled rec (requestWrite lp state entity rec) := by
  have hnone : ∃ outs, rec.committed = rec.committed ++ outs ∧ ∀ out ∈ outs, out.ts = rec.ev.ts :=
    ⟨[], by simp, nofun⟩
  unfold requestWrite
  split
  · exact ⟨rfl, rfl, rfl, rfl, rfl, hnone⟩
  · split
    · exact ⟨rfl, rfl, rfl, rfl, rfl, hnone⟩
    · split <;> exact ⟨rfl, rfl, rfl, rfl, rfl, hnone⟩

theorem Handler.Run.filled {lp : LogicalProcess σ} {handler : Handler σ} {rec rec' : ProcessedRecord}
    {calls : List (Event × Except String Event)} {state : σ}
    (h : Handler.Run lp handler rec calls state rec') : Filled rec rec' := by
  induction h with
  | done state rec => exact ⟨rfl, rfl, rfl, rfl, rfl, [], by simp, nofun⟩
  | send _ ih =>
      obtain ⟨outs, hout, hts⟩ := ih.committed
      exact ⟨ih.ev, ih.serial, ih.normal, ih.control, ih.hadEntry, outs, hout, hts⟩
  | write _ ih => exact (filled_requestWrite _ _ _ _).trans ih
  | @emit ts payload next rec calls state rec' hts _ ih =>
      have hone : Filled rec { rec with committed := rec.committed ++ [⟨ts, payload⟩] } := by
        refine ⟨rfl, rfl, rfl, rfl, rfl, [⟨ts, payload⟩], rfl, fun out hout => ?_⟩
        rw [List.mem_singleton.mp hout]
        exact hts
      exact hone.trans ih
  | emitRefused _ _ ih => exact ih

/-! ## Stages of a dispatch -/

/-- What matters to the books in an activity. -/
inductive Stage (σ : Type) where
  | rest
  | running (before : LPContext σ) (ev : Event)
  | undoing (rec : ProcessedRecord)

def Activity.stage : Activity σ → Stage σ
  | .idle => .rest
  | .holding _ => .rest
  | .executing before ev _ => .running before ev
  | .annulling rec => .undoing rec
  | .annulled rec => .undoing rec

theorem stage_noteCall (a : Activity σ) (asked : Event) (r : Except String Event) :
    (a.noteCall asked r).stage = a.stage := by
  cases a <;> rfl

/-- The context of an LP as it enters an event. -/
def LPContext.enter (ev : Event) (c : LPContext σ) : LPContext σ :=
  { c with vt := ev.ts, inEvent := true, currentExecTs := ev.ts }

/-- How the simulation looks at each stage of a dispatch. -/
def Stage.Fits (s : Simulation Q σ) : Stage σ → Prop
  | .rest => True
  | .running before ev => ev.isAnti = false ∧ ev.dst ∈ s.lpIds ∧ ContextInv before ∧
      SameBooks (before.enter ev) (s.ctx ev.dst)
  | .undoing rec => rec.ev.isAnti = true ∧ rec.ev.dst ∈ s.lpIds ∧
      (s.ctx rec.ev.dst).vt ≤ rec.ev.ts ∧ rec.serial = (s.ctx rec.ev.dst).executed.length ∧
      rec.committed = [] ∧ rec.sent = []

theorem Stage.Fits.same {s s' : Simulation Q σ} {st : Stage σ} (h : st.Fits s)
    (hids : s'.lpIds = s.lpIds) (hsame : ∀ i, SameBooks (s.ctx i) (s'.ctx i)) : st.Fits s' := by
  cases st with
  | rest => trivial
  | running before ev => exact ⟨h.1, hids ▸ h.2.1, h.2.2.1, h.2.2.2.trans (hsame _)⟩
  | undoing rec =>
      obtain ⟨hanti, hdst, hvt, hserial, hempty⟩ := h
      refine ⟨hanti, hids ▸ hdst, ?_, ?_, hempty⟩
      · rw [(hsame _).vt]; exact hvt
      · rw [(hsame _).executed]; exact hserial

/-- The invariant of the books. -/
structure BooksInv (x : Situation Q σ) : Prop where
  context : ∀ id, ContextInv (x.state.ctx id)
  ledger : ∀ id, LedgerInv id (x.state.ctx id)
  fresh : ∀ id, id ∉ x.state.lpIds → (x.state.ctx id).executed = []
  executing : ∀ id, (x.state.ctx id).inEvent = true →
    ∃ before ev, x.activity.stage = .running before ev ∧ ev.dst = id
  stage : x.activity.stage.Fits x.state
  owed : x.owed ≠ [] → x.activity.unwinding ≠ none

/-- A move that leaves all books as they are. -/
theorem BooksInv.keep {x y : Situation Q σ} (h : BooksInv x) (hids : y.state.lpIds = x.state.lpIds)
    (hsame : ∀ i, SameBooks (x.state.ctx i) (y.state.ctx i))
    (hstage : y.activity.stage = x.activity.stage ∨
      (y.activity.stage = .rest ∧ ∀ before ev, x.activity.stage ≠ .running before ev))
    (howed : y.owed ≠ [] → y.activity.unwinding ≠ none) : BooksInv y := by
  refine ⟨fun i => (h.context i).same (hsame i), fun i => (h.ledger i).same (hsame i),
    fun i hi => ?_, fun i hi => ?_, ?_, howed⟩
  · rw [(hsame i).executed]
    exact h.fresh i (hids ▸ hi)
  · rw [(hsame i).inEvent] at hi
    obtain ⟨before, ev, hrun, hdst⟩ := h.executing i hi
    rcases hstage with heq | ⟨-, hne⟩
    · exact ⟨before, ev, heq.trans hrun, hdst⟩
    · exact absurd hrun (hne before ev)
  · rcases hstage with heq | ⟨heq, -⟩
    · rw [heq]; exact h.stage.same hids hsame
    · rw [heq]; trivial

/-- At rest no LP is executing. -/
theorem BooksInv.idle {x : Situation Q σ} (h : BooksInv x)
    (hstage : ∀ before ev, x.activity.stage ≠ .running before ev) : Idle x.state := by
  intro i
  by_contra hin
  obtain ⟨before, ev, hrun, -⟩ := h.executing i (by simpa using hin)
  exact hstage before ev hrun

/-- A move that changes the books of one LP only. -/
theorem BooksInv.change {x y : Situation Q σ} (h : BooksInv x) (id : LPId)
    (hids : y.state.lpIds = x.state.lpIds) (hne : ∀ i, i ≠ id → y.state.ctx i = x.state.ctx i)
    (hcontext : ContextInv (y.state.ctx id)) (hledger : LedgerInv id (y.state.ctx id))
    (hfresh : id ∉ x.state.lpIds → (y.state.ctx id).executed = [])
    (hexec : ∀ i, (y.state.ctx i).inEvent = true →
      ∃ before ev, y.activity.stage = .running before ev ∧ ev.dst = i)
    (hstage : y.activity.stage.Fits y.state)
    (howed : y.owed ≠ [] → y.activity.unwinding ≠ none) : BooksInv y := by
  refine ⟨fun i => ?_, fun i => ?_, fun i hi => ?_, hexec, hstage, howed⟩
  · by_cases hi : i = id
    · rw [hi]; exact hcontext
    · rw [hne i hi]; exact h.context i
  · by_cases hi : i = id
    · rw [hi]; exact hledger
    · rw [hne i hi]; exact h.ledger i
  · by_cases heq : i = id
    · subst heq; exact hfresh (hids ▸ hi)
    · rw [hne i heq]; exact h.fresh i (hids ▸ hi)

/-- The end of an execution. -/
theorem BooksInv.leave {x y : Situation Q σ} (h : BooksInv x) (before : LPContext σ) (ev : Event)
    (hrun : x.activity.stage = .running before ev) (hids : y.state.lpIds = x.state.lpIds)
    (hother : ∀ i, i ≠ ev.dst → y.state.ctx i = x.state.ctx i)
    (hcontext : ContextInv (y.state.ctx ev.dst)) (hledger : LedgerInv ev.dst (y.state.ctx ev.dst))
    (hin : (y.state.ctx ev.dst).inEvent = false) (hstage : y.activity.stage = .rest)
    (howed : y.owed = []) : BooksInv y := by
  have hfits := h.stage
  rw [hrun] at hfits
  refine h.change ev.dst hids hother hcontext hledger (absurd hfits.2.1) (fun i hi => ?_)
    (by rw [hstage]; trivial) (fun hne => absurd howed hne)
  by_cases heq : i = ev.dst
  · subst heq
    exact absurd (hin.symm.trans hi) (by simp)
  · rw [hother i heq] at hi
    obtain ⟨before', ev', hstage', hdst'⟩ := h.executing i hi
    rw [hrun] at hstage'
    cases hstage'
    exact absurd hdst'.symm heq

theorem antiRecord_fits (ev : Event) (s : Simulation Q σ) :
    (antiRecord ev s).ev = ev ∧ (antiRecord ev s).serial = (s.ctx ev.dst).executed.length ∧
      (antiRecord ev s).committed = [] ∧ (antiRecord ev s).sent = [] := by
  unfold antiRecord
  split <;> exact ⟨rfl, rfl, rfl, rfl⟩

/-- A rewound state has been restored from the records undone. -/
theorem rewind_lp (lp : LogicalProcess σ) (target : TimeStamp) (c : LPContext σ) :
    (c.rewind lp target).lp = restoreState lp (undoneRecords target c.processed) c.lp := by
  unfold LPContext.rewind
  dsimp only
  split
  · next h => simp [h, restoreState, restoreLpState, restoreEntities]
  · next h => rw [h]

theorem rewind_vt (lp : LogicalProcess σ) (target : TimeStamp) (c : LPContext σ) :
    (c.rewind lp target).vt = prevStamp target := by
  rw [LPContext.rewind_eq]

theorem rewind_executed (lp : LogicalProcess σ) (target : TimeStamp) (c : LPContext σ) :
    (c.rewind lp target).executed = c.executed := by
  rw [LPContext.rewind_eq]

theorem unwound_ctx (id : LPId) (target : TimeStamp) (s : Simulation Q σ) :
    (unwound model id target s).ctx =
      Function.update s.ctx id ((s.ctx id).rewind (model id) target) := by
  rw [unwound_eq]

theorem unwound_lpIds (id : LPId) (target : TimeStamp) (s : Simulation Q σ) :
    (unwound model id target s).lpIds = s.lpIds := by
  rw [unwound_eq]

/-- A rollback of an LP while none is executing. -/
theorem BooksInv.unwound {x y : Situation Q σ} {id : LPId} {target : TimeStamp} (h : BooksInv x)
    (hidle : ∀ before ev, x.activity.stage ≠ .running before ev)
    (hid : id ∈ x.state.lpIds) (hy : y.state = WarpSim.unwound model id target x.state)
    (hstage : y.activity.stage.Fits y.state) (howed : y.owed ≠ [] → y.activity.unwinding ≠ none) :
    BooksInv y := by
  have hself : y.state.ctx id = (x.state.ctx id).rewind (model id) target := by
    rw [hy, unwound_ctx, Function.update_self]
  refine h.change id (by rw [hy, unwound_lpIds]) (fun i hi => ?_) ?_ ?_ (absurd hid) (fun i hi => ?_)
    hstage howed
  · rw [hy, unwound_ctx, Function.update_of_ne hi]
  · rw [hself]; exact (h.context id).rewind (h.idle hidle id) _ _
  · rw [hself]; exact (h.ledger id).rewind _ _
  · rw [hy] at hi
    have hrest := idle_unwound model (h.idle hidle) id target i
    exact absurd (hrest.symm.trans hi) (by simp)

theorem lastMatch_mem {anti : Event} {processed : List ProcessedRecord} {r : ProcessedRecord}
    (h : processed.reverse.find? (matchesAnti anti) = some r) : r ∈ processed :=
  List.mem_reverse.mp (List.mem_of_find?_eq_some h)

theorem Move.booksInv {x y : Situation Q σ} (hm : Move model cfg x y) (h : BooksInv x) :
    BooksInv y := by
  have hsame : ∀ s : Simulation Q σ, ∀ i, SameBooks (s.ctx i) (s.ctx i) := fun _ _ => SameBooks.refl _
  cases hm with
  | quiet hq => exact h.keep hq.lpIds (fun i => hq.ctx ▸ SameBooks.refl _) (Or.inl rfl) h.owed
  | @register s id hid =>
      refine ⟨fun i => ?_, fun i => ?_, fun i hi => ?_, fun i hi => ?_, trivial, by simp⟩
      all_goals dsimp only at *; by_cases heq : i = id
      · rw [heq, Function.update_self]
        exact ⟨List.Pairwise.nil, by simp, by simp⟩
      · rw [Function.update_of_ne heq]
        exact h.context i
      · rw [heq, Function.update_self]
        exact ⟨List.Perm.nil, rfl, by simp, by simp⟩
      · rw [Function.update_of_ne heq]
        exact h.ledger i
      · rw [heq, Function.update_self]
      · rw [Function.update_of_ne heq]
        exact h.fresh i fun hmem => hi (List.mem_append_left _ hmem)
      · rw [heq, Function.update_self] at hi
        exact absurd hi (by simp)
      · rw [Function.update_of_ne heq] at hi
        exact h.executing i hi
  | start => exact h.keep rfl (hsame _) (Or.inl rfl) h.owed
  | prepare => exact h.keep rfl (sameBooks_setLp _ _ _) (Or.inl rfl) h.owed
  | schedule => exact h.keep rfl (hsame _) (Or.inl rfl) h.owed
  | receive => rw [receiveEvent_eq]; exact h.keep rfl (hsame _) (Or.inl rfl) h.owed
  | acknowledge => rw [receiveAck_eq]; exact h.keep rfl (hsame _) (Or.inl rfl) h.owed
  | queueMigration => exact h.keep rfl (hsame _) (Or.inl rfl) h.owed
  | migrate => exact h.keep rfl (sameBooks_setLp _ _ _) (Or.inl rfl) h.owed
  | misplace => exact h.keep rfl (hsame _) (Or.inl rfl) h.owed
  | sent =>
      refine h.keep ?_ (fun i => (sameWork_sent ..).books) (Or.inl (stage_noteCall ..)) (by simp)
      rw [posted_eq]
      rfl
  | unlogged =>
      refine h.keep ?_ (fun i => ?_) (Or.inl (stage_noteCall ..)) (by simp)
      · rw [posted_eq]
        rfl
      · rw [posted_ctx]
        exact (sameWork_renumber ..).books
  | refused => exact h.keep rfl (fun i => (sameWork_renumber ..).books) (Or.inl (stage_noteCall ..)) (by simp)
  | discard => exact h.keep rfl (hsame _) (Or.inl rfl) h.owed
  | pop => exact h.keep rfl (hsame _) (Or.inl rfl) (by simp)
  | straggle hdst => exact h.unwound (by rintro _ _ ⟨⟩) hdst rfl trivial (by rintro _ ⟨⟩)
  | requeue => exact h.keep rfl (hsame _) (Or.inl rfl) (by simp)
  | @enter s ev hanti hdst hvt =>
      have hself : (entered ev s).ctx ev.dst = (s.ctx ev.dst).enter ev := modifyCtx_self ..
      have hother : ∀ i, i ≠ ev.dst → (entered ev s).ctx i = s.ctx i := fun i hi => modifyCtx_of_ne s _ hi
      refine h.change ev.dst rfl hother ?_ ?_ (absurd hdst) (fun i hi => ?_)
        ⟨hanti, hdst, h.context ev.dst, ?_⟩ (by simp)
      · rw [hself]
        exact ⟨(h.context _).sorted,
          fun rec hrec => ((h.context _).behind rec hrec).trans (not_lt.mp hvt), fun _ => rfl⟩
      · rw [hself]
        have hledger : LedgerInv ev.dst ((s.ctx ev.dst).enter ev) := (h.ledger _).congr rfl rfl rfl
        exact hledger
      · by_cases heq : i = ev.dst
        · exact ⟨_, _, rfl, heq.symm⟩
        · rw [entered, modifyCtx_of_ne s _ heq] at hi
          have := h.idle (by rintro _ _ ⟨⟩) i
          exact absurd (this.symm.trans hi) (by simp)
      · rw [hself]
        exact SameBooks.refl _
  | store => exact h.keep rfl (sameBooks_setLp _ _ _) (Or.inl rfl) (by simp)
  | @finish before ev calls s rec hrun =>
      obtain ⟨hanti, hdst, hbefore, hbooks⟩ := h.stage
      have hfill := hrun.filled
      obtain ⟨outs, hout, hts⟩ := hfill.committed
      have hself : (pushProcessed ev.dst rec (left ev.dst s)).ctx ev.dst =
          { s.ctx ev.dst with
            inEvent := false
            processed := (s.ctx ev.dst).processed ++ [rec]
            executed := (s.ctx ev.dst).executed ++ [rec] } := by
        rw [pushProcessed, modifyCtx_self, left, modifyCtx_self]
      have hother : ∀ i, i ≠ ev.dst → (pushProcessed ev.dst rec (left ev.dst s)).ctx i = s.ctx i :=
        fun i hi => by rw [pushProcessed, modifyCtx_of_ne _ _ hi, left, modifyCtx_of_ne _ _ hi]
      have hleft : ContextInv { s.ctx ev.dst with inEvent := false } :=
        ⟨(h.context ev.dst).sorted, (h.context ev.dst).behind, by simp⟩
      refine h.leave before ev rfl rfl hother ?_ ?_ ?_ rfl rfl
      · rw [hself]
        exact hleft.push rec (by rw [hfill.ev]; exact hbooks.vt.symm)
      · rw [hself]
        have hledger : LedgerInv ev.dst { s.ctx ev.dst with inEvent := false } :=
          (h.ledger ev.dst).congr rfl rfl rfl
        refine hledger.push (by rw [hfill.ev]; rfl) ?_ fun out hmem => ?_
        · rw [hfill.serial]
          exact congrArg List.length hbooks.executed.symm
        · rw [hout] at hmem
          rw [hfill.ev]
          exact hts out (by simpa [newRecord] using hmem)
      · rw [hself]
  | release => rw [released_eq]; exact h.keep rfl (hsame _) (Or.inl rfl) h.owed
  | @defer before ev calls s hbuf =>
      obtain ⟨hanti, hdst, hbefore, hbooks⟩ := h.stage
      have hself : (deferTargetedEvent ev ((left ev.dst s).modifyCtx ev.dst fun c =>
          { c with vt := before.vt, currentExecTs := before.vt })).ctx ev.dst =
          { s.ctx ev.dst with inEvent := false, vt := before.vt, currentExecTs := before.vt } := by
        rw [deferTargetedEvent, modifyCtx_self, left, modifyCtx_self]
      refine h.leave before ev rfl rfl (fun i hi => ?_) ?_ ?_ ?_ rfl rfl
      · rw [deferTargetedEvent, modifyCtx_of_ne _ _ hi, left, modifyCtx_of_ne _ _ hi]
      · rw [hself]
        refine ⟨?_, ?_, by simp⟩
        · exact hbooks.processed ▸ hbefore.sorted
        · exact hbooks.processed ▸ hbefore.behind
      · rw [hself]
        exact (h.ledger ev.dst).congr rfl rfl rfl
      · rw [hself]
  | @abort before ev calls s =>
      have hself : (left ev.dst s).ctx ev.dst = { s.ctx ev.dst with inEvent := false } :=
        modifyCtx_self ..
      refine h.leave before ev rfl rfl
        (fun i hi => modifyCtx_of_ne s (fun c => { c with inEvent := false }) hi) ?_ ?_ ?_ rfl rfl
      · rw [hself]
        exact ⟨(h.context ev.dst).sorted, (h.context ev.dst).behind, by simp⟩
      · rw [hself]
        exact (h.ledger ev.dst).congr rfl rfl rfl
      · rw [hself]
  | @mark s ev hanti hdst hvt =>
      refine ⟨h.context, h.ledger, h.fresh, fun i hi => ?_, ?_, by simp⟩
      · exact absurd ((h.idle (by rintro _ _ ⟨⟩) i).symm.trans hi) (by simp)
      · have hrec := antiRecord_fits ev s
        refine ⟨by rw [hrec.1]; exact hanti, by rw [hrec.1]; exact hdst, ?_, ?_, hrec.2.2⟩
        · rw [hrec.1]; exact not_lt.mp hvt
        · rw [hrec.1]; exact hrec.2.1
  | @matched s rec r hdst hfind =>
      obtain ⟨hanti, hdst, hvt, hserial, hempty⟩ := h.stage
      have hself : (WarpSim.unwound model rec.ev.dst r.ev.ts s).ctx rec.ev.dst =
          (s.ctx rec.ev.dst).rewind (model rec.ev.dst) r.ev.ts := by
        rw [unwound_ctx, Function.update_self]
      refine h.unwound (by rintro _ _ ⟨⟩) hdst rfl ⟨hanti, by rw [unwound_lpIds]; exact hdst, ?_, ?_, hempty⟩
        (by rintro _ ⟨⟩)
      · rw [hself, rewind_vt]
        have hr := (h.context rec.ev.dst).behind r (lastMatch_mem hfind)
        exact (prevStamp_le _).trans (hr.trans hvt)
      · rw [hself, rewind_executed]
        exact hserial
  | unmatched => exact h.keep rfl (hsame _) (Or.inl rfl) (by simp)
  | @settle s rec =>
      obtain ⟨hanti, hdst, hvt, hserial, hcommitted, -⟩ := h.stage
      have hself : (pushProcessed rec.ev.dst rec (s.modifyCtx rec.ev.dst fun c =>
          { c with vt := rec.ev.ts })).ctx rec.ev.dst =
          { s.ctx rec.ev.dst with
            vt := rec.ev.ts
            processed := (s.ctx rec.ev.dst).processed ++ [rec]
            executed := (s.ctx rec.ev.dst).executed ++ [rec] } := by
        rw [pushProcessed, modifyCtx_self, modifyCtx_self]
      have hidle := h.idle (by rintro _ _ ⟨⟩)
      have hother : ∀ i, i ≠ rec.ev.dst → (pushProcessed rec.ev.dst rec (s.modifyCtx rec.ev.dst fun c =>
          { c with vt := rec.ev.ts })).ctx i = s.ctx i :=
        fun i hi => by rw [pushProcessed, modifyCtx_of_ne _ _ hi, modifyCtx_of_ne _ _ hi]
      have hmoved : ContextInv { s.ctx rec.ev.dst with vt := rec.ev.ts } := by
        refine ⟨(h.context _).sorted, fun r hr => ((h.context _).behind r hr).trans hvt, fun hin => ?_⟩
        exact absurd ((hidle rec.ev.dst).symm.trans hin) (by simp)
      refine h.change rec.ev.dst rfl hother ?_ ?_ (absurd hdst) (fun i hi => ?_) trivial (by simp)
      · rw [hself]
        exact hmoved.push rec rfl
      · rw [hself]
        have hledger : LedgerInv rec.ev.dst { s.ctx rec.ev.dst with vt := rec.ev.ts } :=
          (h.ledger rec.ev.dst).congr rfl rfl rfl
        exact hledger.push rfl hserial (by rw [hcommitted]; simp)
      · by_cases heq : i = rec.ev.dst
        · subst heq
          rw [hself] at hi
          exact absurd ((hidle rec.ev.dst).symm.trans hi) (by simp)
        · dsimp only at hi
          rw [hother i heq] at hi
          exact absurd ((hidle i).symm.trans hi) (by simp)
  | annul =>
      refine h.keep ?_ (fun i => (sameWork_annul ..).books) (Or.inl rfl)
        (fun hne => h.owed (by simp))
      rw [posted_eq]
      rfl
  | @stuck a id log owed s ev u n k w what ha =>
      refine h.keep rfl (fun i => (sameWork_renumber id u n k w s i).books) (Or.inr ⟨rfl, ?_⟩) (by simp)
      rintro before ev' hrun
      cases a <;> simp_all [Activity.stage, Activity.unwinding]
  | lose => exact h.keep rfl (hsame _) (Or.inl rfl) (by simp)

theorem GvtMove.booksInv {x y : Situation Q σ} (hm : GvtMove sound final cfg x y) (h : BooksInv x) :
    BooksInv y := by
  have hprune : ∀ (s : Simulation Q σ) (gvt : TimeStamp), BooksInv ⟨.idle, [], s⟩ →
      BooksInv ⟨.idle, [], pruneToGvt cfg gvt s⟩ := by
    intro s gvt h
    refine ⟨fun i => ?_, fun i => ?_, fun i hi => ?_, fun i hi => ?_, trivial, by simp⟩
    · dsimp only [pruneToGvt]
      split
      · exact (h.context i).prune gvt
      · exact h.context i
    · dsimp only [pruneToGvt]
      split
      · exact (h.ledger i).prune gvt
      · exact h.ledger i
    · exact (prune_proj cfg (·.executed) (fun _ _ => rfl) gvt s i).trans (h.fresh i hi)
    · exact h.executing i ((prune_proj cfg (·.inEvent) (fun _ _ => rfl) gvt s i).symm.trans hi)
  have hkeep : ∀ s s' : Simulation Q σ, s'.lpIds = s.lpIds → s'.ctx = s.ctx →
      BooksInv ⟨.idle, [], s⟩ → BooksInv ⟨.idle, [], s'⟩ := fun s s' hids hctx h =>
    h.keep hids (fun i => hctx ▸ SameBooks.refl _) (Or.inl rfl) (by simp)
  cases hm with
  | @advance s gvt => exact hprune _ gvt (hkeep s _ rfl rfl h)
  | prune => exact hprune _ _ h
  | @flush s => exact hkeep (pruneToGvt cfg maxStamp s) _ rfl rfl (hprune s maxStamp h)
  | @flip s => exact hkeep s _ rfl rfl h
  | @reset s => exact hkeep s _ rfl rfl h

theorem booksInv_create : BooksInv (Simulation.create Q model).atRest :=
  { context := fun _ => ⟨List.Pairwise.nil, by rintro _ ⟨⟩, by rintro ⟨⟩⟩
    ledger := fun _ => ⟨List.Perm.nil, rfl, by rintro _ ⟨⟩, by rintro _ ⟨⟩⟩
    fresh := fun _ _ => rfl
    executing := by rintro _ ⟨⟩
    stage := trivial
    owed := fun h => absurd rfl h }

theorem AllMoves.booksInv {x y : Situation Q σ} (h : AllMoves sound final model cfg x y)
    (hx : BooksInv x) : BooksInv y := by
  induction h with
  | refl => exact hx
  | tail _ hm ih => exact hm.elim (fun hm => hm.booksInv ih) fun hm => hm.booksInv ih

theorem Reachable.booksInv {allowed : Simulation Q σ → HostOp → Prop} {s : Simulation Q σ}
    (h : Reachable model cfg allowed s) : BooksInv s.atRest := by
  have hmoves : AllMoves False True model cfg (Simulation.create Q model).atRest s.atRest :=
    h.moves fun hfalse => hfalse.elim
  exact AllMoves.booksInv hmoves booksInv_create

theorem BooksInv.kept_of_fresh {x : Situation Q σ} (h : BooksInv x) {i : LPId} (hi : i ∉ x.state.lpIds) :
    (x.state.ctx i).kept = [] := by
  rw [List.eq_nil_iff_forall_not_mem]
  intro rec hrec
  have hmem := (h.ledger i).kept_sub hrec
  rw [h.fresh i hi] at hmem
  cases hmem

end WarpSim

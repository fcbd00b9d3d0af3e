import WarpSim.Verification.History

/-! # GVT as a lower bound

While the world outside and the handlers never go back behind GVT, nothing that the kernel still
has to deal with lies before it. -/

namespace WarpSim

variable {Q : EventQueue} {σ : Type} {sound final : Prop} {model : Model σ} {cfg : SimulationConfig}

open Simulation

/-! ## What is required of a run -/

/-- A call of `send` by the host is for a time not before GVT, and one by a handler for a time not
before the event it handles. -/
def SendRecord.InTime (r : SendRecord) : Prop :=
  match r.cause with
  | .host => r.gvt ≤ r.ev.ts
  | .handler _ execTs => execTs ≤ r.ev.ts
  | _ => True

instance : DecidablePred SendRecord.InTime
  | ⟨.host, _, ev, _, gvt, _⟩ => inferInstanceAs (Decidable (gvt ≤ ev.ts))
  | ⟨.handler _ execTs, _, ev, _, _, _⟩ => inferInstanceAs (Decidable (execTs ≤ ev.ts))
  | ⟨.start _, _, _, _, _, _⟩ => isTrue trivial
  | ⟨.notification, _, _, _, _, _⟩ => isTrue trivial
  | ⟨.rollback _, _, _, _, _, _⟩ => isTrue trivial

/-- Nothing is delivered or sent for a time that is over. -/
structure Timely (hist : History) : Prop where
  delivered : ∀ d ∈ hist.delivered, d.gvt ≤ d.ev.ts
  sends : ∀ r ∈ hist.sends, r.InTime

/-- Some LP or some pending event was not after the deferred event when GVT was raised. -/
def Advance.Covers (a : Advance) (ev : Event) : Prop :=
  (∃ vt ∈ a.vts, vt ≤ ev.ts) ∨ ∃ front ∈ a.pending, front.ts ≤ ev.ts

instance (a : Advance) (ev : Event) : Decidable (a.Covers ev) :=
  have : Decidable (∃ front ∈ a.pending, front.ts ≤ ev.ts) := Multiset.decidableExistsMultiset
  inferInstanceAs (Decidable ((∃ vt ∈ a.vts, vt ≤ ev.ts) ∨ ∃ front ∈ a.pending, front.ts ≤ ev.ts))

/-- Every deferred event was covered whenever GVT was raised. -/
structure Covered (hist : History) : Prop extends Timely hist where
  deferred : ∀ a ∈ hist.advances, ∀ ev ∈ a.deferred, a.Covers ev

theorem Timely.mono {h h' : History} (hle : h.Extends h') (ht : Timely h') : Timely h :=
  ⟨fun d hd => ht.delivered d (hle.delivered.subset hd), fun r hr => ht.sends r (hle.sends.subset hr)⟩

theorem Covered.mono {h h' : History} (hle : h.Extends h') (ht : Covered h') : Covered h :=
  ⟨ht.toTimely.mono hle, fun a ha => ht.deferred a (hle.advances.subset ha)⟩

/-! ## Where events are -/

/-- The event is pending, being dispatched, executed or deferred. -/
inductive Held (x : Situation Q σ) (ev : Event) : Prop where
  | pending : ev ∈ Q.elems x.state.pending → Held x ev
  | hand : x.activity.hand = some ev → Held x ev
  | processed {id rec} : rec ∈ (x.state.ctx id).processed → rec.ev = ev → Held x ev
  | deferred : ev ∈ x.state.deferred → Held x ev

theorem mem_of_top? {q : Q.Carrier} {ev : Event} (h : Q.top? q = some ev) : ev ∈ Q.elems q := by
  rw [Q.elems_pop q ev h]
  exact Multiset.mem_cons_self _ _

theorem mem_pop {q : Q.Carrier} {ev front : Event} (h : Q.top? q = some front)
    (hev : ev ∈ Q.elems (Q.pop q)) : ev ∈ Q.elems q := by
  rw [Q.elems_pop q front h]
  exact Multiset.mem_cons_of_mem hev

theorem mem_discardPending {skip : Event → Bool} {s : Simulation Q σ} {ev : Event}
    (h : ev ∈ Q.elems (discardPending skip s).pending) : ev ∈ Q.elems s.pending := by
  rw [Q.elems_discardWhile skip (Q.size s.pending) s.pending]
  exact Multiset.mem_add.mpr (Or.inr h)

theorem mem_unwound_pending {id : LPId} {target : TimeStamp} {s : Simulation Q σ} {ev : Event}
    (h : ev ∈ Q.elems (unwound model id target s).pending) :
    ev ∈ Q.elems s.pending ∨ ∃ rec ∈ (s.ctx id).processed, rec.ev = ev := by
  rw [unwound_eq] at h
  dsimp only at h
  rw [Q.elems_foldl_push, Multiset.mem_add] at h
  rcases h with h | h
  · exact Or.inl h
  · obtain ⟨rec, hrec, rfl⟩ := List.mem_map.mp (Multiset.mem_coe.mp h)
    have hundone := List.mem_reverse.mp hrec
    exact Or.inr ⟨rec, (List.rtakeWhile_suffix _ _).subset hundone, rfl⟩

theorem mem_unwound_processed {id i : LPId} {target : TimeStamp} {s : Simulation Q σ}
    {rec : ProcessedRecord} (h : rec ∈ ((unwound model id target s).ctx i).processed) :
    rec ∈ (s.ctx i).processed := by
  rw [unwound_ctx] at h
  by_cases hi : i = id
  · subst hi
    rw [Function.update_self, LPContext.rewind_eq] at h
    exact (List.rdropWhile_prefix _ _).subset h
  · rwa [Function.update_of_ne hi] at h

theorem mem_released_pending {ev ev' : Event} {s : Simulation Q σ}
    (h : ev' ∈ Q.elems (released ev s).pending) : ev' ∈ Q.elems s.pending ∨ ev' ∈ s.deferred := by
  unfold released releaseDeferredFor at h
  dsimp only at h
  split at h
  · exact Or.inl h
  · next q hq =>
    rw [foldl_enqueue] at h
    dsimp only at h
    rw [Q.elems_foldl_push, Multiset.mem_add] at h
    rcases h with h | h
    · exact Or.inl h
    · have hmem := (List.perm_insertionSort _ q).subset (Multiset.mem_coe.mp h)
      obtain ⟨before, after, hsplit, -⟩ := List.lookup_eq_some_iff.mp hq
      have hentry : (deferredKey ev.dst ev.target, q) ∈ s.deferredTargeted := by
        rw [show s.deferredTargeted = _ from hsplit]
        exact List.mem_append_right _ List.mem_cons_self
      exact Or.inr (List.mem_flatMap.mpr ⟨_, hentry, hmem⟩)

theorem mem_released_deferred {ev ev' : Event} {s : Simulation Q σ}
    (h : ev' ∈ (released ev s).deferred) : ev' ∈ s.deferred := by
  unfold released releaseDeferredFor at h
  dsimp only at h
  split at h
  · exact h
  · rw [foldl_enqueue] at h
    obtain ⟨entry, hentry, hmem⟩ := List.mem_flatMap.mp h
    exact List.mem_flatMap.mpr ⟨entry, List.mem_of_mem_filter hentry, hmem⟩

theorem mem_deferTargetedEvent {ev ev' : Event} {s : Simulation Q σ}
    (h : ev' ∈ (deferTargetedEvent ev s).deferred) : ev' ∈ s.deferred ∨ ev' = ev := by
  obtain ⟨entry, hentry, hmem⟩ := List.mem_flatMap.mp h
  unfold deferTargetedEvent at hentry
  dsimp only at hentry
  split at hentry
  · rcases List.mem_append.mp hentry with hentry | hentry
    · exact Or.inl (List.mem_flatMap.mpr ⟨entry, hentry, hmem⟩)
    · rw [List.mem_singleton.mp hentry] at hmem
      exact Or.inr (List.mem_singleton.mp hmem)
  · obtain ⟨old, hold, rfl⟩ := List.mem_map.mp hentry
    split at hmem
    · rcases List.mem_append.mp hmem with hmem | hmem
      · exact Or.inl (List.mem_flatMap.mpr ⟨old, hold, hmem⟩)
      · exact Or.inr (List.mem_singleton.mp hmem)
    · exact Or.inl (List.mem_flatMap.mpr ⟨old, hold, hmem⟩)

theorem SameBooks.processed_mem {c c' : LPContext σ} (h : SameBooks c c') {rec : ProcessedRecord}
    (hrec : rec ∈ c'.processed) : rec ∈ c.processed := h.processed ▸ hrec

/-- An event that enters the kernel: it is delivered or sent. -/
def Enters (x y : Situation Q σ) (ev : Event) : Prop :=
  (∃ d, y.state.hist.delivered = x.state.hist.delivered ++ [d] ∧ d.ev = ev ∧ d.gvt = x.state.lastGvt) ∨
    ∃ r, y.state.hist.sends = x.state.hist.sends ++ [r] ∧ r.ev = ev ∧ r.gvt = x.state.lastGvt

/-- Where the events of a simulation can be after a move that leaves the hand alone. -/
theorem Held.keep {x y : Situation Q σ} {ev : Event} (h : Held y ev)
    (hpending : ∀ e ∈ Q.elems y.state.pending, e ∈ Q.elems x.state.pending)
    (hhand : y.activity.hand = x.activity.hand)
    (hprocessed : ∀ i, ∀ rec ∈ (y.state.ctx i).processed, rec ∈ (x.state.ctx i).processed)
    (hdeferred : y.state.deferred = x.state.deferred) : Held x ev := by
  cases h with
  | pending h => exact .pending (hpending ev h)
  | hand h => exact .hand (hhand ▸ h)
  | processed hrec heq => exact .processed (hprocessed _ _ hrec) heq
  | deferred h => exact .deferred (hdeferred ▸ h)

theorem hand_noteCall (a : Activity σ) (asked : Event) (r : Except String Event) :
    (a.noteCall asked r).hand = a.hand := by
  cases a <;> rfl

theorem mem_posted_pending {cause : SendCause} {asked ev e : Event} {s : Simulation Q σ}
    (h : e ∈ Q.elems (posted cause cfg asked ev s).pending) : e ∈ Q.elems s.pending ∨ e = ev := by
  rw [posted_eq] at h
  dsimp only at h
  split at h
  · rw [Q.elems_push] at h
    exact (Multiset.mem_cons.mp h).symm
  · exact Or.inl h

/-- A send whose effects on the LPs are those of `s'`. -/
theorem Held.of_posted {x y : Situation Q σ} (cause : SendCause) (asked : Event) {sent ev : Event}
    {s' : Simulation Q σ} (h : Held y ev) (hhand : y.activity.hand = x.activity.hand)
    (hpending : y.state.pending = (posted cause cfg asked sent s').pending)
    (hbefore : s'.pending = x.state.pending)
    (hprocessed : ∀ i, SameWork (x.state.ctx i) (y.state.ctx i))
    (hdeferred : y.state.deferred = x.state.deferred)
    (hsends : y.state.hist.sends =
      x.state.hist.sends ++ [sendRecord cause asked sent (cfg.rankOf sent.dst) s'])
    (hgvt : s'.lastGvt = x.state.lastGvt) : Held x ev ∨ Enters x y ev := by
  cases h with
  | pending h =>
      rw [hpending] at h
      rcases mem_posted_pending h with h | rfl
      · exact Or.inl (.pending (hbefore ▸ h))
      · exact Or.inr (Or.inr ⟨_, hsends, rfl, hgvt⟩)
  | hand h => exact Or.inl (.hand (hhand ▸ h))
  | processed hrec heq => exact Or.inl (.processed ((hprocessed _).processed ▸ hrec) heq)
  | deferred h => exact Or.inl (.deferred (hdeferred ▸ h))

theorem mem_update_processed {ctx : LPId → LPContext σ} {id i : LPId} {c : LPContext σ}
    {rec : ProcessedRecord} (h : rec ∈ (Function.update ctx id c i).processed) :
    rec ∈ (ctx i).processed ∨ i = id ∧ rec ∈ c.processed := by
  by_cases hi : i = id
  · subst hi
    rw [Function.update_self] at h
    exact Or.inr ⟨rfl, h⟩
  · rw [Function.update_of_ne hi] at h
    exact Or.inl h

/-- A rollback puts the events of records back into the queue. -/
theorem Held.of_unwound {x y : Situation Q σ} {id : LPId} {target : TimeStamp} {ev : Event}
    (h : Held y ev) (hy : y.state = unwound model id target x.state)
    (hhand : y.activity.hand = x.activity.hand) : Held x ev := by
  cases h with
  | pending h =>
      rw [hy] at h
      rcases mem_unwound_pending h with h | ⟨rec, hrec, heq⟩
      · exact .pending h
      · exact .processed hrec heq
  | hand h => exact .hand (hhand ▸ h)
  | processed hrec heq =>
      rw [hy] at hrec
      exact .processed (mem_unwound_processed hrec) heq
  | deferred h =>
      rw [hy, unwound_eq] at h
      exact .deferred h

/-- A move only passes events around, apart from those that enter. -/
theorem Move.held {x y : Situation Q σ} (h : Move model cfg x y) {ev : Event} (hev : Held y ev) :
    Held x ev ∨ Enters x y ev := by
  have hsame : ∀ s : Simulation Q σ, ∀ i, ∀ rec ∈ (s.ctx i).processed, rec ∈ (s.ctx i).processed :=
    fun _ _ _ h => h
  cases h with
  | quiet hq =>
      rw [hq] at hev
      exact Or.inl (hev.keep (fun _ h => h) rfl (hsame _) rfl)
  | register =>
      refine Or.inl (hev.keep (fun _ h => h) rfl (fun i rec hrec => ?_) rfl)
      exact (mem_update_processed hrec).elim (fun h => h) fun h => absurd h.2 (by simp)
  | start => exact Or.inl (hev.keep (fun _ h => h) rfl (hsame _) rfl)
  | prepare =>
      exact Or.inl (hev.keep (fun _ h => h) rfl (fun i _ h => (sameBooks_setLp _ _ _ i).processed_mem h) rfl)
  | @schedule s e =>
      cases hev with
      | pending h =>
          rcases Multiset.mem_cons.mp ((Q.elems_push s.pending e) ▸ h) with rfl | h
          · exact Or.inr (Or.inl ⟨_, rfl, rfl, rfl⟩)
          · exact Or.inl (.pending h)
      | processed hrec heq => exact Or.inl (.processed hrec heq)
      | deferred h => exact Or.inl (.deferred h)
      | hand h => cases h
  | @receive s srcRank e =>
      rw [receiveEvent_eq] at hev ⊢
      cases hev with
      | pending h =>
          rcases Multiset.mem_cons.mp ((Q.elems_push s.pending e) ▸ h) with rfl | h
          · exact Or.inr (Or.inl ⟨_, rfl, rfl, rfl⟩)
          · exact Or.inl (.pending h)
      | processed hrec heq => exact Or.inl (.processed hrec heq)
      | deferred h => exact Or.inl (.deferred h)
      | hand h => cases h
  | acknowledge =>
      rw [receiveAck_eq] at hev
      exact Or.inl (hev.keep (fun _ h => h) rfl (hsame _) rfl)
  | queueMigration => exact Or.inl (hev.keep (fun _ h => h) rfl (hsame _) rfl)
  | migrate =>
      exact Or.inl (hev.keep (fun _ h => h) rfl (fun i _ h => (sameBooks_setLp _ _ _ i).processed_mem h) rfl)
  | misplace => exact Or.inl (hev.keep (fun _ h => h) rfl (hsame _) rfl)
  | @sent a s cause asked =>
      refine hev.of_posted cause asked (hand_noteCall ..) rfl rfl (fun i => sameWork_sent ..) ?_ ?_ rfl
      · rw [posted_eq]; rfl
      · exact congrArg History.sends (congrArg Simulation.hist (posted_eq ..))
  | @unlogged a s cause asked =>
      refine hev.of_posted cause asked (hand_noteCall ..) rfl rfl (fun i => ?_) ?_ ?_ rfl
      · rw [posted_ctx]; exact sameWork_renumber ..
      · rw [posted_eq]; rfl
      · exact congrArg History.sends (congrArg Simulation.hist (posted_eq ..))
  | refused =>
      exact Or.inl (hev.keep (fun _ h => h) (hand_noteCall ..)
        (fun i _ h => (sameWork_renumber ..).books.processed_mem h) rfl)
  | discard => exact Or.inl (hev.keep (fun _ h => mem_discardPending h) rfl (hsame _) rfl)
  | pop _ htop =>
      cases hev with
      | pending h => exact Or.inl (.pending (mem_pop htop h))
      | hand h =>
          refine Or.inl (.pending ?_)
          rw [← Option.some.inj h, Q.elems_pop _ _ htop]
          exact Multiset.mem_cons_self _ _
      | processed hrec heq => exact Or.inl (.processed hrec heq)
      | deferred h => exact Or.inl (.deferred h)
  | straggle => exact Or.inl (hev.of_unwound rfl rfl)
  | @requeue s e =>
      cases hev with
      | pending h =>
          rcases Multiset.mem_cons.mp ((Q.elems_push s.pending e) ▸ h) with rfl | h
          · exact Or.inl (.hand rfl)
          · exact Or.inl (.pending h)
      | processed hrec heq => exact Or.inl (.processed hrec heq)
      | deferred h => exact Or.inl (.deferred h)
      | hand h => cases h
  | enter =>
      refine Or.inl (hev.keep (fun _ h => h) rfl (fun i rec hrec => ?_) rfl)
      exact (mem_update_processed hrec).elim (fun h => h) fun h => h.1 ▸ h.2
  | store =>
      exact Or.inl (hev.keep (fun _ h => h) rfl (fun i _ h => (sameBooks_setLp _ _ _ i).processed_mem h) rfl)
  | @finish before e calls s rec hrun =>
      have hrec : rec.ev = e := hrun.filled.ev
      cases hev with
      | pending h => exact Or.inl (.pending h)
      | hand h => cases h
      | deferred h => exact Or.inl (.deferred h)
      | @processed i r hmem heq =>
          have hleft : ∀ i, ∀ r ∈ ((left e.dst s).ctx i).processed, r ∈ (s.ctx i).processed := by
            intro i r hr
            exact (mem_update_processed hr).elim (fun h => h) fun h => h.1 ▸ h.2
          rcases mem_update_processed hmem with hmem | ⟨hi, hmem⟩
          · exact Or.inl (.processed (hleft i r hmem) heq)
          · rcases List.mem_append.mp hmem with hmem | hmem
            · exact Or.inl (.processed (hleft _ r hmem) heq)
            · rw [List.mem_singleton.mp hmem, hrec] at heq
              exact Or.inl (.hand (congrArg some heq))
  | release =>
      cases hev with
      | pending h =>
          rcases mem_released_pending h with h | h
          · exact Or.inl (.pending h)
          · exact Or.inl (.deferred h)
      | hand h => cases h
      | processed hrec heq =>
          rw [released_eq] at hrec
          exact Or.inl (.processed hrec heq)
      | deferred h => exact Or.inl (.deferred (mem_released_deferred h))
  | @defer before e calls s =>
      cases hev with
      | pending h => exact Or.inl (.pending h)
      | hand h => cases h
      | @processed i r hmem heq =>
          have hleft : r ∈ (s.ctx i).processed := by
            rcases mem_update_processed hmem with hmem | ⟨hi, hmem⟩
            · exact (mem_update_processed hmem).elim (fun h => h) fun h => h.1 ▸ h.2
            · exact (mem_update_processed hmem).elim (fun h => hi ▸ h) fun h => hi ▸ h.2
          exact Or.inl (.processed hleft heq)
      | deferred h =>
          rcases mem_deferTargetedEvent h with h | rfl
          · exact Or.inl (.deferred h)
          · exact Or.inl (.hand rfl)
  | abort =>
      refine Or.inl (hev.keep (fun _ h => h) rfl (fun i rec hrec => ?_) rfl)
      exact (mem_update_processed hrec).elim (fun h => h) fun h => h.1 ▸ h.2
  | mark =>
      refine Or.inl (hev.keep (fun _ h => h) ?_ (hsame _) rfl)
      exact congrArg some (antiRecord_ev _ _)
  | matched => exact Or.inl (hev.of_unwound rfl rfl)
  | unmatched => exact Or.inl (hev.keep (fun _ h => h) rfl (hsame _) rfl)
  | @settle s rec =>
      cases hev with
      | pending h => exact Or.inl (.pending h)
      | hand h => cases h
      | deferred h => exact Or.inl (.deferred h)
      | @processed i r hmem heq =>
          have hmoved : ∀ i, ∀ r ∈ ((s.modifyCtx rec.ev.dst fun c => { c with vt := rec.ev.ts }).ctx i).processed,
              r ∈ (s.ctx i).processed := by
            intro i r hr
            exact (mem_update_processed hr).elim (fun h => h) fun h => h.1 ▸ h.2
          rcases mem_update_processed hmem with hmem | ⟨hi, hmem⟩
          · exact Or.inl (.processed (hmoved i r hmem) heq)
          · rcases List.mem_append.mp hmem with hmem | hmem
            · exact Or.inl (.processed (hmoved _ r hmem) heq)
            · rw [List.mem_singleton.mp hmem] at heq
              exact Or.inl (.hand (congrArg some heq))
  | @annul a id log =>
      refine hev.of_posted (.rollback id) (antiOf id log) rfl rfl rfl (fun i => sameWork_annul ..) ?_ ?_ rfl
      · rw [posted_eq]; rfl
      · exact congrArg History.sends (congrArg Simulation.hist (posted_eq ..))
  | @stuck a id log owed s e u n k w =>
      cases hev with
      | pending h => exact Or.inl (.pending h)
      | hand h => cases h
      | @processed i r hrec heq =>
          exact Or.inl (.processed ((sameWork_renumber id u n k w s i).books.processed_mem hrec) heq)
      | deferred h => exact Or.inl (.deferred h)
  | lose =>
      cases hev with
      | pending h => exact Or.inl (.pending h)
      | hand h => cases h
      | processed hrec heq => exact Or.inl (.processed hrec heq)
      | deferred h => exact Or.inl (.deferred h)

/-! ## The invariant -/

/-- Nothing that the kernel holds, has recorded or still has to send lies before GVT. -/
structure BoundInv (x : Situation Q σ) : Prop where
  held : ∀ ev, Held x ev → x.state.lastGvt ≤ ev.ts
  owed : ∀ entry ∈ x.owed, x.state.lastGvt ≤ entry.2.msgTime
  logged : ∀ id, ∀ sent ∈ (x.state.ctx id).sentLog, sent.sendTime ≤ sent.msgTime
  sends : ∀ r ∈ x.state.hist.sends, r.gvt ≤ r.ev.ts
  dispatched : ∀ d ∈ x.state.hist.dispatched, d.gvt ≤ d.ev.ts
  rollbacks : ∀ r ∈ x.state.hist.rollbacks, r.gvt ≤ r.target
  committed : x.state.finished = false →
    ∀ id, ∀ rec ∈ (x.state.ctx id).fossils, rec.ev.ts < x.state.lastGvt

/-- An event is not sent for an earlier time than it was to be sent for. -/
theorem Stamped.ts_le {s : Simulation Q σ} {asked ev : Event} {uid normal control : UInt64}
    {wraps : Bool} (h : Stamped cfg s asked ev uid normal control wraps) : asked.ts ≤ ev.ts := by
  by_cases hseq : asked.ts.sequence = 0
  · rw [TimeStamp.le_iff_key]
    simp only [TimeStamp.key, h.time, hseq, UInt64.toNat_zero]
    omega
  · rw [(h.sequence_given hseq).1]

/-- What enters with a move is not before GVT. -/
theorem Move.held_le {x y : Situation Q σ} (hm : Move model cfg x y) (h : BoundInv x)
    (ht : Timely y.state.hist) (hsends : ∀ r ∈ y.state.hist.sends, r.gvt ≤ r.ev.ts) :
    ∀ ev, Held y ev → y.state.lastGvt ≤ ev.ts := by
  intro ev hev
  rw [hm.lastGvt_eq]
  rcases hm.held hev with hold | ⟨d, hd, rfl, hgvt⟩ | ⟨r, hr, rfl, hgvt⟩
  · exact h.held ev hold
  · rw [← hgvt]
    exact ht.delivered d (by rw [hd]; simp)
  · rw [← hgvt]
    exact hsends r (by rw [hr]; simp)

/-- The sent logs and the committed records are as they were. -/
structure SameLogs (ctx ctx' : LPId → LPContext σ) : Prop where
  sentLog : ∀ i, (ctx' i).sentLog = (ctx i).sentLog
  fossils : ∀ i, (ctx' i).fossils = (ctx i).fossils

theorem SameLogs.refl (ctx : LPId → LPContext σ) : SameLogs ctx ctx := ⟨fun _ => rfl, fun _ => rfl⟩

theorem SameLogs.trans {ctx ctx' ctx'' : LPId → LPContext σ} (h : SameLogs ctx ctx')
    (h' : SameLogs ctx' ctx'') : SameLogs ctx ctx'' :=
  ⟨fun i => (h'.sentLog i).trans (h.sentLog i), fun i => (h'.fossils i).trans (h.fossils i)⟩

theorem sameLogs_modifyCtx {f : LPContext σ → LPContext σ}
    (hf : ∀ c, (f c).sentLog = c.sentLog ∧ (f c).fossils = c.fossils) (s : Simulation Q σ) (id : LPId) :
    SameLogs s.ctx (s.modifyCtx id f).ctx :=
  ⟨modifyCtx_proj (·.sentLog) (fun c => (hf c).1) s id,
    modifyCtx_proj (·.fossils) (fun c => (hf c).2) s id⟩

theorem sameLogs_setLp (id : LPId) (state : σ) (s : Simulation Q σ) :
    SameLogs s.ctx (setLp id state s).ctx :=
  sameLogs_modifyCtx (f := fun c => { c with lp := state }) (fun _ => ⟨rfl, rfl⟩) s id

theorem sameLogs_renumber (id : LPId) (u n k : UInt64) (w : Bool) (s : Simulation Q σ) :
    SameLogs s.ctx (renumber id u n k w s).ctx :=
  sameLogs_modifyCtx (f := fun c => { c with nextUid := u, nextSeqNormal := n, nextSeqControl := k })
    (fun _ => ⟨rfl, rfl⟩) s id

theorem sameLogs_left (id : LPId) (s : Simulation Q σ) : SameLogs s.ctx (left id s).ctx :=
  sameLogs_modifyCtx (f := fun c => { c with inEvent := false }) (fun _ => ⟨rfl, rfl⟩) s id

theorem sameLogs_pushProcessed (id : LPId) (rec : ProcessedRecord) (s : Simulation Q σ) :
    SameLogs s.ctx (pushProcessed id rec s).ctx :=
  sameLogs_modifyCtx
    (f := fun c => { c with processed := c.processed ++ [rec], executed := c.executed ++ [rec] })
    (fun _ => ⟨rfl, rfl⟩) s id

/-- A move that neither sends nor dispatches nor rolls back. -/
theorem BoundInv.keep {x y : Situation Q σ} (h : BoundInv x) (hm : Move model cfg x y)
    (ht : Timely y.state.hist) (howed : ∀ entry ∈ y.owed, entry ∈ x.owed) (hfinished : y.state.finished = x.state.finished)
    (hlogs : SameLogs x.state.ctx y.state.ctx)
    (hsends : y.state.hist.sends = x.state.hist.sends)
    (hdispatched : y.state.hist.dispatched = x.state.hist.dispatched)
    (hrollbacks : y.state.hist.rollbacks = x.state.hist.rollbacks) : BoundInv y := by
  have hgvt := hm.lastGvt_eq
  have hall : ∀ r ∈ y.state.hist.sends, r.gvt ≤ r.ev.ts := by
    rw [hsends]
    exact h.sends
  refine ⟨hm.held_le h ht hall, ?_, fun i sent hs => h.logged i sent (hlogs.sentLog i ▸ hs), hall, ?_, ?_, ?_⟩
  · rw [hgvt]
    exact fun entry hentry => h.owed entry (howed entry hentry)
  · rw [hdispatched]
    exact h.dispatched
  · rw [hrollbacks]
    exact h.rollbacks
  · intro hf i rec hrec
    rw [hgvt]
    exact h.committed (hfinished ▸ hf) i rec (hlogs.fossils i ▸ hrec)

/-- A call of `send` sends nothing before GVT. -/
theorem BoundInv.send_le {a : Activity σ} {owed : List (LPId × SentRecord)} {s : Simulation Q σ}
    (h : BoundInv ⟨a, owed, s⟩) {cause : SendCause} {asked ev : Event}
    {uid normal control : UInt64} {wraps : Bool} (ha : a.Allows s cause asked)
    (hst : Stamped cfg s asked ev uid normal control wraps) {r : SendRecord} (hr : r.InTime)
    (hcause : r.cause = cause) (hts : r.ev.ts = ev.ts) (hgvt : r.gvt = s.lastGvt) :
    r.gvt ≤ r.ev.ts := by
  unfold SendRecord.InTime at hr
  rw [hcause] at hr
  cases a with
  | idle =>
      cases cause with
      | host => exact hr
      | start id =>
          rw [hgvt, show s.lastGvt = ⟨0, 0⟩ from ha]
          exact TimeStamp.zero_le _
      | notification =>
          rw [hgvt, hts, ← show asked.ts = s.lastGvt from ha]
          exact hst.ts_le
      | handler | rollback => exact ha.elim
  | executing before e calls =>
      cases cause with
      | handler id execTs =>
          rw [hgvt]
          have hhand : s.lastGvt ≤ e.ts := h.held e (.hand rfl)
          exact hhand.trans (ha.2 ▸ hr)
      | host | start | notification | rollback => exact ha.elim
  | holding | annulling | annulled => cases cause <;> exact ha.elim

/-- What a handler sends is logged with a time not after that of the message. -/
theorem BooksInv.logged_le {a : Activity σ} {owed : List (LPId × SentRecord)} {s : Simulation Q σ}
    (h : BooksInv ⟨a, owed, s⟩) {cause : SendCause} {asked ev : Event} (ha : a.Allows s cause asked)
    {r : SendRecord} (hr : r.InTime) (hcause : r.cause = cause) (hts : r.ev.ts = ev.ts)
    {c : LPContext σ} (hc : SameWork (s.ctx ev.src) c) :
    ∀ sent ∈ logEntries ev c, sent.sendTime ≤ sent.msgTime := by
  intro sent hsent
  unfold logEntries at hsent
  split at hsent
  · cases hsent
  · rw [List.mem_singleton.mp hsent]
    dsimp only
    split
    · next hin =>
      rw [hc.inEvent] at hin
      obtain ⟨before, e, hstage, hdst⟩ := h.executing ev.src hin
      cases a with
      | executing before' e' calls =>
          cases hstage
          have hfits := h.stage
          have hsame : SameBooks (before.enter e) (s.ctx e.dst) := hfits.2.2.2
          cases cause with
          | handler id execTs =>
              rw [SendRecord.InTime, hcause] at hr
              rw [hc.currentExecTs, ← hdst, hsame.currentExecTs, ← hts]
              change e.ts ≤ r.ev.ts
              rw [← ha.2]
              exact hr
          | host | start | notification | rollback => exact ha.elim
      | idle | holding | annulling | annulled => cases hstage
    · exact TimeStamp.zero_le _

theorem owedAntis_le {id : LPId} {target gvt : TimeStamp} {s : Simulation Q σ} (htarget : gvt ≤ target)
    (hlog : ∀ sent ∈ (s.ctx id).sentLog, sent.sendTime ≤ sent.msgTime) :
    ∀ entry ∈ owedAntis id target s, gvt ≤ entry.2.msgTime := by
  intro entry hentry
  obtain ⟨sent, hsent, rfl⟩ := List.mem_map.mp hentry
  have hmem := List.mem_reverse.mp ((List.takeWhile_sublist _).subset hsent)
  have hafter : target ≤ sent.sendTime := by simpa using List.mem_takeWhile_imp hsent
  exact htarget.trans (hafter.trans (hlog sent hmem))

/-- A rollback to a time not before GVT. -/
theorem BoundInv.unwound {x y : Situation Q σ} {id : LPId} {target : TimeStamp} (h : BoundInv x)
    (hm : Move model cfg x y) (ht : Timely y.state.hist)
    (hy : y.state = WarpSim.unwound model id target x.state)
    (howed : y.owed = owedAntis id target x.state) (htarget : x.state.lastGvt ≤ target) : BoundInv y := by
  have hsends : y.state.hist.sends = x.state.hist.sends := by rw [hy, unwound_eq]
  have hall : ∀ r ∈ y.state.hist.sends, r.gvt ≤ r.ev.ts := by
    rw [hsends]
    exact h.sends
  have hctx : ∀ i, (y.state.ctx i).sentLog = (x.state.ctx i).sentLog ∧
      (y.state.ctx i).fossils = (x.state.ctx i).fossils := by
    intro i
    rw [hy, unwound_ctx]
    by_cases hi : i = id
    · subst hi
      rw [Function.update_self, LPContext.rewind_eq]
      exact ⟨rfl, rfl⟩
    · rw [Function.update_of_ne hi]
      exact ⟨rfl, rfl⟩
  refine ⟨hm.held_le h ht hall, ?_, fun i sent hs => h.logged i sent ((hctx i).1 ▸ hs), hall, ?_, ?_, ?_⟩
  · rw [hm.lastGvt_eq, howed]
    exact owedAntis_le htarget (h.logged id)
  · rw [hy, unwound_eq]
    exact h.dispatched
  · rw [hy, unwound_eq]
    intro r hr
    rcases mem_append_singleton hr with hr | rfl
    · exact h.rollbacks r hr
    · exact htarget
  · intro hf i rec hrec
    rw [hm.lastGvt_eq]
    refine h.committed ?_ i rec ((hctx i).2 ▸ hrec)
    rw [hy, unwound_eq] at hf
    exact hf

/-- Sending an event: what is left to show is that the log of the source stays in order. -/
theorem BoundInv.sent {x y : Situation Q σ} {r : SendRecord} (h : BoundInv x) (hm : Move model cfg x y)
    (ht : Timely y.state.hist) {w : Bool}
    (hr : y.state.hist = { x.state.hist with sends := x.state.hist.sends ++ [r], wrapped := w })
    (hle : r.gvt ≤ r.ev.ts) (howed : ∀ entry ∈ y.owed, entry ∈ x.owed)
    (hfinished : y.state.finished = x.state.finished)
    (hlog : ∀ i, ∀ sent ∈ (y.state.ctx i).sentLog, sent.sendTime ≤ sent.msgTime)
    (hfossils : ∀ i, (y.state.ctx i).fossils = (x.state.ctx i).fossils) : BoundInv y := by
  have hgvt := hm.lastGvt_eq
  have hall : ∀ r ∈ y.state.hist.sends, r.gvt ≤ r.ev.ts := by
    rw [hr]
    intro r' hr'
    rcases mem_append_singleton hr' with hr' | rfl
    · exact h.sends r' hr'
    · exact hle
  refine ⟨hm.held_le h ht hall, ?_, hlog, hall, ?_, ?_, ?_⟩
  · rw [hgvt]
    exact fun entry hentry => h.owed entry (howed entry hentry)
  · rw [hr]
    exact h.dispatched
  · rw [hr]
    exact h.rollbacks
  · intro hf i rec hrec
    rw [hgvt]
    exact h.committed (hfinished ▸ hf) i rec (hfossils i ▸ hrec)

theorem mem_logged {ev : Event} {s : Simulation Q σ} {i : LPId} {sent : SentRecord}
    (h : sent ∈ ((logged ev s).ctx i).sentLog) :
    sent ∈ (s.ctx i).sentLog ∨ sent ∈ logEntries ev (s.ctx ev.src) := by
  by_cases hi : i = ev.src
  · subst hi
    rw [logged, modifyCtx_self] at h
    exact List.mem_append.mp h
  · rw [logged, modifyCtx_of_ne _ _ hi] at h
    exact Or.inl h

variable (cfg) in
theorem posted_hist (cause : SendCause) (asked ev : Event) (s : Simulation Q σ) :
    (posted cause cfg asked ev s).hist = { s.hist with
      sends := s.hist.sends ++ [sendRecord cause asked ev (cfg.rankOf ev.dst) s] } := by
  rw [posted_eq]

theorem Move.boundInv {x y : Situation Q σ} (hm : Move model cfg x y) (hb : BooksInv x)
    (h : BoundInv x) (ht : Timely y.state.hist) : BoundInv y := by
  have hmove := hm
  have hnone : ∀ entry ∈ ([] : List (LPId × SentRecord)), entry ∈ x.owed := nofun
  cases hm with
  | quiet hq =>
      refine h.keep hmove ht (fun _ h => h) ?_ ⟨fun i => ?_, fun i => ?_⟩ ?_ ?_ ?_
      all_goals rw [hq]
  | @register s id =>
      refine ⟨hmove.held_le h ht h.sends, h.owed, fun i sent hs => ?_, h.sends, h.dispatched,
        h.rollbacks, fun hf i rec hrec => ?_⟩
      · by_cases hi : i = id
        · subst hi
          simp at hs
        · simp [hi] at hs
          exact h.logged i sent hs
      · by_cases hi : i = id
        · subst hi
          simp at hrec
        · simp [hi] at hrec
          exact h.committed hf i rec hrec
  | start => exact h.keep hmove ht hnone rfl (.refl _) rfl rfl rfl
  | prepare =>
      exact h.keep hmove ht hnone rfl (sameLogs_setLp ..) rfl rfl rfl
  | schedule => exact h.keep hmove ht hnone rfl (.refl _) rfl rfl rfl
  | receive =>
      refine h.keep hmove ht hnone ?_ ⟨fun i => ?_, fun i => ?_⟩ ?_ ?_ ?_
      all_goals rw [receiveEvent_eq]
  | acknowledge =>
      refine h.keep hmove ht hnone ?_ ⟨fun i => ?_, fun i => ?_⟩ ?_ ?_ ?_
      all_goals rw [receiveAck_eq]
  | queueMigration => exact h.keep hmove ht hnone rfl (.refl _) rfl rfl rfl
  | migrate =>
      exact h.keep hmove ht hnone rfl (sameLogs_setLp ..) rfl rfl rfl
  | misplace => exact h.keep hmove ht hnone rfl (.refl _) rfl rfl rfl
  | @sent a s cause asked e u n k w ha hst =>
      have hhist := posted_hist cfg cause asked (stampColor cfg s e) (renumber asked.src u n k w s)
      have hr := ht.sends (sendRecord cause asked (stampColor cfg s e)
        (cfg.rankOf (stampColor cfg s e).dst) (renumber asked.src u n k w s)) (by
          change _ ∈ (posted _ _ _ _ _).hist.sends
          rw [hhist]
          simp)
      refine h.sent hmove ht (w := s.hist.wrapped || w) hhist (h.send_le ha hst hr rfl (stampColor_ts s e) rfl) hnone ?_
        (fun i sent hs => ?_) (fun i => (sameWork_sent ..).fossils)
      · rw [posted_eq]
        rfl
      · rcases mem_logged hs with hs | hs
        · rw [posted_ctx, (sameLogs_renumber asked.src u n k w s).sentLog i] at hs
          exact h.logged i sent hs
        · refine hb.logged_le ha hr rfl rfl ?_ sent hs
          rw [posted_ctx]
          exact sameWork_renumber ..
  | @unlogged a s cause asked e u n k w _ ha hst =>
      have hhist := posted_hist cfg cause asked (stampColor cfg s e) (renumber asked.src u n k w s)
      have hr := ht.sends (sendRecord cause asked (stampColor cfg s e)
        (cfg.rankOf (stampColor cfg s e).dst) (renumber asked.src u n k w s)) (by
          change _ ∈ (posted _ _ _ _ _).hist.sends
          rw [hhist]
          simp)
      refine h.sent hmove ht (w := s.hist.wrapped || w) hhist (h.send_le ha hst hr rfl (stampColor_ts s e) rfl) hnone ?_
        (fun i sent hs => ?_) (fun i => ?_)
      · rw [posted_eq]
        rfl
      · rw [posted_ctx, (sameLogs_renumber asked.src u n k w s).sentLog i] at hs
        exact h.logged i sent hs
      · rw [posted_ctx]
        exact (sameLogs_renumber asked.src u n k w s).fossils i
  | @refused a s asked u n k w =>
      exact h.keep hmove ht hnone rfl (sameLogs_renumber asked.src u n k w s) rfl rfl rfl
  | discard => exact h.keep hmove ht hnone rfl (.refl _) rfl rfl rfl
  | @pop s e _ htop =>
      refine ⟨hmove.held_le h ht h.sends, h.owed, h.logged, h.sends, fun d hd => ?_, h.rollbacks, h.committed⟩
      rcases mem_append_singleton hd with hd | rfl
      · exact h.dispatched d hd
      · refine h.held e (.pending ?_)
        rw [Q.elems_pop _ _ htop]
        exact Multiset.mem_cons_self _ _
  | straggle => exact h.unwound hmove ht rfl rfl (h.held _ (.hand rfl))
  | requeue => exact h.keep hmove ht hnone rfl (.refl _) rfl rfl rfl
  | @enter s e =>
      exact h.keep hmove ht hnone rfl (sameLogs_modifyCtx
        (f := fun c => { c with vt := e.ts, inEvent := true, currentExecTs := e.ts })
        (fun _ => ⟨rfl, rfl⟩) s e.dst) rfl rfl rfl
  | store =>
      exact h.keep hmove ht hnone rfl (sameLogs_setLp ..) rfl rfl rfl
  | @finish before e calls s rec =>
      exact h.keep hmove ht hnone rfl ((sameLogs_left e.dst s).trans (sameLogs_pushProcessed ..)) rfl rfl rfl
  | release =>
      refine h.keep hmove ht hnone ?_ ⟨fun i => ?_, fun i => ?_⟩ ?_ ?_ ?_
      all_goals rw [released_eq]
      all_goals rfl
  | @defer before e calls s =>
      refine h.keep hmove ht hnone rfl ((sameLogs_left e.dst s).trans ?_) rfl rfl rfl
      exact sameLogs_modifyCtx (f := fun c => { c with vt := before.vt, currentExecTs := before.vt })
        (fun _ => ⟨rfl, rfl⟩) (left e.dst s) e.dst
  | @abort before e calls s =>
      exact h.keep hmove ht hnone rfl (sameLogs_left e.dst s) rfl rfl rfl
  | mark => exact h.keep hmove ht hnone rfl (.refl _) rfl rfl rfl
  | @matched s rec r hdst hfind =>
      exact h.unwound hmove ht rfl rfl (h.held _ (.processed (lastMatch_mem hfind) rfl))
  | unmatched => exact h.keep hmove ht hnone rfl (.refl _) rfl rfl rfl
  | @settle s rec =>
      refine h.keep hmove ht hnone rfl (SameLogs.trans ?_ (sameLogs_pushProcessed ..)) rfl rfl rfl
      exact sameLogs_modifyCtx (f := fun c => { c with vt := rec.ev.ts })
        (fun _ => ⟨rfl, rfl⟩) s rec.ev.dst
  | @annul a id log owed s e u n k w hst =>
      refine h.sent hmove ht (w := s.hist.wrapped || w) (posted_hist ..) ?_
        (fun _ hentry => List.mem_cons_of_mem _ hentry) ?_ (fun i sent hs => ?_)
        (fun i => (sameWork_annul ..).fossils)
      · change s.lastGvt ≤ (stampColor cfg s e).ts
        rw [stampColor_ts]
        exact (h.owed _ List.mem_cons_self).trans hst.ts_le
      · rw [posted_eq]
        rfl
      · have hdrop : ∀ t : Simulation Q σ, sent ∈ ((t.modifyCtx id fun c =>
            { c with sentLog := c.sentLog.dropLast }).ctx i).sentLog → sent ∈ (t.ctx i).sentLog := by
          intro t hs
          by_cases hi : i = id
          · subst hi
            rw [modifyCtx_self] at hs
            exact List.mem_of_mem_dropLast hs
          · rwa [modifyCtx_of_ne _ _ hi] at hs
        have hmem := hdrop _ hs
        rw [posted_ctx, (sameLogs_renumber id u n k w s).sentLog i] at hmem
        exact h.logged i sent hmem
  | @stuck a id log owed s e u n k w =>
      exact h.keep hmove ht hnone rfl (sameLogs_renumber id u n k w s) rfl rfl rfl
  | lose => exact h.keep hmove ht hnone rfl (.refl _) rfl rfl rfl

/-! ## Raising GVT -/

theorem mem_dropWhile_of_sorted {l : List ProcessedRecord} {gvt : TimeStamp}
    (hsorted : l.Pairwise fun a b => a.ev.ts ≤ b.ev.ts) :
    ∀ rec ∈ l.dropWhile fun rec => rec.ev.ts < gvt, gvt ≤ rec.ev.ts := by
  intro rec hrec
  have hrest := hsorted.sublist (List.dropWhile_sublist fun rec => decide (rec.ev.ts < gvt))
  have hhead := List.head?_dropWhile_not (fun rec : ProcessedRecord => decide (rec.ev.ts < gvt)) l
  generalize l.dropWhile _ = rest at hrec hrest hhead
  cases rest with
  | nil => cases hrec
  | cons first rest =>
      have hfirst : gvt ≤ first.ev.ts := by simpa using hhead
      rcases List.mem_cons.mp hrec with rfl | hrec
      · exact hfirst
      · exact hfirst.trans (List.rel_of_pairwise_cons hrest hrec)

variable (cfg) in
/-- What pruning leaves of the context of an LP. -/
theorem prune_ctx_cases (gvt : TimeStamp) (s : Simulation Q σ) (i : LPId) :
    i ∈ s.lpIds ∧ (pruneToGvt cfg gvt s).ctx i = (s.ctx i).prune gvt ∨
      i ∉ s.lpIds ∧ (pruneToGvt cfg gvt s).ctx i = s.ctx i := by
  unfold pruneToGvt
  dsimp only
  split
  · next hi => exact Or.inl ⟨hi, rfl⟩
  · next hi => exact Or.inr ⟨hi, rfl⟩

theorem mem_prune_processed {gvt : TimeStamp} {s : Simulation Q σ} {i : LPId} {rec : ProcessedRecord}
    (h : rec ∈ ((pruneToGvt cfg gvt s).ctx i).processed) : rec ∈ (s.ctx i).processed := by
  rcases prune_ctx_cases cfg gvt s i with ⟨-, hctx⟩ | ⟨-, hctx⟩
  · rw [hctx] at h
    exact (List.dropWhile_sublist _).subset h
  · rwa [hctx] at h

theorem mem_prune_sentLog {gvt : TimeStamp} {s : Simulation Q σ} {i : LPId} {sent : SentRecord}
    (h : sent ∈ ((pruneToGvt cfg gvt s).ctx i).sentLog) : sent ∈ (s.ctx i).sentLog := by
  rcases prune_ctx_cases cfg gvt s i with ⟨-, hctx⟩ | ⟨-, hctx⟩
  · rw [hctx] at h
    exact (List.dropWhile_sublist _).subset h
  · rwa [hctx] at h

theorem mem_prune_fossils {gvt : TimeStamp} {s : Simulation Q σ} {i : LPId} {rec : ProcessedRecord}
    (h : rec ∈ ((pruneToGvt cfg gvt s).ctx i).fossils) : rec ∈ (s.ctx i).fossils ∨ rec.ev.ts < gvt := by
  rcases prune_ctx_cases cfg gvt s i with ⟨-, hctx⟩ | ⟨-, hctx⟩
  · rw [hctx] at h
    refine (List.mem_append.mp h).imp_right fun hrec => ?_
    simpa using List.mem_takeWhile_imp hrec
  · rw [hctx] at h
    exact Or.inl h

theorem ContextInv.pairwise {c : LPContext σ} (h : ContextInv c) :
    c.processed.Pairwise fun a b => a.ev.ts ≤ b.ev.ts := h.sorted

/-- After pruning, the records of an LP are not before GVT. -/
theorem BooksInv.prune_le {s : Simulation Q σ} (h : BooksInv s.atRest) (gvt : TimeStamp) (i : LPId) :
    ∀ rec ∈ ((pruneToGvt cfg gvt s).ctx i).processed, gvt ≤ rec.ev.ts := by
  intro rec hrec
  rcases prune_ctx_cases cfg gvt s i with ⟨-, hctx⟩ | ⟨hi, hctx⟩
  · rw [hctx] at hrec
    exact mem_dropWhile_of_sorted (h.context i).pairwise rec hrec
  · rw [hctx] at hrec
    have hexec : rec ∈ (s.ctx i).executed := (h.ledger i).processed_sub hrec
    rw [show (s.ctx i).executed = [] from h.fresh i hi] at hexec
    cases hexec

/-- Committing what lies before a time not before GVT. -/
theorem BoundInv.prune {s : Simulation Q σ} (h : BoundInv s.atRest) {gvt : TimeStamp}
    (hle : s.finished = true ∨ gvt ≤ s.lastGvt) : BoundInv (pruneToGvt cfg gvt s).atRest := by
  refine ⟨fun ev hev => h.held ev ?_, nofun, fun i sent hs => h.logged i sent (mem_prune_sentLog hs),
    h.sends, h.dispatched, h.rollbacks, fun hf i rec hrec => ?_⟩
  · cases hev with
    | pending h => exact .pending h
    | hand h => cases h
    | processed hrec heq => exact .processed (mem_prune_processed hrec) heq
    | deferred h => exact .deferred h
  · rcases mem_prune_fossils hrec with hrec | hrec
    · exact h.committed hf i rec hrec
    · rcases hle with hfin | hle
      · exact absurd (hfin.symm.trans hf) (by simp)
      · exact hrec.trans_le hle

theorem GvtMove.boundInv {x y : Situation Q σ} (hm : GvtMove True final cfg x y) (hb : BooksInv x)
    (h : BoundInv x) (ht : Covered y.state.hist) : BoundInv y := by
  cases hm with
  | @advance s gvt _ hle hcovers =>
      obtain ⟨hpending, hvt⟩ := hcovers trivial
      refine ⟨fun ev hev => ?_, by simp, fun i sent hs => ?_, h.sends, h.dispatched, h.rollbacks,
        fun hf i rec hrec => ?_⟩
      · change gvt ≤ ev.ts
        cases hev with
        | pending h => exact hpending ev h
        | hand h => cases h
        | processed hrec heq =>
            have hraised : BooksInv (raiseGvt gvt s).atRest :=
              ⟨hb.context, hb.ledger, hb.fresh, hb.executing, trivial, fun hne => absurd rfl hne⟩
            exact heq ▸ hraised.prune_le gvt _ _ hrec
        | deferred hdef =>
            have hadvance := ht.deferred ⟨gvt, s.lpIds.map fun id => (s.ctx id).vt, Q.elems s.pending, s.deferred⟩
              (by simp [pruneToGvt, raiseGvt]) ev hdef
            rcases hadvance with ⟨vt, hmem, hvtle⟩ | ⟨front, hmem, hfront⟩
            · obtain ⟨id, hid, rfl⟩ := List.mem_map.mp hmem
              exact (hvt id hid).trans hvtle
            · exact (hpending front hmem).trans hfront
      · have hlog : sent ∈ ((raiseGvt gvt s).ctx i).sentLog := mem_prune_sentLog hs
        exact h.logged i sent hlog
      · rcases mem_prune_fossils hrec with hrec | hrec
        · exact (h.committed hf i rec hrec).trans_le hle
        · exact hrec
  | prune => exact h.prune (Or.inr (le_refl _))
  | @flush s =>
      have hdone : BoundInv (({ s with finished := true } : Simulation Q σ)).atRest :=
        ⟨fun ev hev => h.held ev (hev.keep (fun _ h => h) rfl (fun _ _ h => h) rfl), (by rintro _ ⟨⟩), h.logged,
          h.sends, h.dispatched, h.rollbacks, by rintro ⟨⟩⟩
      exact hdone.prune (Or.inl rfl)
  | flip =>
      exact ⟨fun ev hev => h.held ev (hev.keep (fun _ h => h) rfl (fun _ _ h => h) rfl), by simp, h.logged,
        h.sends, h.dispatched, h.rollbacks, h.committed⟩
  | reset =>
      exact ⟨fun ev hev => h.held ev (hev.keep (fun _ h => h) rfl (fun _ _ h => h) rfl), by simp, h.logged,
        h.sends, h.dispatched, h.rollbacks, h.committed⟩

/-! ## Runs -/

theorem boundInv_create : BoundInv (Simulation.create Q model).atRest := by
  refine ⟨fun ev hev => ?_, by rintro _ ⟨⟩, fun _ _ h => ?_, by rintro _ ⟨⟩, by rintro _ ⟨⟩, by rintro _ ⟨⟩,
    fun _ _ _ h => ?_⟩
  · exact TimeStamp.zero_le _
  · cases h
  · cases h

theorem AllMoves.boundInv {x y : Situation Q σ} (h : AllMoves True final model cfg x y)
    (hb : BooksInv x) (hx : BoundInv x) (ht : Covered y.state.hist) : BoundInv y := by
  induction h with
  | refl => exact hx
  | tail hmoves hm ih =>
      have hbooks := AllMoves.booksInv hmoves hb
      rcases hm with hm | hm
      · exact hm.boundInv hbooks (ih (ht.mono hm.extends)) ht.toTimely
      · exact hm.boundInv hbooks (ih (ht.mono hm.extends)) ht

theorem Reachable.boundInv {allowed : Simulation Q σ → HostOp → Prop} {s : Simulation Q σ}
    (h : Reachable model cfg allowed s) (hsound : ∀ s op, allowed s op → op.SoundReduction cfg)
    (ht : Covered s.hist) : BoundInv s.atRest :=
  AllMoves.boundInv (h.moves fun _ => hsound) booksInv_create boundInv_create ht

/-! ## Without buffering -/

/-- Nothing is deferred while buffering is off. -/
structure NoDeferral (s : Simulation Q σ) : Prop where
  empty : s.deferredTargeted = []
  advances : ∀ a ∈ s.hist.advances, a.deferred = []

theorem NoDeferral.keep {s s' : Simulation Q σ} (h : NoDeferral s)
    (hdeferred : s'.deferredTargeted = s.deferredTargeted)
    (hadvances : s'.hist.advances = s.hist.advances) : NoDeferral s' :=
  ⟨hdeferred.trans h.empty, hadvances ▸ h.advances⟩

theorem Move.noDeferral {x y : Situation Q σ} (hoff : cfg.enableInstallBeforeUseBuffering = false)
    (hm : Move model cfg x y) (h : NoDeferral x.state) : NoDeferral y.state := by
  cases hm with
  | quiet hq => rw [hq]; exact h.keep rfl rfl
  | receive => rw [receiveEvent_eq]; exact h.keep rfl rfl
  | acknowledge => rw [receiveAck_eq]; exact h.keep rfl rfl
  | sent => rw [posted_eq]; exact h.keep rfl rfl
  | unlogged => rw [posted_eq]; exact h.keep rfl rfl
  | straggle => rw [unwound_eq]; exact h.keep rfl rfl
  | matched => rw [unwound_eq]; exact h.keep rfl rfl
  | release hon => exact absurd (hoff.symm.trans hon) (by simp)
  | defer hon => exact absurd (hoff.symm.trans hon) (by simp)
  | annul => rw [posted_eq]; exact h.keep rfl rfl
  | _ => exact h.keep rfl rfl

theorem GvtMove.noDeferral {x y : Situation Q σ} (hm : GvtMove sound final cfg x y)
    (h : NoDeferral x.state) : NoDeferral y.state := by
  cases hm with
  | advance =>
      refine ⟨h.empty, fun a ha => ?_⟩
      rcases mem_append_singleton ha with ha | rfl
      · exact h.advances a ha
      · exact congrArg (List.flatMap Prod.snd) h.empty
  | _ => exact h.keep rfl rfl

theorem AllMoves.noDeferral {x : Situation Q σ} (hoff : cfg.enableInstallBeforeUseBuffering = false)
    (h : AllMoves sound final model cfg (Simulation.create Q model).atRest x) : NoDeferral x.state := by
  induction h with
  | refl => exact ⟨rfl, by rintro _ ⟨⟩⟩
  | tail _ hm ih => exact hm.elim (fun hm => hm.noDeferral hoff ih) fun hm => hm.noDeferral ih

theorem Reachable.noDeferral {allowed : Simulation Q σ → HostOp → Prop} {s : Simulation Q σ}
    (hoff : cfg.enableInstallBeforeUseBuffering = false) (h : Reachable model cfg allowed s) :
    NoDeferral s := by
  have hmoves : AllMoves False True model cfg (Simulation.create Q model).atRest s.atRest :=
    h.moves fun hfalse => hfalse.elim
  exact AllMoves.noDeferral hoff hmoves

/-- Without buffering there is nothing to cover. -/
theorem NoDeferral.covered {s : Simulation Q σ} (h : NoDeferral s) (ht : Timely s.hist) :
    Covered s.hist := by
  refine ⟨ht, fun a ha ev hev => ?_⟩
  rw [h.advances a ha] at hev
  cases hev

end WarpSim

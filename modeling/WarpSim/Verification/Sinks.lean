import WarpSim.Library.Flushes
import WarpSim.Verification.Bounds
import WarpSim.Verification.Digest

/-! # What reaches the sinks

Each time GVT rises, and at the end of the run, the records before it are committed and their outputs go to
the sink in one sorted flush. -/

namespace WarpSim

variable {Q : EventQueue} {σ : Type} {sound final : Prop} {model : Model σ} {cfg : SimulationConfig}

open Prog Simulation

/-! ## The orders of the flushes -/

/-- The position of a committed output in the order of its flush. -/
def CommittedFlushItem.sortKey (a : CommittedFlushItem) : ℕ :=
  a.ts.key * 2 ^ 160 + a.lp.toNat * 2 ^ 128 + a.eventSrc.toNat * 2 ^ 96 + a.eventUid.toNat * 2 ^ 32 + a.index.toNat

theorem CommittedFlushItem.sortKey_le_of_lt {a b : CommittedFlushItem} (h : a.ts < b.ts) : a.sortKey ≤ b.sortKey := by
  have h₁ := a.lp.toNat_lt
  have h₂ := a.eventSrc.toNat_lt
  have h₃ := a.eventUid.toNat_lt
  have h₄ := a.index.toNat_lt
  rw [TimeStamp.lt_iff_key] at h
  simp only [sortKey]
  omega

theorem flushLess_iff {a b : CommittedFlushItem} : flushLess a b = true ↔ a.sortKey < b.sortKey := by
  have h₁ := a.lp.toNat_lt
  have h₂ := a.eventSrc.toNat_lt
  have h₃ := a.eventUid.toNat_lt
  have h₄ := a.index.toNat_lt
  have h₅ := b.lp.toNat_lt
  have h₆ := b.eventSrc.toNat_lt
  have h₇ := b.eventUid.toNat_lt
  have h₈ := b.index.toNat_lt
  have hts : a.ts = b.ts ↔ a.ts.key = b.ts.key := ⟨fun h => by rw [h], fun h => TimeStamp.key_injective h⟩
  unfold flushLess
  simp only [TimeStamp.lt_iff_key, UInt32.lt_iff_toNat_lt, UInt64.lt_iff_toNat_lt, ne_eq, ← UInt32.toNat_inj,
    ← UInt64.toNat_inj, CommittedFlushItem.sortKey]
  split_ifs <;> (try simp only [decide_eq_true_eq, true_iff, false_iff]) <;> omega

theorem flushOrder_iff (a b : CommittedFlushItem) : (!flushLess b a) = true ↔ a.sortKey ≤ b.sortKey := by
  rw [Bool.not_eq_true', ← Bool.not_eq_true, flushLess_iff, not_lt]

/-- The position of a committed event in the order of its flush. -/
def CommittedEventFlushItem.sortKey (a : CommittedEventFlushItem) : ℕ :=
  a.ts.key * 2 ^ 129 + a.lp.toNat * 2 ^ 97 + a.ev.src.toNat * 2 ^ 65 + a.ev.uid.toNat * 2 + a.ev.isAnti.toNat

theorem CommittedEventFlushItem.sortKey_le_of_lt {a b : CommittedEventFlushItem} (h : a.ts < b.ts) :
    a.sortKey ≤ b.sortKey := by
  have h₁ := a.lp.toNat_lt
  have h₂ := a.ev.src.toNat_lt
  have h₃ := a.ev.uid.toNat_lt
  have h₄ := a.ev.isAnti.toNat_lt
  rw [TimeStamp.lt_iff_key] at h
  simp only [sortKey]
  omega

theorem eventFlushLess_iff {a b : CommittedEventFlushItem} :
    eventFlushLess a b = true ↔ a.sortKey < b.sortKey := by
  have h₁ := a.lp.toNat_lt
  have h₂ := a.ev.src.toNat_lt
  have h₃ := a.ev.uid.toNat_lt
  have h₄ := b.lp.toNat_lt
  have h₅ := b.ev.src.toNat_lt
  have h₆ := b.ev.uid.toNat_lt
  unfold eventFlushLess
  simp only [TimeStamp.lt_iff_key, UInt32.lt_iff_toNat_lt, UInt64.lt_iff_toNat_lt, ne_eq, ← UInt32.toNat_inj,
    ← UInt64.toNat_inj, CommittedEventFlushItem.sortKey]
  cases ha : a.ev.isAnti <;> cases hb : b.ev.isAnti <;> split_ifs <;>
    (try simp only [decide_eq_true_eq, true_iff, false_iff, Bool.not_true, Bool.not_false, Bool.and_true,
      Bool.and_false, Bool.false_eq_true, Bool.toNat_true, Bool.toNat_false]) <;> omega

theorem eventFlushOrder_iff (a b : CommittedEventFlushItem) :
    (!eventFlushLess b a) = true ↔ a.sortKey ≤ b.sortKey := by
  rw [Bool.not_eq_true', ← Bool.not_eq_true, eventFlushLess_iff, not_lt]

/-! ## The sinks -/

/-- A sink of the kernel: what it has been handed so far, and what a committed record hands it. -/
structure Sink (Q : EventQueue) (σ ι : Type) where
  calls : Simulation Q σ → List ι
  render : CommittedItem → List ι
  stamp : ι → TimeStamp
  sortKey : ι → ℕ
  ordered : ∀ a b, stamp a < stamp b → sortKey a ≤ sortKey b
  stamped : ∀ id rec, (∀ out ∈ rec.committed, out.ts = rec.ev.ts) → ∀ i ∈ render (id, rec), stamp i = rec.ev.ts

/-- The sink is served: only a flush hands it anything, and that in order. -/
structure Sink.Served {ι : Type} (sink : Sink Q σ ι) (cfg : SimulationConfig) : Prop where
  initial : ∀ model, sink.calls (Simulation.create Q model) = []
  frame : ∀ {s t : Simulation Q σ}, t.committedSinkCalls = s.committedSinkCalls →
    t.committedEventSinkCalls = s.committedEventSinkCalls → sink.calls t = sink.calls s
  flush : ∀ gvt s, ∃ more, sink.calls (pruneToGvt cfg gvt s) = sink.calls s ++ more ∧
    more.Perm ((allCommitted gvt s).flatMap sink.render) ∧
      more.Pairwise fun a b => sink.sortKey a ≤ sink.sortKey b

/-- `committedSink`. -/
def outputSink (Q : EventQueue) (σ : Type) : Sink Q σ CommittedFlushItem where
  calls s := s.committedSinkCalls
  render item := flushItems item.1 item.2
  stamp item := item.ts
  sortKey := CommittedFlushItem.sortKey
  ordered _ _ := CommittedFlushItem.sortKey_le_of_lt
  stamped id rec hstamped i hi := by
    simp only [flushItems, List.mem_map] at hi
    obtain ⟨⟨out, k⟩, hout, rfl⟩ := hi
    exact hstamped out (List.fst_mem_of_mem_zipIdx hout)

theorem outputSink_served (h : cfg.committedSink = true) : (outputSink Q σ).Served cfg where
  initial _ := rfl
  frame hcalls _ := hcalls
  flush gvt s := by
    refine ⟨_, if_pos h, List.perm_insertionSort _ _, ?_⟩
    exact pairwise_insertionSort_key flushOrder_iff _

/-- `committedEventSink`. -/
def eventSink (Q : EventQueue) (σ : Type) : Sink Q σ CommittedEventFlushItem where
  calls s := s.committedEventSinkCalls
  render item := [{ ts := item.2.ev.ts, lp := item.1, ev := item.2.ev }]
  stamp item := item.ts
  sortKey := CommittedEventFlushItem.sortKey
  ordered _ _ := CommittedEventFlushItem.sortKey_le_of_lt
  stamped id rec _ i hi := by rw [List.mem_singleton.mp hi]

theorem eventSink_served (h : cfg.committedEventSink = true) : (eventSink Q σ).Served cfg where
  initial _ := rfl
  frame _ hcalls := hcalls
  flush gvt s := by
    refine ⟨_, if_pos h, ?_, ?_⟩
    · refine (List.perm_insertionSort _ _).trans (.of_eq ?_)
      rw [List.map_eq_flatMap]
      rfl
    · exact pairwise_insertionSort_key eventFlushOrder_iff _

/-! ## The moves -/

theorem Move.committedCalls_eq {x y : Situation Q σ} (hm : Move model cfg x y) :
    y.state.committedSinkCalls = x.state.committedSinkCalls ∧
      y.state.committedEventSinkCalls = x.state.committedEventSinkCalls := by
  cases hm with
  | quiet hq => rw [hq]; exact ⟨rfl, rfl⟩
  | receive => rw [receiveEvent_eq]; exact ⟨rfl, rfl⟩
  | acknowledge => rw [receiveAck_eq]; exact ⟨rfl, rfl⟩
  | sent => rw [posted_eq]; exact ⟨rfl, rfl⟩
  | unlogged => rw [posted_eq]; exact ⟨rfl, rfl⟩
  | annul => rw [posted_eq]; exact ⟨rfl, rfl⟩
  | straggle => rw [unwound_eq]; exact ⟨rfl, rfl⟩
  | matched => rw [unwound_eq]; exact ⟨rfl, rfl⟩
  | release => rw [released_eq]; exact ⟨rfl, rfl⟩
  | _ => exact ⟨rfl, rfl⟩

theorem Move.finished_eq {x y : Situation Q σ} (hm : Move model cfg x y) : y.state.finished = x.state.finished := by
  cases hm with
  | quiet hq => rw [hq]
  | receive => rw [receiveEvent_eq]
  | acknowledge => rw [receiveAck_eq]
  | sent => rw [posted_eq]; rfl
  | unlogged => rw [posted_eq]; rfl
  | annul => rw [posted_eq]; rfl
  | straggle => rw [unwound_eq]
  | matched => rw [unwound_eq]
  | release => rw [released_eq]
  | _ => rfl

theorem GvtMove.finished_eq {x y : Situation Q σ} (hm : GvtMove sound False cfg x y) :
    y.state.finished = x.state.finished := by
  cases hm with
  | flush hfinal => exact hfinal.elim
  | _ => rfl

section

variable {ι : Type} {sink : Sink Q σ ι} {bound : TimeStamp}

/-- The sink has been handed what the LPs have committed, all of it before the bound. -/
def Sink.Holds (sink : Sink Q σ ι) (bound : TimeStamp) (s : Simulation Q σ) : Prop :=
  Delivered sink.stamp sink.sortKey ((committedItems s).flatMap sink.render : Multiset ι) bound (sink.calls s)

theorem Sink.Served.prune (hserved : sink.Served cfg) {s : Simulation Q σ} (h : sink.Holds bound s)
    (hledger : ∀ i, LedgerInv i (s.ctx i)) (hheld : ∀ i, ∀ rec ∈ (s.ctx i).processed, bound ≤ rec.ev.ts)
    {gvt : TimeStamp} (hle : bound ≤ gvt) : sink.Holds gvt (pruneToGvt cfg gvt s) := by
  obtain ⟨more, hcalls, hperm, hsorted⟩ := hserved.flush gvt s
  have hitems : ((committedItems (pruneToGvt cfg gvt s)).flatMap sink.render : Multiset ι) =
      (committedItems s).flatMap sink.render + more := by
    have hall := committedItems_prune cfg gvt s
    rw [Multiset.coe_add, Multiset.coe_eq_coe] at hall
    rw [Multiset.coe_add, Multiset.coe_eq_coe]
    refine (hall.flatMap_right _).trans ?_
    rw [List.flatMap_append]
    exact hperm.symm.append_left _
  unfold Sink.Holds
  rw [hitems, hcalls]
  refine Delivered.flush h sink.ordered hle (fun i hi => ?_) hsorted
  obtain ⟨⟨id, rec⟩, hitem, hi⟩ := List.mem_flatMap.mp (hperm.subset hi)
  have hrec : rec ∈ committedRecords gvt (s.ctx id).processed := by
    obtain ⟨id', -, hmem⟩ := List.mem_flatMap.mp hitem
    obtain ⟨rec', hrec', heq⟩ := List.mem_map.mp hmem
    cases heq
    exact hrec'
  have hmem : rec ∈ (s.ctx id).processed := (List.takeWhile_prefix _).subset hrec
  rw [sink.stamped id rec ((hledger id).stamped rec ((hledger id).processed_sub hmem)) i hi]
  exact ⟨hheld id rec hmem, by simpa using List.mem_takeWhile_imp hrec⟩

theorem Sink.Served.allMoves (hserved : sink.Served cfg) {y : Situation Q σ}
    (h : AllMoves True False model cfg (Simulation.create Q model).atRest y) (ht : Covered y.state.hist) :
    sink.Holds y.state.lastGvt y.state := by
  induction h with
  | refl =>
      unfold Sink.Holds
      rw [show sink.calls (Simulation.create Q model).atRest.state = [] from hserved.initial model]
      exact .nil
  | @tail x y hxs hm ih =>
      rcases hm with hm | hm
      · have hx := ih (ht.mono hm.extends)
        unfold Sink.Holds at hx ⊢
        rw [hm.committedItems_eq, hm.lastGvt_eq, hserved.frame hm.committedCalls_eq.1 hm.committedCalls_eq.2]
        exact hx
      · have hx := ih (ht.mono hm.extends)
        have hbooks := AllMoves.booksInv hxs booksInv_create
        have hbound := AllMoves.boundInv hxs booksInv_create boundInv_create (ht.mono hm.extends)
        have hheld : ∀ i, ∀ rec ∈ (x.state.ctx i).processed, x.state.lastGvt ≤ rec.ev.ts :=
          fun i rec hrec => hbound.held _ (.processed hrec rfl)
        have hsame : ∀ t : Simulation Q σ, committedItems t = committedItems x.state →
            t.committedSinkCalls = x.state.committedSinkCalls →
            t.committedEventSinkCalls = x.state.committedEventSinkCalls → sink.Holds x.state.lastGvt t := by
          intro t hitems hcalls hcalls'
          unfold Sink.Holds at hx ⊢
          rwa [hitems, hserved.frame hcalls hcalls']
        cases hm with
        | @advance s gvt _ hle =>
            exact hserved.prune (hsame (raiseGvt gvt s) rfl rfl rfl) hbooks.ledger hheld hle
        | prune => exact hserved.prune hx hbooks.ledger hheld (le_refl _)
        | flush hfinal => exact hfinal.elim
        | flip => exact hsame _ rfl rfl rfl
        | reset => exact hsame _ rfl rfl rfl

end

/-! ## Runs that end once -/

theorem AllMoves.finished_eq {x y : Situation Q σ} (h : AllMoves sound False model cfg x y) :
    y.state.finished = x.state.finished := by
  induction h with
  | refl => rfl
  | tail _ hm ih => exact (hm.elim (fun hm => hm.finished_eq) fun hm => hm.finished_eq).trans ih

/-- A host that leaves the kernel alone once its run has ended. -/
def Leaves (allowed : Simulation Q σ → HostOp → Prop) : Prop := ∀ s op, allowed s op → s.finished = false

/-- A run of such a host is under way, or it has come to its last flush. -/
theorem Reachable.under_way {allowed : Simulation Q σ → HostOp → Prop} {s : Simulation Q σ}
    (h : Reachable model cfg allowed s) (hleaves : Leaves allowed)
    (hsound : sound → ∀ s op, allowed s op → op.SoundReduction cfg) :
    ∃ t, AllMoves sound False model cfg (Simulation.create Q model).atRest t.atRest ∧ t.finished = false ∧
      (s = t ∨ (sound → Q.elems t.pending = 0) ∧ Moves model cfg (flushed cfg t).atRest s.atRest ∧
        Migrated (flushed cfg t) s) := by
  induction h with
  | create => exact ⟨_, .refl, rfl, Or.inl rfl⟩
  | @step s op hs hop ih =>
      obtain ⟨t, hmoves, hgoing, rfl | ⟨-, -, hmig⟩⟩ := ih
      · cases hostOp_outcome op hs.baseInv (fun h => hsound h _ _ hop) with
        | goesOn hrest =>
            have hall := Relation.ReflTransGen.trans hmoves hrest
            exact ⟨_, hall, AllMoves.finished_eq hall, Or.inl rfl⟩
        | @ends u hrest hempty hlast hmig =>
            have hall := Relation.ReflTransGen.trans hmoves hrest
            exact ⟨u, hall, AllMoves.finished_eq hall, Or.inr ⟨hempty, hlast, hmig⟩⟩
      · have hfinished : s.finished = true := by
          rw [hmig.rest]
          rfl
        exact absurd (hfinished.symm.trans (hleaves _ _ hop)) (by simp)

/-- A turn after which the loop of `run` goes on has not ended the run. -/
theorem runIteration_goesOn {s : Simulation Q σ} {env : Environment} {iters : ℕ} (hs : BaseInv s.atRest)
    (hgoes : (exec (runIteration model cfg env iters) s).1 = .ok true) :
    Rested False False model cfg s.atRest (exec (runIteration model cfg env iters) s).2 := by
  revert hgoes
  refine turn_exits (T := fun res => res.1 = .ok true → Rested False False model cfg s.atRest res.2) hs
    (fun h => h.elim) _ (fun what t h _ => h) fun _ t h => ?_
  have hfinal : (exec (finalizeAtEnd model cfg env >>= fun _ => pure false) t).1 ≠ .ok true := by
    rw [exec_bind]
    generalize exec (finalizeAtEnd model cfg env) t = res
    obtain ⟨what | _, u⟩ := res
    · exact fun h => by cases h
    · exact fun h => by cases h
  rw [exec_get_bind]
  dsimp only
  rw [exec_ite]
  split
  · rw [exec_ite]
    split
    · exact fun _ => h
    · exact fun hgoes => absurd hgoes hfinal
  · rw [exec_ite]
    split
    · exact fun _ => h
    · exact fun hgoes => absurd hgoes hfinal

/-- A call of `run` is a sequence of turns, and so it reaches what its host may reach. -/
theorem Reachable.run {allowed : Simulation Q σ → HostOp → Prop} {env : ℕ → Environment}
    (hallowed : ∀ t iters, t.finished = false → allowed t (.runIteration (env iters) iters)) (turns iters : ℕ)
    {s : Simulation Q σ} (h : Reachable model cfg allowed s) (hgoing : s.finished = false) :
    Reachable model cfg allowed (exec (WarpSim.run model cfg env turns iters) s).2 := by
  induction turns generalizing s iters with
  | zero => exact h
  | succ turns ih =>
      have hstep := h.step (hallowed s iters hgoing)
      have hturn : (exec (hostOp model cfg (.runIteration (env iters) iters)) s).2 =
          (exec (runIteration model cfg (env iters) iters) s).2 := exec_bind_pure_state ..
      have hgoes : (exec (runIteration model cfg (env iters) iters) s).1 = .ok true →
          Rested False False model cfg s.atRest (exec (runIteration model cfg (env iters) iters) s).2 :=
        runIteration_goesOn h.baseInv
      rw [hturn] at hstep
      unfold WarpSim.run
      rw [exec_bind]
      generalize exec (runIteration model cfg (env iters) iters) s = res at hstep hgoes ⊢
      obtain ⟨what | more, t⟩ := res
      · exact hstep
      · cases more with
        | true => exact ih (iters + 1) hstep ((AllMoves.finished_eq (hgoes rfl)).trans hgoing)
        | false => exact hstep

/-! ## Exactly once -/

section

variable {ι : Type} {sink : Sink Q σ ι} {allowed : Simulation Q σ → HostOp → Prop}

theorem Migrated.committedItems_eq {s t : Simulation Q σ} (h : Migrated s t) : committedItems t = committedItems s := by
  have hids : t.lpIds = s.lpIds := by rw [h.rest]
  unfold committedItems
  rw [hids]
  exact committedItems_congr fun i _ => by rw [h.ctx]

/-- At every time of a run the sink has been handed what has been committed. -/
theorem Sink.Served.reachable (hserved : sink.Served cfg) {s : Simulation Q σ} (h : Reachable model cfg allowed s)
    (hleaves : Leaves allowed) (hsound : ∀ s op, allowed s op → op.SoundReduction cfg) (ht : Covered s.hist) :
    ∃ bound, sink.Holds bound s := by
  obtain ⟨t, hmoves, hgoing, rfl | ⟨-, hlast, hmig⟩⟩ := h.under_way hleaves fun _ => hsound
  · exact ⟨_, hserved.allMoves hmoves ht⟩
  · have hlast : AllMoves True False model cfg (flushed cfg t).atRest s.atRest := hlast.all
    have hhist : t.hist.Extends s.hist := AllMoves.extends hlast
    have hbooks := AllMoves.booksInv hmoves booksInv_create
    have hbound := AllMoves.boundInv hmoves booksInv_create boundInv_create (ht.mono hhist)
    have hflushed := hserved.prune (hserved.allMoves hmoves (ht.mono hhist)) hbooks.ledger
      (fun i rec hrec => hbound.held _ (.processed hrec rfl)) (le_maxStamp _)
    refine ⟨maxStamp, ?_⟩
    unfold Sink.Holds at hflushed ⊢
    rw [hmig.committedItems_eq, hserved.frame (s := pruneToGvt cfg maxStamp t) (by rw [hmig.rest]; rfl)
      (by rw [hmig.rest]; rfl)]
    exact hflushed

end

instance decidableObeys {allowed : Simulation Q σ → HostOp → Prop} [∀ s op, Decidable (allowed s op)] :
    (ops : List HostOp) → (s : Simulation Q σ) → Decidable (Obeys model cfg allowed ops s)
  | [], _ => isTrue trivial
  | op :: ops, s =>
    have : Decidable (Obeys model cfg allowed ops (exec (hostOp model cfg op) s).2) := decidableObeys ops _
    inferInstanceAs (Decidable (allowed s op ∧ Obeys model cfg allowed ops (exec (hostOp model cfg op) s).2))

end WarpSim

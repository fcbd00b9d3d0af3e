import WarpSim.Verification.Books

/-! # The determinism digest

The digest of a rank does not depend on how its committed records came in flushes. It takes in
the outputs of a record only where a sink for committed outputs is installed. -/

namespace WarpSim

variable {Q : EventQueue} {σ : Type} {sound final : Prop} {model : Model σ} {cfg : SimulationConfig}

open Prog Simulation

/-! ## Digests of bags of hashes -/

/-- A record committed by an LP. -/
abbrev CommittedItem := LPId × ProcessedRecord

def wrappingSum (hashes : Multiset UInt64) : UInt64 := hashes.fold (· + ·) 0

def xorSum (hashes : Multiset UInt64) : UInt64 := hashes.fold (· ^^^ ·) 0

theorem wrappingSum_add (a b : Multiset UInt64) :
    wrappingSum (a + b) = wrappingSum a + wrappingSum b := by
  have h := Multiset.fold_add (· + · : UInt64 → UInt64 → UInt64) 0 0 a b
  simpa [wrappingSum] using h

theorem xorSum_add (a b : Multiset UInt64) : xorSum (a + b) = xorSum a ^^^ xorSum b := by
  have h := Multiset.fold_add (· ^^^ · : UInt64 → UInt64 → UInt64) 0 0 a b
  simpa [xorSum] using h

theorem wrappingSum_singleton (h : UInt64) : wrappingSum {h} = h := by
  rw [wrappingSum, Multiset.fold_singleton, UInt64.add_zero]

theorem xorSum_singleton (h : UInt64) : xorSum {h} = h := by
  rw [xorSum, Multiset.fold_singleton, UInt64.xor_zero]

/-- The four words for the hashes of committed events and of committed outputs. -/
def digestOf (events outputs : Multiset UInt64) : DeterminismDigest where
  committedEventSum := wrappingSum events
  committedEventXor := xorSum events
  committedOutputSum := wrappingSum outputs
  committedOutputXor := xorSum outputs

theorem onCommittedEvent_digestOf (events outputs : Multiset UInt64) (id : LPId) (ev : Event) :
    (digestOf events outputs).onCommittedEvent id ev =
      digestOf (events + {hashCommittedEvent id ev}) outputs := by
  simp only [digestOf, DeterminismDigest.onCommittedEvent, wrappingSum_add, xorSum_add,
    wrappingSum_singleton, xorSum_singleton]

theorem onCommittedOutput_digestOf (events outputs : Multiset UInt64) (id : LPId) (ts : TimeStamp)
    (payload : Payload) :
    (digestOf events outputs).onCommittedOutput id ts payload =
      digestOf events (outputs + {hashCommittedOutput id ts payload}) := by
  simp only [digestOf, DeterminismDigest.onCommittedOutput, wrappingSum_add, xorSum_add,
    wrappingSum_singleton, xorSum_singleton]

def eventHashes (items : Multiset CommittedItem) : Multiset UInt64 :=
  items.map fun item => hashCommittedEvent item.1 item.2.ev

def outputHashes (items : Multiset CommittedItem) : Multiset UInt64 :=
  items.bind fun item => item.2.committed.map fun out => hashCommittedOutput item.1 out.ts out.payload

theorem eventHashes_add (items items' : Multiset CommittedItem) :
    eventHashes (items + items') = eventHashes items + eventHashes items' := Multiset.map_add ..

theorem outputHashes_add (items items' : Multiset CommittedItem) :
    outputHashes (items + items') = outputHashes items + outputHashes items' := Multiset.add_bind ..

/-! ## The digest of a rank -/

/-- The outputs that a rank takes into its digest. -/
def hashedOutputs (cfg : SimulationConfig) (items : Multiset CommittedItem) : Multiset UInt64 :=
  if cfg.committedSink then outputHashes items else 0

theorem hashedOutputs_add (items items' : Multiset CommittedItem) :
    hashedOutputs cfg (items + items') = hashedOutputs cfg items + hashedOutputs cfg items' := by
  unfold hashedOutputs
  split
  · exact outputHashes_add _ _
  · rfl

/-- The accumulation over one flush. -/
def digestFlush (cfg : SimulationConfig) (d : DeterminismDigest) (flush : List CommittedItem) :
    DeterminismDigest :=
  flush.foldl (fun d (id, rec) => digestRecord cfg d id rec) d

/-- `d` is the digest of a rank that has committed `items`, in flushes of any size and order. -/
inductive Accumulated (cfg : SimulationConfig) : DeterminismDigest → Multiset CommittedItem → Prop
  | start : Accumulated cfg {} 0
  | flush {d items} (flush : List CommittedItem) : Accumulated cfg d items →
      Accumulated cfg (digestFlush cfg d flush) (items + flush)

theorem foldl_onCommittedOutput (id : LPId) (outs : List CommittedOutput)
    (events outputs : Multiset UInt64) :
    outs.foldl (fun d c => d.onCommittedOutput id c.ts c.payload) (digestOf events outputs) =
      digestOf events
        (outputs + outs.map fun out => hashCommittedOutput id out.ts out.payload) := by
  induction outs generalizing outputs with
  | nil => simp
  | cons out outs ih =>
      rw [List.foldl_cons, onCommittedOutput_digestOf, ih, List.map_cons, ← Multiset.cons_coe,
        ← Multiset.singleton_add, add_assoc]

theorem digestRecord_digestOf (events outputs : Multiset UInt64) (id : LPId) (rec : ProcessedRecord) :
    digestRecord cfg (digestOf events outputs) id rec =
      digestOf (events + eventHashes {(id, rec)}) (outputs + hashedOutputs cfg {(id, rec)}) := by
  unfold digestRecord hashedOutputs
  rw [onCommittedEvent_digestOf]
  split
  · rw [foldl_onCommittedOutput]
    simp [eventHashes, outputHashes]
  · simp [eventHashes]

/-- A flush adds the hashes of its records, whatever their order. -/
theorem digestFlush_digestOf (flush : List CommittedItem) (events outputs : Multiset UInt64) :
    digestFlush cfg (digestOf events outputs) flush =
      digestOf (events + eventHashes flush) (outputs + hashedOutputs cfg flush) := by
  unfold digestFlush
  induction flush generalizing events outputs with
  | nil => simp [eventHashes, hashedOutputs, outputHashes]
  | cons item flush ih =>
      rw [List.foldl_cons]
      dsimp only
      rw [digestRecord_digestOf, ih, ← Multiset.cons_coe, ← Multiset.singleton_add,
        eventHashes_add, hashedOutputs_add, add_assoc, add_assoc]

theorem Accumulated.eq {d : DeterminismDigest} {items : Multiset CommittedItem}
    (h : Accumulated cfg d items) : d = digestOf (eventHashes items) (hashedOutputs cfg items) := by
  induction h with
  | start => simp [digestOf, eventHashes, hashedOutputs, outputHashes, wrappingSum, xorSum]
  | flush flush _ ih => rw [ih, digestFlush_digestOf, eventHashes_add, hashedOutputs_add]

/-! ## Runs -/

/-- What the LPs of a rank have committed. -/
def committedItems (s : Simulation Q σ) : List CommittedItem :=
  s.lpIds.flatMap fun id => (s.ctx id).fossils.map (id, ·)

theorem rewind_fossils (lp : LogicalProcess σ) (target : TimeStamp) (c : LPContext σ) :
    (c.rewind lp target).fossils = c.fossils := by
  rw [LPContext.rewind_eq]

theorem fossils_modifyCtx {f : LPContext σ → LPContext σ} (hf : ∀ c, (f c).fossils = c.fossils)
    (s : Simulation Q σ) (id i : LPId) : ((s.modifyCtx id f).ctx i).fossils = (s.ctx i).fossils :=
  modifyCtx_proj (·.fossils) hf s id i

/-- No move of the event loop commits anything. -/
theorem Move.fossils_eq {x y : Situation Q σ} (hm : Move model cfg x y) {id : LPId}
    (hid : id ∈ x.state.lpIds) : (y.state.ctx id).fossils = (x.state.ctx id).fossils := by
  cases hm with
  | quiet hq => rw [hq.ctx]
  | @register s i hi =>
      have hne : id ≠ i := fun heq => hi (heq ▸ hid)
      exact congrArg LPContext.fossils (Function.update_of_ne hne _ _)
  | prepare => exact (sameBooks_setLp _ _ _ id).fossils
  | migrate => exact (sameBooks_setLp _ _ _ id).fossils
  | store => exact (sameBooks_setLp _ _ _ id).fossils
  | receive => rw [receiveEvent_eq]
  | acknowledge => rw [receiveAck_eq]
  | sent => exact (sameWork_sent ..).fossils
  | unlogged =>
      rw [posted_ctx]
      exact (sameWork_renumber ..).fossils
  | refused => exact (sameWork_renumber ..).fossils
  | @stuck a i log owed s ev u n k w => exact (sameWork_renumber i u n k w s id).fossils
  | annul => exact (sameWork_annul ..).fossils
  | @straggle s ev =>
      rw [unwound_ctx]
      by_cases h : id = ev.dst
      · rw [h, Function.update_self, rewind_fossils]
      · rw [Function.update_of_ne h]
  | @matched s rec =>
      rw [unwound_ctx]
      by_cases h : id = rec.ev.dst
      · rw [h, Function.update_self, rewind_fossils]
      · rw [Function.update_of_ne h]
  | release => rw [released_eq]
  | enter =>
      unfold entered
      rw [fossils_modifyCtx (by simp)]
  | finish =>
      unfold pushProcessed left
      rw [fossils_modifyCtx (by simp), fossils_modifyCtx (by simp)]
  | defer =>
      unfold deferTargetedEvent left
      rw [fossils_modifyCtx (by simp), fossils_modifyCtx (by simp)]
  | abort =>
      unfold left
      rw [fossils_modifyCtx (by simp)]
  | settle =>
      unfold pushProcessed
      rw [fossils_modifyCtx (by simp), fossils_modifyCtx (by simp)]
  | _ => rfl

theorem Move.determinism_eq {x y : Situation Q σ} (hm : Move model cfg x y) :
    y.state.determinism = x.state.determinism := by
  cases hm with
  | quiet hq => rw [hq]
  | receive => rw [receiveEvent_eq]
  | acknowledge => rw [receiveAck_eq]
  | sent => rw [posted_eq]; rfl
  | unlogged => rw [posted_eq]; rfl
  | annul => rw [posted_eq]; rfl
  | straggle => rw [unwound_eq]
  | matched => rw [unwound_eq]
  | release => rw [released_eq]
  | _ => rfl

/-- The only LP that a move can add is a new one, without records. -/
theorem Move.lpIds_eq {x y : Situation Q σ} (hm : Move model cfg x y) :
    y.state.lpIds = x.state.lpIds ∨ ∃ id, id ∉ x.state.lpIds ∧
      y.state.lpIds = x.state.lpIds ++ [id] ∧ (y.state.ctx id).fossils = [] := by
  cases hm with
  | @register s id hid => exact Or.inr ⟨id, hid, rfl, by simp⟩
  | quiet hq => exact Or.inl hq.lpIds
  | receive => exact Or.inl (by rw [receiveEvent_eq])
  | acknowledge => exact Or.inl (by rw [receiveAck_eq])
  | sent => exact Or.inl (by rw [posted_eq]; rfl)
  | unlogged => exact Or.inl (by rw [posted_eq]; rfl)
  | annul => exact Or.inl (by rw [posted_eq]; rfl)
  | straggle => exact Or.inl (unwound_lpIds _ _ _)
  | matched => exact Or.inl (unwound_lpIds _ _ _)
  | release => exact Or.inl (by rw [released_eq])
  | _ => exact Or.inl rfl

/-- The digest covers what the rank has committed. -/
structure DigestInv (cfg : SimulationConfig) (s : Simulation Q σ) : Prop where
  distinct : s.lpIds.Nodup
  accumulated : cfg.enableDeterminismOracle = true →
    Accumulated cfg s.determinism (committedItems s)

theorem committedItems_congr {s s' : Simulation Q σ} {ids : List LPId}
    (h : ∀ id ∈ ids, (s'.ctx id).fossils = (s.ctx id).fossils) :
    (ids.flatMap fun id => (s'.ctx id).fossils.map (id, ·)) =
      ids.flatMap fun id => (s.ctx id).fossils.map (id, ·) := by
  rw [List.flatMap_def, List.flatMap_def]
  exact congrArg _ (List.map_congr_left fun id hid => by rw [h id hid])

theorem Move.committedItems_eq {x y : Situation Q σ} (hm : Move model cfg x y) :
    committedItems y.state = committedItems x.state := by
  have hfossils := committedItems_congr fun id hid => hm.fossils_eq hid
  rcases hm.lpIds_eq with heq | ⟨id, -, heq, hnone⟩
  · rw [committedItems, heq]
    exact hfossils
  · rw [committedItems, heq, List.flatMap_append, hfossils]
    simp [hnone, committedItems]

theorem Move.digestInv {x y : Situation Q σ} (hm : Move model cfg x y) (h : DigestInv cfg x.state) :
    DigestInv cfg y.state := by
  refine ⟨?_, ?_⟩
  · rcases hm.lpIds_eq with heq | ⟨id, hid, heq, -⟩
    · exact heq ▸ h.distinct
    · rw [heq]
      exact h.distinct.append (List.nodup_singleton id) (by simpa using hid)
  · rw [hm.committedItems_eq, hm.determinism_eq]
    exact h.accumulated

/-- Pruning commits the records before the bound. -/
theorem committedItems_prune (cfg : SimulationConfig) (gvt : TimeStamp) (s : Simulation Q σ) :
    (committedItems (pruneToGvt cfg gvt s) : Multiset CommittedItem) = committedItems s + allCommitted gvt s := by
  have hflat : committedItems (pruneToGvt cfg gvt s) = s.lpIds.flatMap fun id =>
      (s.ctx id).fossils.map (id, ·) ++ (committedRecords gvt (s.ctx id).processed).map (id, ·) := by
    unfold committedItems
    rw [List.flatMap_def, List.flatMap_def]
    refine congrArg _ (List.map_congr_left fun id hid => ?_)
    change List.map _ ((if id ∈ s.lpIds then (s.ctx id).prune gvt else s.ctx id)).fossils = _
    rw [if_pos (show id ∈ s.lpIds from hid), LPContext.prune, List.map_append]
  rw [hflat, Multiset.coe_add, Multiset.coe_eq_coe]
  exact (List.flatMap_append_perm _ _ _).symm

/-- Pruning is a flush of the records it commits. -/
theorem DigestInv.prune {s : Simulation Q σ} (h : DigestInv cfg s) (gvt : TimeStamp) :
    DigestInv cfg (pruneToGvt cfg gvt s) := by
  refine ⟨h.distinct, fun horacle => ?_⟩
  have hdigest : (pruneToGvt cfg gvt s).determinism =
      digestFlush cfg s.determinism (allCommitted gvt s) := if_pos horacle
  rw [hdigest, committedItems_prune]
  exact .flush _ (h.accumulated horacle)

theorem GvtMove.digestInv {x y : Situation Q σ} (hm : GvtMove sound final cfg x y)
    (h : DigestInv cfg x.state) : DigestInv cfg y.state := by
  cases hm with
  | @advance s gvt =>
      have hraised : DigestInv cfg (raiseGvt gvt s) := ⟨h.distinct, h.accumulated⟩
      exact hraised.prune gvt
  | prune => exact h.prune _
  | flush =>
      have hflush := h.prune maxStamp
      exact ⟨hflush.distinct, hflush.accumulated⟩
  | flip => exact ⟨h.distinct, h.accumulated⟩
  | reset => exact ⟨h.distinct, h.accumulated⟩

theorem AllMoves.digestInv {x y : Situation Q σ} (h : AllMoves sound final model cfg x y)
    (hx : DigestInv cfg x.state) : DigestInv cfg y.state := by
  induction h with
  | refl => exact hx
  | tail _ hm ih => exact hm.elim (fun hm => hm.digestInv ih) fun hm => hm.digestInv ih

/-- The digest of a kernel is accumulated over what its LPs have committed. -/
theorem Reachable.accumulated {allowed : Simulation Q σ → HostOp → Prop} {s : Simulation Q σ}
    (h : Reachable model cfg allowed s) (horacle : cfg.enableDeterminismOracle = true) :
    Accumulated cfg s.determinism (committedItems s) :=
  have hmoves := @Reachable.moves _ _ False _ _ _ _ h False.elim
  (AllMoves.digestInv hmoves ⟨List.nodup_nil, fun _ => .start⟩).accumulated horacle

/-! ## The reduced digest -/

/-- A rank at the end of a run: its digest, what it has committed, and what its reductions answer. -/
structure RankEnd where
  cfg : SimulationConfig
  env : Environment
  digest : DeterminismDigest
  items : Multiset CommittedItem

/-- The reductions return the sums and the xors over all ranks. -/
structure ExactReductions (ranks : List RankEnd) (r : RankEnd) : Prop where
  installed : r.cfg.reduceU64Sum = true ∧ r.cfg.reduceU64Xor = true
  eventSum : r.env.reduceEventSum r.digest.committedEventSum =
    wrappingSum (ranks.map (·.digest.committedEventSum))
  eventXor : r.env.reduceEventXor r.digest.committedEventXor =
    xorSum (ranks.map (·.digest.committedEventXor))
  outputSum : r.env.reduceOutputSum r.digest.committedOutputSum =
    wrappingSum (ranks.map (·.digest.committedOutputSum))
  outputXor : r.env.reduceOutputXor r.digest.committedOutputXor =
    xorSum (ranks.map (·.digest.committedOutputXor))

/-- What all ranks have committed. -/
def allItems (ranks : List RankEnd) : Multiset CommittedItem := (ranks.map (·.items)).sum

/-- The hashes of the outputs committed on ranks without a sink for committed outputs. -/
def unhashedOutputs (ranks : List RankEnd) : Multiset UInt64 :=
  outputHashes (allItems (ranks.filter fun r => !r.cfg.committedSink))

/-- The sum of sums is the sum over everything. -/
theorem wrappingSum_sums (ranks : List RankEnd) (f : RankEnd → Multiset UInt64) :
    wrappingSum (ranks.map fun r => wrappingSum (f r)) = wrappingSum (ranks.map f).sum := by
  induction ranks with
  | nil => rfl
  | cons r ranks ih =>
      rw [List.map_cons, List.map_cons, List.sum_cons, wrappingSum_add, ← ih, ← Multiset.cons_coe,
        ← Multiset.singleton_add, wrappingSum_add, wrappingSum_singleton]

theorem xorSum_sums (ranks : List RankEnd) (f : RankEnd → Multiset UInt64) :
    xorSum (ranks.map fun r => xorSum (f r)) = xorSum (ranks.map f).sum := by
  induction ranks with
  | nil => rfl
  | cons r ranks ih =>
      rw [List.map_cons, List.map_cons, List.sum_cons, xorSum_add, ← ih, ← Multiset.cons_coe,
        ← Multiset.singleton_add, xorSum_add, xorSum_singleton]

theorem eventHashes_allItems (ranks : List RankEnd) :
    (ranks.map fun r => eventHashes r.items).sum = eventHashes (allItems ranks) := by
  induction ranks with
  | nil => rfl
  | cons r ranks ih =>
      rw [List.map_cons, List.sum_cons, ih, allItems, allItems, List.map_cons, List.sum_cons,
        eventHashes_add]

/-- The outputs that are not hashed are those that the digests miss. -/
theorem hashed_add_unhashed (ranks : List RankEnd) :
    (ranks.map fun r => hashedOutputs r.cfg r.items).sum + unhashedOutputs ranks =
      outputHashes (allItems ranks) := by
  induction ranks with
  | nil => simp [unhashedOutputs, allItems, outputHashes]
  | cons r ranks ih =>
      have hall : allItems (r :: ranks) = r.items + allItems ranks := by
        rw [allItems, allItems, List.map_cons, List.sum_cons]
      rw [hall, outputHashes_add, ← ih, List.map_cons, List.sum_cons]
      cases hsink : r.cfg.committedSink with
      | true =>
          have hrest : unhashedOutputs (r :: ranks) = unhashedOutputs ranks := by
            simp [unhashedOutputs, hsink]
          rw [hrest, hashedOutputs, if_pos hsink, add_assoc]
      | false =>
          have hrest : unhashedOutputs (r :: ranks) = outputHashes r.items + unhashedOutputs ranks := by
            simp [unhashedOutputs, hsink, allItems, outputHashes_add]
          rw [hrest, hashedOutputs, if_neg (by simp [hsink]), zero_add]
          abel

/-- The digest that all ranks arrive at. -/
theorem reduceDigest_eq {ranks : List RankEnd} {r : RankEnd}
    (hacc : ∀ r ∈ ranks, Accumulated r.cfg r.digest r.items) (hexact : ExactReductions ranks r) :
    reduceDigest r.cfg r.env r.digest =
      digestOf (eventHashes (allItems ranks)) (ranks.map fun r => hashedOutputs r.cfg r.items).sum := by
  have hwords : ∀ word : DeterminismDigest → UInt64, ranks.map (fun r => word r.digest) =
      ranks.map fun r => word (digestOf (eventHashes r.items) (hashedOutputs r.cfg r.items)) :=
    fun word => List.map_congr_left fun r hmem => by rw [← (hacc r hmem).eq]
  have hes := hexact.eventSum
  have hex := hexact.eventXor
  have hos := hexact.outputSum
  have hox := hexact.outputXor
  rw [hwords] at hes hex hos hox
  simp only [digestOf] at hes hex hos hox
  rw [wrappingSum_sums, eventHashes_allItems] at hes
  rw [xorSum_sums, eventHashes_allItems] at hex
  rw [wrappingSum_sums] at hos
  rw [xorSum_sums] at hox
  simp only [reduceDigest, hexact.installed.1, hexact.installed.2, if_true, hes, hex, hos, hox]
  rfl

/-- Over exact reductions the digest of every rank is that of all committed events and outputs, if
and only if the outputs committed on ranks without a sink happen to hash to nothing. -/
theorem reduced_digest_exact_iff {ranks : List RankEnd}
    (hacc : ∀ r ∈ ranks, Accumulated r.cfg r.digest r.items)
    (hexact : ∀ r ∈ ranks, ExactReductions ranks r) :
    (∀ r ∈ ranks, reduceDigest r.cfg r.env r.digest =
        digestOf (eventHashes (allItems ranks)) (outputHashes (allItems ranks))) ↔
      wrappingSum (unhashedOutputs ranks) = 0 ∧ xorSum (unhashedOutputs ranks) = 0 := by
  have hsplit := hashed_add_unhashed ranks
  have hsum := congrArg wrappingSum hsplit
  have hxor := congrArg xorSum hsplit
  rw [wrappingSum_add] at hsum
  rw [xorSum_add] at hxor
  constructor
  · intro h
    cases ranks with
    | nil => exact ⟨rfl, rfl⟩
    | cons r rest =>
        have hr := h r List.mem_cons_self
        rw [reduceDigest_eq hacc (hexact r List.mem_cons_self)] at hr
        have hs := congrArg DeterminismDigest.committedOutputSum hr
        have hx := congrArg DeterminismDigest.committedOutputXor hr
        simp only [digestOf] at hs hx
        rw [hs] at hsum
        rw [hx] at hxor
        refine ⟨by simpa using hsum, ?_⟩
        rw [← xor_cancel_left (xorSum (outputHashes (allItems (r :: rest))))
          (xorSum (unhashedOutputs (r :: rest))), hxor, UInt64.xor_self]
  · rintro ⟨hs, hx⟩ r hr
    rw [reduceDigest_eq hacc (hexact r hr)]
    rw [hs, UInt64.add_zero] at hsum
    rw [hx, UInt64.xor_zero] at hxor
    simp only [digestOf, hsum, hxor]

/-- An LP that answers every event with a committed output. -/
def announcer : LogicalProcess Unit where
  init := ()
  onEvent _ ev := .emitCommitted ev.ts ev.payload fun _ => .done ()
  saveState _ := []
  loadState _ _ := ()

/-- A rank whose digest is reduced. -/
def oracleConfig (sink : Bool) : SimulationConfig where
  committedSink := sink
  enableDeterminismOracle := true
  reduceU64Sum := true
  reduceU64Xor := true

/-- A rank with one LP that has handled one event. -/
def announced (sink : Bool) (id : LPId) : Simulation sortedEventQueue Unit :=
  hostRun (fun _ => announcer) (oracleConfig sink)
    [.addLp id, .schedule { ts := ⟨5, 1⟩, src := 9, dst := id, uid := 1, payload := ⟨3, [7]⟩ },
      .runIteration {} 0]
    (Simulation.create _ fun _ => announcer)

/-- The end of such ranks, with reductions over the given ones. -/
def announcedEnd (all : List (Bool × LPId)) (rank : Bool × LPId) : RankEnd where
  cfg := oracleConfig rank.1
  env :=
    let words (word : DeterminismDigest → UInt64) : Multiset UInt64 :=
      all.map fun r => word (announced r.1 r.2).determinism
    { reduceEventSum := fun _ => wrappingSum (words (·.committedEventSum))
      reduceEventXor := fun _ => xorSum (words (·.committedEventXor))
      reduceOutputSum := fun _ => wrappingSum (words (·.committedOutputSum))
      reduceOutputXor := fun _ => xorSum (words (·.committedOutputXor)) }
  digest := (announced rank.1 rank.2).determinism
  items := committedItems (announced rank.1 rank.2)

theorem accumulated_announcedEnd (all : List (Bool × LPId)) (rank : Bool × LPId) :
    Accumulated (announcedEnd all rank).cfg (announcedEnd all rank).digest
      (announcedEnd all rank).items :=
  have hrun : Reachable (fun _ => announcer) (oracleConfig rank.1) (fun _ _ => True)
      (announced rank.1 rank.2) := Reachable.hostRun .create ⟨trivial, trivial, trivial, trivial⟩
  hrun.accumulated rfl

theorem exactReductions_announcedEnd (all : List (Bool × LPId)) (rank : Bool × LPId) :
    ExactReductions (all.map (announcedEnd all)) (announcedEnd all rank) := by
  refine ⟨⟨rfl, rfl⟩, ?_, ?_, ?_, ?_⟩ <;> simp [announcedEnd, Function.comp_def]

/-- Without a sink for committed outputs, the digest misses the output. -/
theorem digest_misses_output :
    let ranks := [announcedEnd [(false, 1)] (false, 1)]
    (∀ r ∈ ranks, Accumulated r.cfg r.digest r.items) ∧ (∀ r ∈ ranks, ExactReductions ranks r) ∧
      ¬ ∀ r ∈ ranks, reduceDigest r.cfg r.env r.digest =
        digestOf (eventHashes (allItems ranks)) (outputHashes (allItems ranks)) := by
  intro ranks
  refine ⟨fun r hr => ?_, fun r hr => ?_, fun h => ?_⟩
  · rw [List.mem_singleton.mp hr]
    exact accumulated_announcedEnd _ _
  · rw [List.mem_singleton.mp hr]
    exact exactReductions_announcedEnd [(false, 1)] _
  · have hsum := congrArg DeterminismDigest.committedOutputSum (h _ List.mem_cons_self)
    exact absurd hsum (by decide +kernel)

/-- Two ranks with sinks arrive at the digest of all events and outputs. -/
theorem reduced_digest_exact_two_ranks :
    let all := [(true, 1), (true, 2)]
    let ranks := all.map (announcedEnd all)
    ∀ r ∈ ranks, reduceDigest r.cfg r.env r.digest =
      digestOf (eventHashes (allItems ranks)) (outputHashes (allItems ranks)) := by
  intro all ranks
  refine (reduced_digest_exact_iff (fun r hr => ?_) fun r hr => ?_).mpr (by decide +kernel)
  · obtain ⟨rank, -, rfl⟩ := List.mem_map.mp hr
    exact accumulated_announcedEnd all rank
  · obtain ⟨rank, -, rfl⟩ := List.mem_map.mp hr
    exact exactReductions_announcedEnd all rank

end WarpSim

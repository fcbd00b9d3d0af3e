import WarpSim.Verification.Sequential.Settling

/-! # The output of a run

When a run has ended, the sink has been handed what a sequential execution puts out: nothing of what was undone,
and nothing twice. -/

namespace WarpSim

variable {Q : EventQueue} {σ : Type} {sound final : Prop} {model : Model σ} {cfg : SimulationConfig}

open Prog Simulation

/-! ## Anti-messages put nothing out -/

/-- The records of anti-messages have no outputs. -/
theorem AllMoves.silent {y : Situation Q σ} (h : AllMoves sound final model cfg (Simulation.create Q model).atRest y)
    (i : LPId) : ∀ rec ∈ (y.state.ctx i).executed, rec.ev.isAnti = true → rec.committed = [] := by
  induction h with
  | refl => simp [Simulation.create, Simulation.atRest]
  | @tail x y hxs hm ih =>
      have hb : BooksInv x := AllMoves.booksInv hxs booksInv_create
      have hsame : (y.state.ctx i).executed = (x.state.ctx i).executed →
          ∀ rec ∈ (y.state.ctx i).executed, rec.ev.isAnti = true → rec.committed = [] := by
        intro heq
        rwa [heq]
      rcases hm with hm | hm
      · cases hm.lpStep i with
        | same hwork => exact hsame hwork.executed
        | registered _ hctx => simp [hctx]
        | prepared _ _ _ hctx => exact hsame (by rw [hctx])
        | migrated _ _ _ hctx => exact hsame (by rw [hctx])
        | entered _ _ _ hctx => exact hsame (by rw [hctx]; rfl)
        | stored _ _ _ _ _ _ _ hctx => exact hsame (by rw [hctx])
        | deferred _ _ _ _ _ hctx => exact hsame (by rw [hctx])
        | aborted _ _ _ _ _ hctx => exact hsame (by rw [hctx])
        | rewound _ hctx => exact hsame (by rw [hctx, rewind_executed])
        | finished before ev calls rec _ hact hrun hctx =>
            have hstage := hb.stage
            rw [hact] at hstage
            have hpos : rec.ev.isAnti = false := by
              rw [hrun.filled.ev]
              exact hstage.1
            rw [hctx]
            intro r hr hanti
            rcases List.mem_append.mp hr with hr | hr
            · exact ih r hr hanti
            · rw [List.mem_singleton.mp hr, hpos] at hanti
              cases hanti
        | settled rec _ hact hctx =>
            have hstage := hb.stage
            rw [hact] at hstage
            obtain ⟨-, -, -, -, hnone, -⟩ := hstage
            rw [hctx]
            intro r hr hanti
            rcases List.mem_append.mp hr with hr | hr
            · exact ih r hr hanti
            · rwa [List.mem_singleton.mp hr]
      · rcases hm.ctx_cases i with hctx | ⟨gvt, hctx⟩
        · exact hsame (by rw [hctx])
        · exact hsame (by rw [hctx]; rfl)

/-! ## Outputs -/

/-- The outputs of the turns that are not at the last stamp. -/
def outputs (turns : List Turn) : List CommittedFlushItem :=
  (turns.filter (·.record.ev.ts ≠ maxStamp)).flatMap fun turn => flushItems turn.record.ev.dst turn.record

/-- At the end of a run the committed records of an LP are those that are not at the last stamp. -/
structure Ended (s : Simulation Q σ) : Prop where
  fossils : ∀ i, ∀ rec ∈ (s.ctx i).fossils, rec.ev.ts ≠ maxStamp
  processed : ∀ i, ∀ rec ∈ (s.ctx i).processed, rec.ev.ts = maxStamp

theorem Progress.ended {t : Simulation Q σ} {env : Environment} (h : Progress cfg t) :
    Ended ((Phase.finalize env).after model cfg t) := by
  have hmig : Migrated (flushed cfg t) ((Phase.finalize env).after model cfg t) :=
    finalizeAtEnd_migrated model cfg env t
  have hold : ∀ i, ∀ rec ∈ (t.ctx i).fossils, rec.ev.ts < maxStamp := fun i rec hrec =>
    (h.bound.committed h.going i rec hrec).trans_le (le_maxStamp _)
  refine ⟨fun i rec hrec => ne_of_lt ?_, fun i rec hrec => ?_⟩
  · rw [hmig.ctx] at hrec
    have hflushed : rec ∈ ((pruneToGvt cfg maxStamp t).ctx i).fossils := hrec
    rcases prune_ctx_cases cfg maxStamp t i with ⟨-, hctx⟩ | ⟨-, hctx⟩
    · rw [hctx] at hflushed
      rcases List.mem_append.mp hflushed with hflushed | hflushed
      · exact hold i rec hflushed
      · simpa using List.mem_takeWhile_imp hflushed
    · rw [hctx] at hflushed
      exact hold i rec hflushed
  · rw [hmig.ctx] at hrec
    have hflushed : rec ∈ ((pruneToGvt cfg maxStamp t).ctx i).processed := hrec
    exact le_antisymm (le_maxStamp _) (h.books.prune_le maxStamp i rec hflushed)

section

variable {s : Simulation Q σ} {start : LPId → σ} {turns : List Turn}

/-- The turns before the last stamp at an LP are those of its committed records. -/
theorem SettlesAs.committed_turns (h : SettlesAs model s start turns) (hend : Ended s) (i : LPId) :
    ((turns.filter (·.record.ev.ts ≠ maxStamp)).filter (·.record.ev.dst = i)).map (·.record) =
      (s.ctx i).fossils.filter (·.ev.isAnti = false) := by
  have hnone : ((s.ctx i).processed.filter (·.ev.isAnti = false)).filter (·.ev.ts ≠ maxStamp) = [] := by
    refine List.filter_eq_nil_iff.mpr fun rec hrec => ?_
    simp [hend.processed i rec (List.mem_filter.mp hrec).1]
  have hall : ((s.ctx i).fossils.filter (·.ev.isAnti = false)).filter (·.ev.ts ≠ maxStamp) =
      (s.ctx i).fossils.filter (·.ev.isAnti = false) := by
    refine List.filter_eq_self.mpr fun rec hrec => ?_
    simp [hend.fossils i rec (List.mem_filter.mp hrec).1]
  have hrecords := congrArg (List.filter (·.ev.ts ≠ maxStamp)) (h.records i)
  rw [LPContext.kept, List.filter_append, List.filter_append, hnone, hall, List.append_nil, List.filter_map] at hrecords
  rw [← hrecords, List.filter_filter, List.filter_filter]
  congr 1
  refine List.filter_congr fun turn _ => ?_
  rw [Bool.and_comm]
  rfl

/-- The outputs of the committed records of an LP are those of the turns at it. -/
theorem SettlesAs.flushed_turns (h : SettlesAs model s start turns) (hend : Ended s) {i : LPId}
    (hsilent : ∀ rec ∈ (s.ctx i).kept, rec.ev.isAnti = true → rec.committed = []) :
    (s.ctx i).fossils.flatMap (flushItems i) =
      ((turns.filter (·.record.ev.ts ≠ maxStamp)).filter (·.record.ev.dst = i)).flatMap
        fun turn => flushItems turn.record.ev.dst turn.record := by
  have hpositive : ((s.ctx i).fossils.filter (·.ev.isAnti = false)).flatMap (flushItems i) =
      (s.ctx i).fossils.flatMap (flushItems i) := by
    refine List.flatMap_filter_of_nil fun rec hrec hneg => ?_
    simp [flushItems, hsilent rec (List.mem_append_left _ hrec) (by simpa using hneg)]
  rw [← hpositive, ← h.committed_turns hend i, List.flatMap_map]
  refine List.flatMap_congr fun turn hturn => ?_
  rw [of_decide_eq_true (List.mem_filter.mp hturn).2]

/-- The turns are at LPs of the simulation. -/
theorem SettlesAs.placed (h : SettlesAs model s start turns) (hfresh : ∀ i, i ∉ s.lpIds → (s.ctx i).kept = []) :
    ∀ turn ∈ turns, turn.record.ev.dst ∈ s.lpIds := by
  intro turn hturn
  by_contra hi
  have hmem : turn.record ∈ (turns.filter ((sequential model).At turn.record.ev.dst ·)).map (·.record) := by
    refine List.mem_map_of_mem (List.mem_filter.mpr ⟨hturn, ?_⟩)
    exact decide_eq_true (rfl : (sequential model).At turn.record.ev.dst turn)
  rw [h.records, hfresh _ hi] at hmem
  cases hmem

/-- The outputs of the committed records are those of the turns. -/
theorem SettlesAs.outputs_perm (h : SettlesAs model s start turns) (hids : s.lpIds.Nodup)
    (hfresh : ∀ i, i ∉ s.lpIds → (s.ctx i).kept = [])
    (hsilent : ∀ i, ∀ rec ∈ (s.ctx i).kept, rec.ev.isAnti = true → rec.committed = []) (hend : Ended s) :
    ((committedItems s).flatMap fun item => flushItems item.1 item.2).Perm (outputs turns) := by
  have hplace : ∀ turn ∈ turns.filter (·.record.ev.ts ≠ maxStamp), turn.record.ev.dst ∈ s.lpIds :=
    fun turn hturn => h.placed hfresh turn (List.mem_filter.mp hturn).1
  have hitems : ((committedItems s).flatMap fun item => flushItems item.1 item.2) =
      (s.lpIds.flatMap fun i => (turns.filter (·.record.ev.ts ≠ maxStamp)).filter (·.record.ev.dst = i)).flatMap
        fun turn => flushItems turn.record.ev.dst turn.record := by
    rw [committedItems, List.flatMap_assoc, List.flatMap_assoc]
    refine List.flatMap_congr fun i _ => ?_
    rw [← h.flushed_turns hend (hsilent i), List.flatMap_map]
  rw [hitems]
  exact (List.flatMap_filter_perm hids hplace).flatMap_right _

end

/-- When a run has ended, what the sink has been handed is what a sequential execution puts out before the last
stamp, each output once and in the order of time. -/
theorem output_of_sequential {allowed : Simulation Q σ → HostOp → Prop} {s : Simulation Q σ}
    (h : Reachable model cfg allowed s) (hleaves : Leaves allowed)
    (hsound : ∀ s op, allowed s op → op.SoundReduction cfg) (hoff : cfg.enableInstallBeforeUseBuffering = false)
    (hsink : cfg.committedSink = true) (ht : Timely s.hist) (hd : Disciplined s.hist)
    {Admits : LPId → Event → Prop} (hcontract : ∀ i, SnapshotContract (model i) (Admits i))
    (hadmits : ∀ ev ∈ s.entered cfg, Admits ev.dst ev) (halone : ∀ i, cfg.rankOf i = cfg.rank) (hend : s.finished = true) :
    ∃ start turns, SettlesAs model s start turns ∧ s.committedSinkCalls.Perm (outputs turns) ∧
      s.committedSinkCalls.Pairwise (fun a b => a.sortKey ≤ b.sortKey) := by
  have hcovered : Covered s.hist := (h.noDeferral hoff).covered ht
  have hserved : (outputSink Q σ).Served cfg := outputSink_served hsink
  obtain ⟨bound, hexact, hsorted, -⟩ := hserved.reachable h hleaves hsound hcovered
  have hmoves : AllMoves True True model cfg (Simulation.create Q model).atRest s.atRest := h.moves fun _ => hsound
  obtain ⟨t, hrun, hgoing, rfl | ⟨hempty, env, rfl⟩⟩ := h.ending hleaves hsound
  · exact absurd (hgoing.symm.trans hend) (by simp)
  · have hle : t.hist.Extends ((Phase.finalize env).after model cfg t).hist :=
      AllMoves.extends (Phase.after_moves model cfg hrun.baseInv (show Phase.Ready t (.finalize env) from trivial)).1
    obtain ⟨start, turns, hsettles⟩ := hrun.settles hoff (hcovered.mono hle) (hd.mono hle) hcontract
      (fun ev hev => hadmits ev ((entered_sublist hle).subset hev)) ⟨halone, hempty⟩
    have hfinal := hsettles.finalized hd
    refine ⟨start, turns, hfinal, ?_, hsorted⟩
    have hids : ((Phase.finalize env).after model cfg t).lpIds.Nodup :=
      (AllMoves.digestInv hmoves ⟨List.nodup_nil, fun _ => .start⟩).distinct
    refine (Multiset.coe_eq_coe.mp hexact).trans (hfinal.outputs_perm hids (fun i hi => ?_) (fun i rec hrec => ?_) ?_)
    · exact h.booksInv.kept_of_fresh hi
    · exact AllMoves.silent hmoves i rec ((h.booksInv.ledger i).kept_sub hrec)
    · exact (hrun.progress (hcovered.mono hle) (hd.mono hle)).ended

/-- The run of the adders, up to its end. -/
def adderOutputs : Simulation sortedEventQueue UInt8 :=
  hostRun adder { committedSink := true } (adderOps ++ [.runIteration {} 0]) (Simulation.create _ adder)

/-- The sums 3 at the LPs 1 and 2 have been undone, and are not among those delivered. -/
theorem output_of_sequential_adder :
    adderOutputs.committedSinkCalls.map (fun item => (item.ts.time, item.lp, item.payload.kind)) =
        [(10, 1, 4), (15, 2, 4), (20, 1, 7), (25, 2, 11)] ∧
      ∃ start turns, SettlesAs adder adderOutputs start turns ∧ adderOutputs.committedSinkCalls.Perm (outputs turns) ∧
        adderOutputs.committedSinkCalls.Pairwise (fun a b => a.sortKey ≤ b.sortKey) := by
  have hrun : Reachable adder { committedSink := true } (fun s _ => s.finished = false) adderOutputs :=
    Reachable.hostRun .create (by decide +kernel)
  have hmigrations : adderOutputs.hist.migrations = [] := by decide +kernel
  have huids : ∀ r ∈ adderOutputs.hist.sends, r.Positive → r.asked.uid = 0 := by decide +kernel
  have hdisciplined : Disciplined adderOutputs.hist :=
    ⟨by decide +kernel, huids, by decide +kernel, by decide +kernel, by decide +kernel, by decide +kernel,
      by simp [hmigrations]⟩
  refine ⟨by decide +kernel, ?_⟩
  exact output_of_sequential hrun (fun _ _ h => h) (fun _ op _ => HostOp.soundReduction_of_alone rfl rfl op) rfl rfl
    ⟨by decide +kernel, by decide +kernel⟩ hdisciplined adder_contract (fun _ _ => trivial) (fun _ => rfl) (by decide +kernel)

end WarpSim

import WarpSim.Verification.Rollback.Replay

/-! # Back to the state before a record

While a record is in place, the state in which its execution began stays where a rollback past the record returns to,
whatever is executed, cancelled, undone and committed in the meantime. -/

namespace WarpSim

variable {Q : EventQueue} {σ : Type} {model : Model σ} {cfg : SimulationConfig}

open Prog Simulation

/-! ## What a rollback undoes -/

/-- An element of one list is in the second part of another list, or else that part comes after it. -/
theorem append_eq_append_cons {α : Type*} {first second before after : List α} {a : α}
    (h : first ++ second = before ++ a :: after) :
    a ∈ second ∨ ∃ rest, first = before ++ a :: rest ∧ after = rest ++ second := by
  rcases List.append_eq_append_iff.mp h with ⟨as, -, hsecond⟩ | ⟨bs, hfirst, hafter⟩
  · exact Or.inl (by simp [hsecond])
  · cases bs with
    | nil =>
        rw [List.nil_append] at hafter
        exact Or.inl (by simp [← hafter])
    | cons b rest =>
        rw [List.cons_append] at hafter
        obtain ⟨rfl, hrest⟩ := List.cons.inj hafter
        exact Or.inr ⟨rest, hfirst, hrest⟩

/-! ## Anchors -/

section

variable {i : LPId} {ι β : Type} [DecidableEq ι] {mode : SnapshotMode (model i) ι β} {base : List ProcessedRecord}
  {rec : ProcessedRecord} {y : σ} {c : LPContext σ}

/-- Until the record is undone, it and the later records in place have led the LP on from the state `y`. -/
def SnapshotMode.Anchored (mode : SnapshotMode (model i) ι β) (base : List ProcessedRecord) (rec : ProcessedRecord)
    (y : σ) (c : LPContext σ) : Prop :=
  mode.Led c ∧ (rec ∈ c.undone ∨ ∃ after, c.kept = base ++ rec :: after ∧ mode.parts.Valid y ∧
    Trail mode.Leads y (rec :: after) c.lp)

theorem SnapshotMode.Anchored.rewind (h : mode.Anchored base rec y c) (target : TimeStamp) :
    mode.Anchored base rec y (c.rewind (model i) target) := by
  obtain ⟨hled, hanchor⟩ := h
  refine ⟨hled.rewind target, ?_⟩
  have hundone : (c.rewind (model i) target).undone = c.undone ++ undoneRecords target c.processed := by
    rw [LPContext.rewind_eq]
  rcases hanchor with hmem | ⟨after, hkept, hvalid, htrail⟩
  · exact Or.inl (hundone ▸ List.mem_append_left _ hmem)
  · have hall : c.fossils ++ keptRecords target c.processed ++ undoneRecords target c.processed = base ++ rec :: after := by
      rw [← hkept, List.append_assoc, keptRecords_append_undoneRecords]
      rfl
    rcases append_eq_append_cons hall with hmem | ⟨rest, hfirst, hafter⟩
    · exact Or.inl (hundone ▸ List.mem_append_right _ hmem)
    · rw [hafter, ← List.cons_append, Trail.append_iff] at htrail
      obtain ⟨z, hstays, hgoes⟩ := htrail
      have hz : mode.parts.Valid z := hstays.preserves (fun _ _ _ hr => hr.2.valid) hvalid
      refine Or.inr ⟨rest, ?_, hvalid, ?_⟩
      · rw [LPContext.rewind_eq]
        exact hfirst
      · rw [rewind_lp, restoreState_undoes (hgoes.mono fun _ _ _ hr => hr.2) hz]
        exact hstays

end

/-! ## Executions -/

/-- In the state `s` of a run an event is dispatched, which adds the record to those of the LP. -/
structure Executes (model : Model σ) (cfg : SimulationConfig) (i : LPId) (rec : ProcessedRecord)
    (s : Simulation Q σ) : Prop where
  onRun : OnRun model cfg s
  started : s.started = true
  executed : ((Phase.dispatch.after model cfg s).ctx i).executed = (s.ctx i).executed ++ [rec]

section

variable {i : LPId} {ι β : Type} [DecidableEq ι] {mode : SnapshotMode (model i) ι β} {rec : ProcessedRecord}

theorem SnapshotMode.Dispatched.executed_eq {c c' : LPContext σ} (h : mode.Dispatched c c') :
    c'.executed = c.executed ∨ ∃ rec, c'.executed = c.executed ++ [rec] := by
  cases h with
  | stays _ _ hexecuted _ => exact Or.inl hexecuted
  | rewinds target hwork => exact Or.inl (hwork.executed.trans (rewind_executed ..))
  | handles rec _ _ _ _ hexecuted => exact Or.inr ⟨rec, hexecuted⟩
  | annuls rec b hbefore _ _ _ _ _ hexecuted =>
      refine Or.inr ⟨rec, ?_⟩
      rcases hbefore with hwork | ⟨target, hwork⟩
      · rw [hexecuted, hwork.executed]
      · rw [hexecuted, hwork.executed, rewind_executed]

end

/-- What is asked of an LP: it keeps the snapshot contract for the events that come in for it, its handlers throw only
without having changed the state, and nothing migrates to it. -/
structure Restorable (model : Model σ) (cfg : SimulationConfig) (i : LPId) (Admits : Event → Prop)
    (s : Simulation Q σ) : Prop where
  contract : SnapshotContract (model i) Admits
  admits : ∀ ev ∈ s.entered cfg, ev.dst = i → Admits ev
  throws : ∀ state ev, ((model i).onEvent state ev).ThrowsUnchanged state
  settled : ∀ step ∈ s.hist.migrations, ¬ step.Into i

section

variable {i : LPId} {Admits : Event → Prop} {rec : ProcessedRecord} {s t : Simulation Q σ}

theorem Restorable.mono (h : Restorable model cfg i Admits t) (hle : s.hist.Extends t.hist) :
    Restorable model cfg i Admits s :=
  ⟨h.contract, fun ev hev => h.admits ev ((entered_sublist hle).subset hev), h.throws,
    fun step hstep => h.settled step (hle.migrations.subset hstep)⟩

theorem PhaseRun.extends (h : PhaseRun model cfg (fun _ _ => True) s t) (hs : BaseInv s.atRest) :
    s.hist.Extends t.hist :=
  AllMoves.extends (h.moves hs)

/-- A dispatch takes one turn of the LP. -/
theorem Restorable.dispatched {ι β : Type} [DecidableEq ι] {mode : SnapshotMode (model i) ι β} (hkeeps : mode.Kept Admits)
    (hs : OnRun model cfg s) (h : Restorable model cfg i Admits s) :
    mode.Led (s.ctx i) ∧ mode.Dispatched (s.ctx i) ((Phase.dispatch.after model cfg s).ctx i) := by
  have hled : mode.Led (s.ctx i) := (hs.replayInv hkeeps h.admits h.throws h.settled).led
  refine ⟨hled, ?_⟩
  rcases dispatch_step model hs.loggable with hsame | ⟨ev, htop, hstep⟩
  · exact .same mode (hsame.ctx ▸ .refl _)
  · have hpresent := AllMoves.present_eq (hs.moves baseInv_create)
    have hmem := entered_of_pending hpresent (mem_discardPending (mem_of_top? htop))
    exact hstep.dispatched hkeeps (h.admits ev hmem) h.throws hled.valid

/-- From when the kernel has started, a run carries the property along. -/
theorem SnapshotMode.Carries.run {ι β : Type} [DecidableEq ι] {mode : SnapshotMode (model i) ι β}
    {P : LPContext σ → Prop} (hP : mode.Carries P) (hkeeps : mode.Kept Admits) (hs : OnRun model cfg s)
    (hstarted : s.started = true) (hi : i ∈ s.lpIds) (hrun : PhaseRun model cfg (fun _ _ => True) s t)
    (h : Restorable model cfg i Admits t) (hPs : P (s.ctx i)) : P (t.ctx i) := by
  induction hrun with
  | refl => exact hPs
  | @step t p hst hready _ ih =>
      have ht : OnRun model cfg t := hs.trans hst
      have hafter := (Phase.after_moves model cfg ht.baseInv hready).1
      have h' := h.mono (AllMoves.extends hafter)
      have hmoves := hst.moves hs.baseInv
      have hsets : ¬ p.Sets i t := by
        cases p with
        | addLp id => exact fun ⟨_, hnew⟩ => hnew ((AllMoves.lpIds_subset hmoves) hi)
        | start => exact fun hnot => absurd (hnot.symm.trans (AllMoves.started_mono hmoves hstarted)) (by simp)
        | _ => exact fun hnot => hnot
      have hpresent := AllMoves.present_eq (ht.moves baseInv_create)
      exact hP.after (ih h') hkeeps (fun ev hev => h'.admits ev (entered_of_pending hpresent hev)) h.throws hsets hready
        ht.booksInv ht.baseInv ht.loggable h.settled

/-- Each record in place was added by a dispatch of the run. -/
theorem Restorable.executes {ι β : Type} [DecidableEq ι] {mode : SnapshotMode (model i) ι β} (hkeeps : mode.Kept Admits)
    (hs : OnRun model cfg s) (h : Restorable model cfg i Admits s) (hrec : rec ∈ (s.ctx i).executed) :
    ∃ s₀, Executes model cfg i rec s₀ ∧ PhaseRun model cfg (fun _ _ => True) (Phase.dispatch.after model cfg s₀) s := by
  induction hs with
  | refl => simp [Simulation.create] at hrec
  | @step t p ht hready _ ih =>
      have hafter := (Phase.after_moves model cfg ht.baseInv hready).1
      have h' := h.mono (AllMoves.extends hafter)
      have hold : rec ∈ (t.ctx i).executed → ∃ s₀, Executes model cfg i rec s₀ ∧
          PhaseRun model cfg (fun _ _ => True) (Phase.dispatch.after model cfg s₀) (p.after model cfg t) := by
        intro hmem
        obtain ⟨s₀, he, hrun⟩ := ih h' hmem
        exact ⟨s₀, he, hrun.step hready trivial⟩
      by_cases hne : p = .dispatch
      · subst hne
        rcases (h'.dispatched hkeeps ht).2.executed_eq with hsame | ⟨added, hadded⟩
        · exact hold (hsame ▸ hrec)
        · rw [hadded] at hrec
          rcases mem_append_singleton hrec with hrec | rfl
          · exact hold hrec
          · exact ⟨t, ⟨ht, hready, hadded⟩, .refl⟩
      · have hframe : RestFrame (t.ctx i) ((p.after model cfg t).ctx i) :=
          Phase.after_restFrame hne ht.booksInv ht.baseInv hready i
        exact hold (hframe.executed ▸ hrec)

end

end WarpSim

import WarpSim.Verification.Deferral.Coverage
import WarpSim.Verification.Migration.Ownership

/-! # Where targeted events go

The owner of an entity is looked up once, when an event for the entity is sent. A migration takes
over the events sent after it has been applied, and leaves those sent before where they are. -/

namespace WarpSim

variable {Q : EventQueue} {σ : Type} {sound final : Prop} {model : Model σ} {cfg : SimulationConfig}

open Simulation

/-! ## What is known of a send -/

/-- The event has gone to the owner of its target, as the migrations until then have left it, and
GVT had passed them. -/
structure SendRecord.Routed (log : List MigrationStep) (r : SendRecord) : Prop where
  past : r.migrations ≤ log.length
  ready : ∀ entity, ∀ mig ∈ applied entity (log.take r.migrations), mig.effectiveTs ≤ r.gvt
  dst : r.asked.target ≠ 0 →
    r.ev.dst = (ownerAfter r.asked.target (log.take r.migrations)).getD r.asked.dst

theorem SendRecord.Routed.append {log : List MigrationStep} {r : SendRecord} (h : r.Routed log)
    (more : List MigrationStep) : r.Routed (log ++ more) := by
  have htake : (log ++ more).take r.migrations = log.take r.migrations :=
    List.take_append_of_le_length h.past
  refine ⟨?_, ?_, ?_⟩
  · have hpast := h.past
    rw [List.length_append]
    omega
  · rw [htake]
    exact h.ready
  · rw [htake]
    exact h.dst

/-- All sends have gone to the owners of the time, and GVT has passed what has been applied. -/
structure RouteInv (s : Simulation Q σ) : Prop where
  owners : ∀ entity, OwnerInv entity s
  ready : ∀ entity, ∀ mig ∈ applied entity s.hist.migrations, mig.effectiveTs ≤ s.lastGvt
  sends : ∀ r ∈ s.hist.sends, r.Routed s.hist.migrations

/-! ## What a move sends -/

/-- A send that is about to be recorded. -/
structure SendRecord.Fresh (s : Simulation Q σ) (r : SendRecord) : Prop where
  gvt : r.gvt = s.lastGvt
  migrations : r.migrations = s.hist.migrations.length
  owned : r.asked.target ≠ 0 → r.ev.dst = (s.entityOwner r.asked.target).getD r.asked.dst

theorem Move.sends_cases (hdir : cfg.directoryForEntity = none) {x y : Situation Q σ}
    (h : Move model cfg x y) :
    y.state.hist.sends = x.state.hist.sends ∨
      ∃ r : SendRecord, y.state.hist.sends = x.state.hist.sends ++ [r] ∧ r.Fresh x.state := by
  cases h with
  | quiet hq => rw [hq]; exact Or.inl rfl
  | receive => rw [receiveEvent_eq]; exact Or.inl rfl
  | acknowledge => rw [receiveAck_eq]; exact Or.inl rfl
  | straggle => rw [unwound_eq]; exact Or.inl rfl
  | matched => rw [unwound_eq]; exact Or.inl rfl
  | release => rw [released_eq]; exact Or.inl rfl
  | sent _ hst =>
      refine Or.inr ⟨_, congrArg History.sends (posted_hist ..), rfl, rfl, fun htarget => ?_⟩
      exact (stampColor_dst ..).trans (hst.owned hdir htarget)
  | unlogged _ hst =>
      refine Or.inr ⟨_, congrArg History.sends (posted_hist ..), rfl, rfl, fun htarget => ?_⟩
      exact (stampColor_dst ..).trans (hst.owned hdir htarget)
  | annul =>
      refine Or.inr ⟨_, congrArg History.sends (posted_hist ..), rfl, rfl, fun htarget => ?_⟩
      exact absurd rfl htarget
  | _ => exact Or.inl rfl

/-! ## The invariant over a run -/

theorem RouteInv.fresh {s : Simulation Q σ} (h : RouteInv s) {r : SendRecord} (hr : r.Fresh s) :
    r.Routed s.hist.migrations := by
  have htake : s.hist.migrations.take r.migrations = s.hist.migrations := by
    rw [hr.migrations, List.take_length]
  refine ⟨hr.migrations.le, ?_, fun htarget => ?_⟩
  · rw [htake, hr.gvt]
    exact h.ready
  · rw [htake, ← (h.owners r.asked.target).owner]
    exact hr.owned htarget

theorem Move.ready {x y : Situation Q σ} (hm : Move model cfg x y)
    (h : ∀ entity, ∀ mig ∈ applied entity x.state.hist.migrations, mig.effectiveTs ≤ x.state.lastGvt) :
    ∀ entity, ∀ mig ∈ applied entity y.state.hist.migrations, mig.effectiveTs ≤ x.state.lastGvt := by
  cases hm with
  | quiet hq => rw [hq]; exact h
  | receive => rw [receiveEvent_eq]; exact h
  | acknowledge => rw [receiveAck_eq]; exact h
  | sent => rw [posted_eq]; exact h
  | unlogged => rw [posted_eq]; exact h
  | straggle => rw [unwound_eq]; exact h
  | matched => rw [unwound_eq]; exact h
  | release => rw [released_eq]; exact h
  | annul => rw [posted_eq]; exact h
  | @queueMigration s mig =>
      intro entity m hm
      change m ∈ applied entity (s.hist.migrations ++ [.arrived mig]) at hm
      rw [applied_append, applied_arrived, List.append_nil] at hm
      exact h entity m hm
  | @migrate s mig rest _ hready =>
      intro entity m hm
      change m ∈ applied entity (s.hist.migrations ++ [.applied mig _ _]) at hm
      rw [applied_append, applied_applied, List.mem_append] at hm
      rcases hm with hm | hm
      · exact h entity m hm
      · split at hm
        · rw [List.mem_singleton.mp hm]
          exact not_lt.mp hready
        · cases hm
  | _ => exact h

theorem Move.routeInv (hdir : cfg.directoryForEntity = none) {x y : Situation Q σ}
    (hm : Move model cfg x y) (h : RouteInv x.state) : RouteInv y.state := by
  obtain ⟨more, hmore⟩ := hm.extends.migrations
  refine ⟨fun entity => hm.migrationCase.ownerInv (h.owners entity), ?_, fun r hr => ?_⟩
  · rw [hm.lastGvt_eq]
    exact hm.ready h.ready
  · rw [← hmore]
    rcases hm.sends_cases hdir with hsends | ⟨r', hsends, hfresh⟩
    · rw [hsends] at hr
      exact (h.sends r hr).append more
    · rw [hsends] at hr
      rcases mem_append_singleton hr with hr | rfl
      · exact (h.sends r hr).append more
      · exact (h.fresh hfresh).append more

theorem GvtMove.routeInv {x y : Situation Q σ} (hm : GvtMove sound final cfg x y)
    (h : RouteInv x.state) : RouteInv y.state := by
  refine ⟨fun entity => (h.owners entity).same hm.sameMigrations, ?_, ?_⟩
  · cases hm with
    | advance _ hle => exact fun entity mig hmig => (h.ready entity mig hmig).trans hle
    | _ => exact h.ready
  · cases hm <;> exact h.sends

theorem AllMoves.routeInv (hdir : cfg.directoryForEntity = none) {x y : Situation Q σ}
    (h : AllMoves sound final model cfg x y) (hx : RouteInv x.state) : RouteInv y.state := by
  induction h with
  | refl => exact hx
  | tail _ hm ih => exact hm.elim (fun hm => hm.routeInv hdir ih) fun hm => hm.routeInv ih

theorem routeInv_create : RouteInv (Simulation.create Q model) :=
  { owners := fun _ => ownerInv_create
    ready := fun _ _ h => by cases h
    sends := fun _ h => by cases h }

/-! ## The cutover -/

/-- Of the events sent for an entity, a migration of it takes over those sent after it has been
applied. They are not before its effective time, and only the new owner executes them. -/
inductive Cutover (mig : Migration) (s : Simulation Q σ) (r : SendRecord) : Prop where
  | before : applied mig.entity (s.hist.migrations.take r.migrations) = [] →
      r.ev.dst = r.asked.dst → Cutover mig s r
  | after : applied mig.entity (s.hist.migrations.take r.migrations) = [mig] →
      r.ev.dst = mig.newOwner → mig.effectiveTs ≤ r.ev.ts →
      (∀ id, ∀ rec ∈ (s.ctx id).executed, rec.ev = r.ev → id = mig.newOwner) → Cutover mig s r

/-- A single migration of an entity is a clean cutover of the sends at the time it is applied, and
no event from before its effective time is redirected. -/
theorem cutover_of_sends {allowed : Simulation Q σ → HostOp → Prop} {s : Simulation Q σ}
    (h : Reachable model cfg allowed s) (hsound : ∀ s op, allowed s op → op.SoundReduction cfg)
    (hcovered : Covered s.hist) (hdir : cfg.directoryForEntity = none) {mig : Migration}
    (hentity : mig.entity ≠ 0) (honly : applied mig.entity s.hist.migrations = [mig]) :
    ∀ r ∈ s.hist.sends, r.asked.target = mig.entity → Cutover mig s r := by
  intro r hr htarget
  have hmoves : AllMoves True True model cfg (Simulation.create Q model).atRest s.atRest :=
    h.moves fun _ => hsound
  have hroute : RouteInv s := AllMoves.routeInv hdir hmoves routeInv_create
  have hbooks : BooksInv s.atRest := AllMoves.booksInv hmoves booksInv_create
  have hbound : r.gvt ≤ r.ev.ts := (h.boundInv hsound hcovered).sends r hr
  have hrouted := hroute.sends r hr
  have hdst := hrouted.dst (htarget ▸ hentity)
  rw [htarget] at hdst
  have hpre : applied mig.entity (s.hist.migrations.take r.migrations) <+: [] ++ [mig] :=
    honly ▸ (List.take_prefix _ _).filterMap _
  rcases List.prefix_concat_iff.mp hpre with hone | hnone
  rotate_left
  · have hnone := List.prefix_nil.mp hnone
    refine .before hnone ?_
    rw [hdst, ownerAfter, hnone]
    rfl
  · have howner : r.ev.dst = mig.newOwner := by
      rw [hdst, ownerAfter, hone]
      rfl
    refine .after hone howner ?_ fun id rec hrec heq => ?_
    · exact (hrouted.ready mig.entity mig (by rw [hone]; simp)).trans hbound
    · rw [← (hbooks.ledger id).filed rec hrec, heq]
      exact howner

/-- The migration of entity 7 to the second LP. -/
def handOver : Migration := { entity := 7, newOwner := 2, effectiveTs := ⟨20, 1⟩ }

/-- An event for entity 7, sent by the first LP to itself. -/
def visitAt (time : UInt64) : Event := { ts := ⟨time, 1⟩, src := 1, dst := 1, target := 7 }

/-- One event is sent before the migration is applied, and one after. -/
def aroundHandOver : List HostOp :=
  twoLps ++ [.send (visitAt 40), arrive handOver] ++ advancePast ++
    [.send (visitAt 50), .runOne {} true, .runOne {} true]

theorem cutover_of_sends_aroundHandOver :
    ((journalRun {} aroundHandOver).hist.sends.filter (·.asked.target = 7)).Forall
      (Cutover handOver (journalRun {} aroundHandOver)) := by
  have hreach := reachable_journalRun {} aroundHandOver
  have htimely : Timely (journalRun {} aroundHandOver).hist := ⟨by decide +kernel, by decide +kernel⟩
  have honly : applied handOver.entity (journalRun {} aroundHandOver).hist.migrations = [handOver] := by
    decide +kernel
  apply List.forall_iff_forall_mem.mpr
  intro r hr
  obtain ⟨hmem, htarget⟩ := List.mem_filter.mp hr
  exact cutover_of_sends hreach (fun _ op _ => op.soundReduction_of_alone rfl rfl)
    ((hreach.noDeferral rfl).covered htimely) rfl (by decide) honly r hmem
    (of_decide_eq_true htarget)

/-- A call of `send` by a handler is for a time not before the event it handles. -/
def SendRecord.Causal (r : SendRecord) : Prop :=
  match r.cause with
  | .handler _ execTs => execTs ≤ r.ev.ts
  | _ => True

instance : DecidablePred SendRecord.Causal
  | ⟨.host, _, _, _, _, _⟩ => isTrue trivial
  | ⟨.handler _ execTs, _, ev, _, _, _⟩ => inferInstanceAs (Decidable (execTs ≤ ev.ts))
  | ⟨.start _, _, _, _, _, _⟩ => isTrue trivial
  | ⟨.notification, _, _, _, _, _⟩ => isTrue trivial
  | ⟨.rollback _, _, _, _, _, _⟩ => isTrue trivial

/-- An LP that creates its entity without saving its state before, and passes on a visit. -/
def squatter : LogicalProcess Bool where
  init := false
  onEvent installed ev :=
    if ev.payload.kind = 42002 then .done true
    else if ev.target = 7 then
      if installed then .send { ts := ⟨6, 1⟩, src := 1, dst := 1, target := 8 } fun _ => .done installed
      else .throw installed "World: unknown EntityId=7"
    else .done installed
  saveState installed := [if installed then 1 else 0]
  loadState _ bytes := bytes = [1]

/-- The event at 5 is deferred, and GVT passes the migration of the other entity to the second LP
before the install. -/
def squatterRun : Simulation sortedEventQueue Bool :=
  hostRun (fun _ => squatter) bufferingConfig
    (twoLps ++ [.schedule (useAt 5), .schedule (installAt 40), arrive { handOver with entity := 8 }] ++
      List.replicate 6 (.runOne {} true)) (Simulation.create _ fun _ => squatter)

theorem reachable_squatterRun :
    Reachable (fun _ => squatter) bufferingConfig (fun _ _ => True) squatterRun :=
  Reachable.hostRun .create (obeys_true _ _)

/-- The first LP executes an event for the entity that was sent to it before the migration was
applied; an event that the host sends behind GVT goes to the new owner; and so does one that a
handler sends when it comes to a deferred event behind GVT. -/
theorem cutover_leaves_queued :
    (∃ s : Simulation sortedEventQueue ByteBuffer,
      Reachable (fun _ => journal) {} (fun _ _ => True) s ∧ (∀ r ∈ s.hist.sends, r.Causal) ∧
        applied 7 s.hist.migrations = [handOver] ∧
        ∃ rec ∈ (s.ctx 1).executed, rec ∉ (s.ctx 1).undone ∧ rec.ev.target = 7 ∧
          handOver.effectiveTs ≤ rec.ev.ts) ∧
    (∃ s : Simulation sortedEventQueue ByteBuffer,
      Reachable (fun _ => journal) {} (fun _ _ => True) s ∧ (∀ r ∈ s.hist.sends, r.Causal) ∧
        applied 7 s.hist.migrations = [handOver] ∧
        ∃ r ∈ s.hist.sends, r.asked.target = 7 ∧ r.ev.ts < handOver.effectiveTs ∧
          r.asked.dst ≠ 2 ∧ r.ev.dst = 2) ∧
    ∃ s : Simulation sortedEventQueue Bool,
      Reachable (fun _ => squatter) bufferingConfig (fun _ _ => True) s ∧ Timely s.hist ∧
        applied 8 s.hist.migrations = [{ handOver with entity := 8 }] ∧
        ∃ r ∈ s.hist.sends, r.asked.target = 8 ∧ r.ev.ts < handOver.effectiveTs ∧
          r.asked.dst ≠ 2 ∧ r.ev.dst = 2 := by
  refine ⟨⟨_, reachable_journalRun {} aroundHandOver, ?_⟩,
    ⟨_, reachable_journalRun {} (twoLps ++ [arrive handOver] ++ advancePast ++ [.send (visitAt 10)]), ?_⟩,
    ⟨_, reachable_squatterRun, ⟨?_, ?_⟩, ?_⟩⟩
  all_goals decide +kernel

end WarpSim

import WarpSim.Verification.Runs

/-! # Who owns a migrated entity

Migrations wait in the order of their effective times. One that arrives when a later one has
already been applied is applied after it all the same. -/

namespace WarpSim

variable {Q : EventQueue} {σ : Type} {sound final : Prop} {model : Model σ} {cfg : SimulationConfig}

open Simulation

/-! ## The log of migrations -/

/-- The migrations of an entity that have arrived, in that order. -/
def arrivals (entity : EntityId) (log : List MigrationStep) : List Migration :=
  log.filterMap fun
    | .arrived mig => if mig.entity = entity then some mig else none
    | .applied .. => none

/-- The migrations of an entity that have been applied, in that order. -/
def applied (entity : EntityId) (log : List MigrationStep) : List Migration :=
  log.filterMap fun
    | .arrived _ => none
    | .applied mig _ _ => if mig.entity = entity then some mig else none

/-- The owner that the last applied migration of an entity has named. -/
def ownerAfter (entity : EntityId) (log : List MigrationStep) : Option LPId :=
  (applied entity log).getLast?.map (·.newOwner)

/-- No migration of the entity arrives when a later one has been applied, unless it names the owner
in place. -/
def Orderly (entity : EntityId) (log : List MigrationStep) : Prop :=
  ∀ before mig after, log = before ++ .arrived mig :: after → mig.entity = entity →
    ∀ m ∈ applied entity before, mig.effectiveTs < m.effectiveTs →
      ownerAfter entity before = some mig.newOwner

variable {entity : EntityId} {log : List MigrationStep}

@[simp] theorem arrivals_append (log log' : List MigrationStep) :
    arrivals entity (log ++ log') = arrivals entity log ++ arrivals entity log' :=
  List.filterMap_append

@[simp] theorem applied_append (log log' : List MigrationStep) :
    applied entity (log ++ log') = applied entity log ++ applied entity log' :=
  List.filterMap_append

@[simp] theorem arrivals_arrived (mig : Migration) :
    arrivals entity [.arrived mig] = if mig.entity = entity then [mig] else [] := by
  by_cases h : mig.entity = entity <;> simp [arrivals, h]

@[simp] theorem arrivals_applied (mig : Migration) (n k : ℕ) : arrivals entity [.applied mig n k] = [] := rfl

@[simp] theorem applied_arrived (mig : Migration) : applied entity [.arrived mig] = [] := rfl

@[simp] theorem applied_applied (mig : Migration) (n k : ℕ) :
    applied entity [.applied mig n k] = if mig.entity = entity then [mig] else [] := by
  by_cases h : mig.entity = entity <;> simp [applied, h]

@[simp] theorem ownerAfter_arrived (mig : Migration) :
    ownerAfter entity (log ++ [.arrived mig]) = ownerAfter entity log := by
  simp [ownerAfter]

theorem ownerAfter_applied (mig : Migration) (n k : ℕ) :
    ownerAfter entity (log ++ [.applied mig n k]) =
      if mig.entity = entity then some mig.newOwner else ownerAfter entity log := by
  by_cases h : mig.entity = entity <;> simp [ownerAfter, h]

theorem Orderly.of_append {log' : List MigrationStep} (h : Orderly entity (log ++ log')) :
    Orderly entity log := by
  rintro before mig after rfl
  exact h before mig (after ++ log') (by simp)

theorem Orderly.arrived {mig : Migration} (h : Orderly entity (log ++ [.arrived mig]))
    (hentity : mig.entity = entity) :
    ∀ m ∈ applied entity log, mig.effectiveTs < m.effectiveTs → ownerAfter entity log = some mig.newOwner :=
  h log mig [] rfl hentity

/-- The migrations of an entity that have arrived are effective at different times. -/
def Distinct (entity : EntityId) (log : List MigrationStep) : Prop :=
  ((arrivals entity log).map (·.effectiveTs)).Nodup

instance : Decidable (Distinct entity log) :=
  inferInstanceAs (Decidable ((arrivals entity log).map (·.effectiveTs)).Nodup)

theorem Distinct.of_append {log' : List MigrationStep} (h : Distinct entity (log ++ log')) :
    Distinct entity log := by
  unfold Distinct at *
  rw [arrivals_append, List.map_append] at h
  exact h.of_append_left

/-! ## The queue of migrations -/

/-- A queue is in the order of the effective times. -/
def InTurn (queue : List Migration) : Prop :=
  queue.Pairwise fun a b => a.effectiveTs ≤ b.effectiveTs

/-- The migrations of an entity in a queue. -/
def queued (entity : EntityId) (queue : List Migration) : List Migration :=
  queue.filter (·.entity = entity)

theorem queueMigration_perm (mig : Migration) (s : Simulation Q σ) :
    (queueMigration mig s).pendingMigrations.Perm (mig :: s.pendingMigrations) := by
  have hsplit := List.takeWhile_append_dropWhile
    (p := fun m : Migration => decide ¬ mig.effectiveTs < m.effectiveTs) (l := s.pendingMigrations)
  calc (queueMigration mig s).pendingMigrations
      |>.Perm (mig :: (s.pendingMigrations.takeWhile (fun m => ¬ mig.effectiveTs < m.effectiveTs) ++
          s.pendingMigrations.dropWhile fun m => ¬ mig.effectiveTs < m.effectiveTs)) :=
        List.perm_middle
    _ = mig :: s.pendingMigrations := by rw [hsplit]

theorem inTurn_queueMigration (mig : Migration) {s : Simulation Q σ} (h : InTurn s.pendingMigrations) :
    InTurn (queueMigration mig s).pendingMigrations := by
  have hbefore : ∀ a ∈ s.pendingMigrations.takeWhile fun m => ¬ mig.effectiveTs < m.effectiveTs,
      a.effectiveTs ≤ mig.effectiveTs := by
    intro a ha
    have := List.mem_takeWhile_imp ha
    simpa using this
  have hafter : ∀ b ∈ s.pendingMigrations.dropWhile fun m => ¬ mig.effectiveTs < m.effectiveTs,
      mig.effectiveTs ≤ b.effectiveTs := by
    have hturn := h.sublist (List.dropWhile_sublist fun m => ¬ mig.effectiveTs < m.effectiveTs)
    have hhead := List.head?_dropWhile_not (fun m => decide ¬ mig.effectiveTs < m.effectiveTs)
      s.pendingMigrations
    generalize s.pendingMigrations.dropWhile _ = late at hturn hhead
    intro b hb
    cases late with
    | nil => cases hb
    | cons first rest =>
        have hfirst : mig.effectiveTs < first.effectiveTs := by simpa using hhead
        rcases List.mem_cons.mp hb with rfl | hb
        · exact hfirst.le
        · exact hfirst.le.trans (List.rel_of_pairwise_cons hturn hb)
  unfold InTurn queueMigration
  dsimp only
  rw [List.pairwise_append]
  refine ⟨h.sublist (List.takeWhile_sublist _), List.pairwise_cons.mpr ⟨hafter, h.sublist (List.dropWhile_sublist _)⟩, ?_⟩
  intro a ha b hb
  rcases List.mem_cons.mp hb with rfl | hb
  · exact hbefore a ha
  · exact (hbefore a ha).trans (hafter b hb)

/-! ## What a move does to migrations -/

/-- The migrations waiting, the owners and the log are as they were. -/
structure SameMigrations (s s' : Simulation Q σ) : Prop where
  pending : s'.pendingMigrations = s.pendingMigrations
  owner : s'.entityOwner = s.entityOwner
  log : s'.hist.migrations = s.hist.migrations

/-- The first migration waiting names the owner of its entity. -/
def assigned (mig : Migration) (rest : List Migration) (s : Simulation Q σ) : Simulation Q σ :=
  let c := s.ctx mig.newOwner
  recordMigration (.applied mig c.executed.length c.undone.length) { s with
    pendingMigrations := rest
    entityOwner := Function.update s.entityOwner mig.entity mig.newOwner }

/-- What a move can do to migrations. -/
inductive MigrationCase (s s' : Simulation Q σ) : Prop where
  | same : SameMigrations s s' → MigrationCase s s'
  | arrived (mig) : SameMigrations (recordMigration (.arrived mig) (queueMigration mig s)) s' →
      MigrationCase s s'
  | applied (mig rest) : s.pendingMigrations = mig :: rest → SameMigrations (assigned mig rest s) s' →
      MigrationCase s s'
  | dropped (mig rest) : s.pendingMigrations = mig :: rest →
      SameMigrations { s with pendingMigrations := rest } s' → MigrationCase s s'

theorem Move.migrationCase {x y : Situation Q σ} (h : Move model cfg x y) :
    MigrationCase x.state y.state := by
  cases h with
  | quiet hq => rw [hq]; exact .same ⟨rfl, rfl, rfl⟩
  | receive => rw [receiveEvent_eq]; exact .same ⟨rfl, rfl, rfl⟩
  | acknowledge => rw [receiveAck_eq]; exact .same ⟨rfl, rfl, rfl⟩
  | sent => rw [posted_eq]; exact .same ⟨rfl, rfl, rfl⟩
  | unlogged => rw [posted_eq]; exact .same ⟨rfl, rfl, rfl⟩
  | straggle => rw [unwound_eq]; exact .same ⟨rfl, rfl, rfl⟩
  | matched => rw [unwound_eq]; exact .same ⟨rfl, rfl, rfl⟩
  | release => rw [released_eq]; exact .same ⟨rfl, rfl, rfl⟩
  | annul => rw [posted_eq]; exact .same ⟨rfl, rfl, rfl⟩
  | queueMigration => exact .arrived _ ⟨rfl, rfl, rfl⟩
  | migrate hqueue => exact .applied _ _ hqueue ⟨rfl, rfl, rfl⟩
  | misplace hqueue => exact .dropped _ _ hqueue ⟨rfl, rfl, rfl⟩
  | _ => exact .same ⟨rfl, rfl, rfl⟩

theorem GvtMove.sameMigrations {x y : Situation Q σ} (h : GvtMove sound final cfg x y) :
    SameMigrations x.state y.state := by
  cases h <;> exact ⟨rfl, rfl, rfl⟩

/-! ## The invariant -/

/-- The owner of an entity is the one its last applied migration names. While its migrations arrive
in order, that is the latest one applied, or one that names the same owner. -/
structure OwnerInv (entity : EntityId) (s : Simulation Q σ) : Prop where
  inTurn : InTurn s.pendingMigrations
  owner : s.entityOwner entity = ownerAfter entity s.hist.migrations
  accounted : (queued entity s.pendingMigrations + applied entity s.hist.migrations : Multiset Migration) ≤
    arrivals entity s.hist.migrations
  latest : Orderly entity s.hist.migrations → Distinct entity s.hist.migrations →
    ∀ last ∈ applied entity s.hist.migrations,
      (∀ m ∈ applied entity s.hist.migrations, m.effectiveTs ≤ last.effectiveTs) →
      s.entityOwner entity = some last.newOwner
  late : Orderly entity s.hist.migrations →
    ∀ mig ∈ queued entity s.pendingMigrations, ∀ m ∈ applied entity s.hist.migrations,
      mig.effectiveTs < m.effectiveTs → s.entityOwner entity = some mig.newOwner

theorem OwnerInv.same {s s' : Simulation Q σ} (h : OwnerInv entity s) (hs : SameMigrations s s') :
    OwnerInv entity s' := by
  have hpending := hs.pending
  have howner := hs.owner
  have hlog := hs.log
  refine ⟨?_, ?_, ?_, ?_, ?_⟩
  · rw [hpending]; exact h.inTurn
  · rw [howner, hlog]; exact h.owner
  · rw [hpending, hlog]; exact h.accounted
  · rw [howner, hlog]; exact h.latest
  · rw [hpending, howner, hlog]; exact h.late

theorem mem_queued {queue : List Migration} {mig : Migration} :
    mig ∈ queued entity queue ↔ mig ∈ queue ∧ mig.entity = entity := by
  simp [queued]

theorem queued_cons (mig : Migration) (queue : List Migration) :
    (queued entity (mig :: queue) : Multiset Migration) = queued entity [mig] + queued entity queue := by
  by_cases h : mig.entity = entity <;> simp [queued, h]

theorem queued_singleton (mig : Migration) :
    queued entity [mig] = if mig.entity = entity then [mig] else [] := by
  by_cases h : mig.entity = entity <;> simp [queued, h]

theorem OwnerInv.arrived {s : Simulation Q σ} (h : OwnerInv entity s) (mig : Migration) :
    OwnerInv entity (recordMigration (.arrived mig) (queueMigration mig s)) := by
  have hperm := queueMigration_perm mig s
  have hlog : (recordMigration (.arrived mig) (queueMigration mig s)).hist.migrations =
      s.hist.migrations ++ [.arrived mig] := rfl
  have happlied : applied entity (s.hist.migrations ++ [.arrived mig]) =
      applied entity s.hist.migrations := by simp
  refine ⟨inTurn_queueMigration mig h.inTurn, ?_, ?_, ?_, ?_⟩
  all_goals rw [hlog]
  · rw [ownerAfter_arrived]
    exact h.owner
  · have hqueued : (queued entity (queueMigration mig s).pendingMigrations : Multiset Migration) =
        queued entity [mig] + queued entity s.pendingMigrations := by
      rw [← queued_cons]
      exact Multiset.coe_eq_coe.mpr (hperm.filter _)
    have hmore := add_le_add_left h.accounted (queued entity [mig] : Multiset Migration)
    rw [happlied, arrivals_append, arrivals_arrived, ← queued_singleton, ← Multiset.coe_add]
    change (queued entity (queueMigration mig s).pendingMigrations : Multiset Migration) + _ ≤ _
    rw [hqueued, add_assoc, add_comm]
    exact hmore
  · rw [happlied]
    intro ho hd
    exact h.latest ho.of_append hd.of_append
  · rw [happlied]
    intro ho late hlate m hm hlt
    obtain ⟨hmem, hentity⟩ := mem_queued.mp hlate
    rcases List.mem_cons.mp (hperm.subset hmem) with rfl | hmem
    · exact h.owner.trans (ho.arrived hentity m hm hlt)
    · exact h.late ho.of_append late (mem_queued.mpr ⟨hmem, hentity⟩) m hm hlt

/-- The effective times of what waits differ from those of what has been applied. -/
theorem OwnerInv.effectiveTs_ne {s : Simulation Q σ} (h : OwnerInv entity s)
    (hd : Distinct entity s.hist.migrations) {mig m : Migration}
    (hmig : mig ∈ queued entity s.pendingMigrations) (hm : m ∈ applied entity s.hist.migrations) :
    mig.effectiveTs ≠ m.effectiveTs := by
  have hle := Multiset.map_le_map (f := Migration.effectiveTs) h.accounted
  rw [Multiset.coe_add, Multiset.map_coe, Multiset.map_coe, List.map_append] at hle
  have hnodup := Multiset.nodup_of_le hle (Multiset.coe_nodup.mpr hd)
  have hdisjoint := (List.nodup_append.mp (Multiset.coe_nodup.mp hnodup)).2.2
  exact hdisjoint _ (List.mem_map_of_mem hmig) _ (List.mem_map_of_mem hm)

/-- A migration of the entity is applied. -/
theorem OwnerInv.applied_self {s : Simulation Q σ} (h : OwnerInv entity s) {mig : Migration}
    {rest : List Migration} (hqueue : s.pendingMigrations = mig :: rest) (hentity : mig.entity = entity) :
    OwnerInv entity (assigned mig rest s) := by
  have hturn := h.inTurn
  rw [hqueue] at hturn
  have hfirst : mig ∈ queued entity s.pendingMigrations := by simp [queued, hqueue, hentity]
  have hrest : ∀ m ∈ queued entity rest, m ∈ queued entity s.pendingMigrations := by
    intro m hm
    rw [hqueue]
    exact mem_queued.mpr ⟨List.mem_cons_of_mem _ (mem_queued.mp hm).1, (mem_queued.mp hm).2⟩
  obtain ⟨n, k, hlog⟩ : ∃ n k, (assigned mig rest s).hist.migrations =
      s.hist.migrations ++ [.applied mig n k] := ⟨_, _, rfl⟩
  have happlied : applied entity (s.hist.migrations ++ [.applied mig n k]) =
      applied entity s.hist.migrations ++ [mig] := by simp [hentity]
  have harrivals : arrivals entity (s.hist.migrations ++ [.applied mig n k]) =
      arrivals entity s.hist.migrations := by simp
  have howner : (assigned mig rest s).entityOwner entity = some mig.newOwner := by
    rw [← hentity]
    exact Function.update_self ..
  refine ⟨List.Pairwise.of_cons hturn, ?_, ?_, ?_, ?_⟩
  all_goals rw [hlog]
  · rw [howner, ownerAfter_applied, if_pos hentity]
  · change (queued entity rest + _ : Multiset Migration) ≤ _
    have hold := h.accounted
    rw [hqueue, queued_cons, queued_singleton, if_pos hentity] at hold
    rw [happlied, harrivals, ← Multiset.coe_add, ← add_assoc, add_comm]
    rw [add_assoc] at hold
    exact hold
  · rw [happlied]
    intro ho hd last hlast hmax
    rcases List.mem_append.mp hlast with hold | hnew
    · have hne := h.effectiveTs_ne hd.of_append hfirst hold
      have hlt := lt_of_le_of_ne (hmax mig (by simp)) hne
      have hin := h.latest ho.of_append hd.of_append last hold fun m hm =>
        hmax m (List.mem_append_left _ hm)
      have hlate := h.late ho.of_append mig hfirst last hold hlt
      exact howner.trans (hlate.symm.trans hin)
    · rw [List.mem_singleton.mp hnew]
      exact howner
  · rw [happlied]
    intro ho late hlate m hm hlt
    have hle : mig.effectiveTs ≤ late.effectiveTs :=
      List.rel_of_pairwise_cons hturn (mem_queued.mp hlate).1
    rcases List.mem_append.mp hm with hold | hnew
    · have hfirst' := h.late ho.of_append mig hfirst m hold (hle.trans_lt hlt)
      have hlate' := h.late ho.of_append late (hrest late hlate) m hold hlt
      exact howner.trans (hfirst'.symm.trans hlate')
    · rw [List.mem_singleton.mp hnew] at hlt
      exact absurd hlt (not_lt.mpr hle)

/-- A migration of another entity is applied. -/
theorem OwnerInv.applied_other {s : Simulation Q σ} (h : OwnerInv entity s) {mig : Migration}
    {rest : List Migration} (hqueue : s.pendingMigrations = mig :: rest) (hentity : mig.entity ≠ entity) :
    OwnerInv entity (assigned mig rest s) := by
  have hturn := h.inTurn
  rw [hqueue] at hturn
  obtain ⟨n, k, hlog⟩ : ∃ n k, (assigned mig rest s).hist.migrations =
      s.hist.migrations ++ [.applied mig n k] := ⟨_, _, rfl⟩
  have happlied : applied entity (s.hist.migrations ++ [.applied mig n k]) =
      applied entity s.hist.migrations := by simp [hentity]
  have harrivals : arrivals entity (s.hist.migrations ++ [.applied mig n k]) =
      arrivals entity s.hist.migrations := by simp
  have hqueued : queued entity rest = queued entity s.pendingMigrations := by
    simp [queued, hqueue, hentity]
  have howner : (assigned mig rest s).entityOwner entity = s.entityOwner entity :=
    Function.update_of_ne (Ne.symm hentity) ..
  refine ⟨List.Pairwise.of_cons hturn, ?_, ?_, ?_, ?_⟩
  all_goals rw [hlog]
  · rw [howner, ownerAfter_applied, if_neg hentity]
    exact h.owner
  · change (queued entity rest + _ : Multiset Migration) ≤ _
    rw [happlied, harrivals, hqueued]
    exact h.accounted
  · rw [happlied, howner]
    exact fun ho hd => h.latest ho.of_append hd.of_append
  · change _ → ∀ mig ∈ queued entity rest, _
    rw [happlied, hqueued, howner]
    exact fun ho => h.late ho.of_append

/-- The first migration waiting has no owner to go to. -/
theorem OwnerInv.dropped {s : Simulation Q σ} (h : OwnerInv entity s) {mig : Migration}
    {rest : List Migration} (hqueue : s.pendingMigrations = mig :: rest) :
    OwnerInv entity { s with pendingMigrations := rest } := by
  have hturn := h.inTurn
  have haccounted := h.accounted
  rw [hqueue] at hturn haccounted
  refine ⟨List.Pairwise.of_cons hturn, h.owner, ?_, h.latest, fun ho late hlate => ?_⟩
  · rw [queued_cons, add_assoc] at haccounted
    exact (Multiset.le_add_left _ _).trans haccounted
  · obtain ⟨hmem, hentity⟩ := mem_queued.mp hlate
    exact h.late ho late (mem_queued.mpr ⟨hqueue ▸ List.mem_cons_of_mem _ hmem, hentity⟩)

theorem MigrationCase.ownerInv {s s' : Simulation Q σ} (hcase : MigrationCase s s')
    (h : OwnerInv entity s) : OwnerInv entity s' := by
  cases hcase with
  | same hs => exact h.same hs
  | arrived mig hs => exact (h.arrived mig).same hs
  | applied mig rest hqueue hs =>
      by_cases hentity : mig.entity = entity
      · exact (h.applied_self hqueue hentity).same hs
      · exact (h.applied_other hqueue hentity).same hs
  | dropped mig rest hqueue hs => exact (h.dropped hqueue).same hs

theorem AllMoves.ownerInv {x y : Situation Q σ} (h : AllMoves sound final model cfg x y)
    (hx : OwnerInv entity x.state) : OwnerInv entity y.state := by
  induction h with
  | refl => exact hx
  | tail _ hm ih => exact hm.elim (fun hm => hm.migrationCase.ownerInv ih) fun hm => ih.same hm.sameMigrations

theorem ownerInv_create : OwnerInv entity (Simulation.create Q model) :=
  { inTurn := List.Pairwise.nil
    owner := rfl
    accounted := le_refl _
    latest := fun _ _ _ h => by cases h
    late := fun _ _ h => by cases h }

/-! ## Runs -/

/-- Once all migrations of an entity have been applied, its owner is the one that the latest names,
if none of them arrived after a later one had been applied, except to name the owner in place. -/
theorem owner_of_latest {allowed : Simulation Q σ → HostOp → Prop} {s : Simulation Q σ}
    (h : Reachable model cfg allowed s) {entity : EntityId}
    (horderly : Orderly entity s.hist.migrations) (hdistinct : Distinct entity s.hist.migrations)
    (happlied : ∀ mig ∈ arrivals entity s.hist.migrations, mig ∈ applied entity s.hist.migrations)
    {last : Migration} (hlast : last ∈ arrivals entity s.hist.migrations)
    (hmax : ∀ mig ∈ arrivals entity s.hist.migrations, mig.effectiveTs ≤ last.effectiveTs) :
    s.entityOwner entity = some last.newOwner := by
  have hmoves : AllMoves False True model cfg (Simulation.create Q model).atRest s.atRest :=
    h.moves fun hfalse => hfalse.elim
  have hinv : OwnerInv entity s := hmoves.ownerInv ownerInv_create
  refine hinv.latest horderly hdistinct last (happlied last hlast) fun mig hmig => hmax mig ?_
  have hsub := Multiset.mem_of_le hinv.accounted (Multiset.mem_add.mpr (Or.inr (Multiset.mem_coe.mpr hmig)))
  exact Multiset.mem_coe.mp hsub

/-- Two LPs, with an event for each. -/
def twoLps : List HostOp :=
  [.addLp 1, .addLp 2, .schedule { ts := ⟨30, 1⟩, src := 9, dst := 1, uid := 1 },
    .schedule { ts := ⟨30, 1⟩, src := 9, dst := 2, uid := 2 }]

/-- GVT passes the time of the events of `twoLps`. -/
def advancePast : List HostOp := [.runOne {} true, .runOne {} true]

def toFirst : Migration := { entity := 7, newOwner := 1, effectiveTs := ⟨20, 1⟩ }

def toSecond : Migration := { entity := 7, newOwner := 2, effectiveTs := ⟨10, 1⟩ }

def arrive (mig : Migration) : HostOp := .pollTransport [.migration 0 0 mig]

/-- The state that `journal` LPs reach by the given operations. -/
def journalRun (cfg : SimulationConfig) (ops : List HostOp) : Simulation sortedEventQueue ByteBuffer :=
  hostRun (fun _ => journal) cfg ops (Simulation.create _ fun _ => journal)

theorem reachable_journalRun (cfg : SimulationConfig) (ops : List HostOp) :
    Reachable (fun _ => journal) cfg (fun _ _ => True) (journalRun cfg ops) :=
  Reachable.hostRun .create (obeys_true ops _)

/-- While both migrations wait, it does not matter in which order they came. -/
theorem owner_of_latest_reversed :
    (journalRun {} (twoLps ++ [arrive toFirst, arrive toSecond] ++ advancePast)).entityOwner 7 = some 1 := by
  have hlog : (journalRun {} (twoLps ++ [arrive toFirst, arrive toSecond] ++ advancePast)).hist.migrations =
      [.arrived toFirst, .arrived toSecond, .applied toSecond 1 0, .applied toFirst 1 0] := by decide +kernel
  have hlast : toFirst ∈ arrivals 7
      (journalRun {} (twoLps ++ [arrive toFirst, arrive toSecond] ++ advancePast)).hist.migrations := by
    rw [hlog]
    decide
  refine owner_of_latest (reachable_journalRun {} _) ?_ ?_ ?_ hlast ?_
  all_goals rw [hlog]
  · rintro (_ | ⟨first, _ | ⟨second, _ | ⟨third, _ | ⟨fourth, before⟩⟩⟩⟩) mig after h
    all_goals simp at h
    · simp [applied]
    · simp [applied, ← h.1]
  all_goals decide

/-- The migration effective at `⟨10, 1⟩` arrives when the one effective at `⟨20, 1⟩` has been applied,
and takes the entity away from its owner. -/
theorem owner_follows_arrival :
    ∃ s : Simulation sortedEventQueue ByteBuffer,
      Reachable (fun _ => journal) {} (fun _ _ => True) s ∧ Distinct 7 s.hist.migrations ∧
        (∀ mig ∈ arrivals 7 s.hist.migrations, mig ∈ applied 7 s.hist.migrations) ∧
        toFirst ∈ arrivals 7 s.hist.migrations ∧
        (∀ mig ∈ arrivals 7 s.hist.migrations, mig.effectiveTs ≤ toFirst.effectiveTs) ∧
        s.entityOwner 7 ≠ some toFirst.newOwner := by
  refine ⟨_, reachable_journalRun {} (twoLps ++ advancePast ++ [arrive toFirst, arrive toSecond]), ?_⟩
  have hlog : (journalRun {} (twoLps ++ advancePast ++ [arrive toFirst, arrive toSecond])).hist.migrations =
      [.arrived toFirst, .applied toFirst 1 0, .arrived toSecond, .applied toSecond 1 0] := by decide +kernel
  rw [hlog]
  refine ⟨?_, ?_, ?_, ?_, ?_⟩
  all_goals decide +kernel

end WarpSim

import WarpSim.Verification.Simulates

/-! # Host operations and runs

Every operation of the host on a kernel at rest is a sequence of moves that leaves it at rest. -/

namespace WarpSim

variable {Q : EventQueue} {σ : Type} {sound final : Prop} {model : Model σ} {cfg : SimulationConfig}

open Prog Simulation

/-! ## What holds before the start -/

/-- Before the LPs are started nothing has been executed and GVT is at the first stamp. -/
structure BaseInv (x : Situation Q σ) : Prop where
  started : x.state.started = false →
    x.activity = .idle ∧ x.state.lastGvt = ⟨0, 0⟩ ∧ ∀ id, (x.state.ctx id).executed = []

theorem Move.lastGvt_eq {x y : Situation Q σ} (h : Move model cfg x y) :
    y.state.lastGvt = x.state.lastGvt := by
  cases h with
  | quiet hq => rw [hq]
  | receive => rw [receiveEvent_eq]
  | acknowledge => rw [receiveAck_eq]
  | sent => rw [posted_eq]; rfl
  | unlogged => rw [posted_eq]; rfl
  | straggle => rw [unwound_eq]
  | matched => rw [unwound_eq]
  | release => rw [released_eq]
  | annul => rw [posted_eq]; rfl
  | _ => rfl

theorem Move.started_mono {x y : Situation Q σ} (h : Move model cfg x y)
    (hx : x.state.started = true) : y.state.started = true := by
  cases h with
  | quiet hq => rw [hq]; exact hx
  | start => rfl
  | receive => rw [receiveEvent_eq]; exact hx
  | acknowledge => rw [receiveAck_eq]; exact hx
  | sent => rw [posted_eq]; exact hx
  | unlogged => rw [posted_eq]; exact hx
  | straggle => rw [unwound_eq]; exact hx
  | matched => rw [unwound_eq]; exact hx
  | release => rw [released_eq]; exact hx
  | annul => rw [posted_eq]; exact hx
  | _ => exact hx

theorem Moves.lastGvt_eq {x y : Situation Q σ} (h : Moves model cfg x y) :
    y.state.lastGvt = x.state.lastGvt := by
  induction h with
  | refl => rfl
  | tail _ hm ih => exact hm.lastGvt_eq.trans ih

theorem GvtMove.started_mono {x y : Situation Q σ} (h : GvtMove sound final cfg x y)
    (hx : x.state.started = true) : y.state.started = true := by
  cases h <;> exact hx

theorem Moves.started_mono {x y : Situation Q σ} (h : Moves model cfg x y)
    (hx : x.state.started = true) : y.state.started = true := by
  induction h with
  | refl => exact hx
  | tail _ hm ih => exact hm.started_mono ih

theorem AllMoves.started_mono {x y : Situation Q σ} (h : AllMoves sound final model cfg x y)
    (hx : x.state.started = true) : y.state.started = true := by
  induction h with
  | refl => exact hx
  | tail _ hm ih => exact hm.elim (fun hm => hm.started_mono ih) fun hm => hm.started_mono ih

/-- While nothing has started, a move executes nothing. -/
theorem Move.baseInv {x y : Situation Q σ} (h : Move model cfg x y) (hx : BaseInv x) :
    BaseInv y := by
  have hs := hx.started
  have hbusy : ∀ {P : Prop}, x.activity ≠ .idle → x.state.started = false → P :=
    fun hne h => absurd (hs h).1 hne
  cases h with
  | quiet hq => rw [hq]; exact ⟨hs⟩
  | @register s id hid =>
      refine ⟨fun h => ⟨rfl, (hs h).2.1, fun i => ?_⟩⟩
      by_cases hi : i = id
      · subst hi
        simp
      · simpa [hi] using (hs h).2.2 i
  | start => exact ⟨fun h => absurd h (by simp)⟩
  | @prepare s id state =>
      refine ⟨fun h => ⟨rfl, (hs h).2.1, fun i => ?_⟩⟩
      exact (modifyCtx_proj (·.executed) (f := fun c => { c with lp := state }) (fun _ => rfl)
        s id i).trans ((hs h).2.2 i)
  | receive => rw [receiveEvent_eq]; exact ⟨hs⟩
  | acknowledge => rw [receiveAck_eq]; exact ⟨hs⟩
  | queueMigration => exact ⟨hs⟩
  | @migrate s mig rest =>
      refine ⟨fun h => ⟨rfl, (hs h).2.1, fun i => ?_⟩⟩
      exact (modifyCtx_proj (·.executed) (f := fun c => { c with
        lp := (model mig.newOwner).onMigration (s.ctx mig.newOwner).lp mig.entity mig.state })
        (fun _ => rfl) s mig.newOwner i).trans ((hs h).2.2 i)
  | misplace => exact ⟨hs⟩
  | @sent a s cause asked ev u n k w =>
      rw [posted_eq]
      refine ⟨fun h => ?_⟩
      obtain ⟨rfl, hg, hall⟩ := hs h
      refine ⟨rfl, hg, fun i => ?_⟩
      exact (sameWork_logged _ _ i).executed.trans
        ((sameWork_renumber asked.src u n k w s i).executed.trans (hall i))
  | @unlogged a s cause asked ev u n k w =>
      rw [posted_eq]
      refine ⟨fun h => ?_⟩
      obtain ⟨rfl, hg, hall⟩ := hs h
      exact ⟨rfl, hg, fun i => (sameWork_renumber asked.src u n k w s i).executed.trans (hall i)⟩
  | @refused a s asked u n k w =>
      refine ⟨fun h => ?_⟩
      obtain ⟨rfl, hg, hall⟩ := hs h
      exact ⟨rfl, hg, fun i => (sameWork_renumber asked.src u n k w s i).executed.trans (hall i)⟩
  | pop hstart => exact ⟨fun h => absurd (hstart.symm.trans h) (by simp)⟩
  | straggle => rw [unwound_eq]; exact ⟨hbusy nofun⟩
  | matched => rw [unwound_eq]; exact ⟨hbusy nofun⟩
  | release => rw [released_eq]; exact ⟨hs⟩
  | @annul a id log owed s ev u n k w =>
      rw [posted_eq]
      refine ⟨fun h => ?_⟩
      obtain ⟨rfl, hg, hall⟩ := hs h
      refine ⟨rfl, hg, fun i => ?_⟩
      exact (sameWork_dropLast id _ i).executed.trans
        ((sameWork_renumber id u n k w s i).executed.trans (hall i))
  | stuck hhand =>
      refine ⟨hbusy fun hidle => ?_⟩
      dsimp only at hidle
      rw [hidle] at hhand
      cases hhand
  | lose => exact ⟨hbusy nofun⟩
  | schedule => exact ⟨hs⟩
  | discard => exact ⟨hs⟩
  | requeue => exact ⟨hbusy nofun⟩
  | enter => exact ⟨hbusy nofun⟩
  | store => exact ⟨hbusy nofun⟩
  | finish => exact ⟨hbusy nofun⟩
  | defer => exact ⟨hbusy nofun⟩
  | abort => exact ⟨hbusy nofun⟩
  | mark => exact ⟨hbusy nofun⟩
  | unmatched => exact ⟨hbusy nofun⟩
  | settle => exact ⟨hbusy nofun⟩

theorem prune_proj (cfg : SimulationConfig) {β : Type*} (p : LPContext σ → β) (hp : ∀ g c, p (c.prune g) = p c)
    (gvt : TimeStamp) (s : Simulation Q σ) (i : LPId) :
    p ((pruneToGvt cfg gvt s).ctx i) = p (s.ctx i) := by
  unfold pruneToGvt
  dsimp only
  split
  · exact hp _ _
  · rfl

theorem GvtMove.baseInv {x y : Situation Q σ} (h : GvtMove sound final cfg x y) (hx : BaseInv x) :
    BaseInv y := by
  have hs := hx.started
  cases h with
  | advance hstart =>
      exact ⟨fun h => absurd (hstart.symm.trans h) (by simp)⟩
  | @prune s =>
      refine ⟨fun h => ⟨rfl, (hs h).2.1, fun i => ?_⟩⟩
      exact (prune_proj cfg (·.executed) (fun _ _ => rfl) _ s i).trans ((hs h).2.2 i)
  | @flush s =>
      refine ⟨fun h => ⟨rfl, (hs h).2.1, fun i => ?_⟩⟩
      exact (prune_proj cfg (·.executed) (fun _ _ => rfl) maxStamp s i).trans
        ((hs h).2.2 i)
  | flip => exact ⟨hs⟩
  | reset => exact ⟨hs⟩

theorem AllMoves.baseInv {x y : Situation Q σ} (h : AllMoves sound final model cfg x y)
    (hx : BaseInv x) : BaseInv y := by
  induction h with
  | refl => exact hx
  | tail _ hm ih => exact hm.elim (fun hm => hm.baseInv ih) fun hm => hm.baseInv ih

theorem Moves.all {x y : Situation Q σ} (h : Moves model cfg x y) :
    AllMoves sound final model cfg x y := by
  induction h with
  | refl => exact .refl
  | tail _ hm ih => exact ih.tail (Or.inl hm)

/-! ## Starting -/

variable {x₀ : Situation Q σ}

theorem runStarter_moves (id : LPId) (starter : Starter σ) {s : Simulation Q σ}
    (h : Reached model cfg x₀ .idle [] s) (hg : s.lastGvt = ⟨0, 0⟩)
    (he : ∀ i, (s.ctx i).executed = [])
    (hends : ∀ state, starter.Ends state → ((model id).onStart (s.ctx id).lp).Ends state) :
    let s' := (exec (runStarter cfg id starter) s).2
    Reached model cfg x₀ .idle [] s' ∧ s'.lastGvt = ⟨0, 0⟩ ∧ ∀ i, (s'.ctx i).executed = [] := by
  induction starter generalizing s with
  | done state =>
      exact ⟨h.move (.prepare (he id) (hends _ (.done state))), hg, fun i =>
        (modifyCtx_proj (·.executed) (f := fun c => { c with lp := state }) (fun _ => rfl)
          s id i).trans (he i)⟩
  | throw state what =>
      exact ⟨h.move (.prepare (he id) (hends _ (.throw state what))), hg, fun i =>
        (modifyCtx_proj (·.executed) (f := fun c => { c with lp := state }) (fun _ => rfl)
          s id i).trans (he i)⟩
  | send asked next ih =>
      have hframe := send_frame cfg (.start id) asked s
      unfold runStarter
      rw [exec_observe_bind]
      refine ih _ (send_moves (.start id) asked h hg) (hframe.lastGvt.trans hg)
        (fun i => (hframe.work i).executed.trans (he i)) fun state hstate => ?_
      rw [(hframe.work id).lp]
      exact hends state (.send _ hstate)

theorem startAll_moves (model : Model σ) (cfg : SimulationConfig) (ids : List LPId) {s : Simulation Q σ}
    (h : Reached model cfg x₀ .idle [] s) (hg : s.lastGvt = ⟨0, 0⟩)
    (he : ∀ i, (s.ctx i).executed = []) :
    Reached model cfg x₀ .idle [] (exec (startAll model cfg ids) s).2 := by
  induction ids generalizing s with
  | nil => exact h
  | cons id ids ih =>
      have hone := runStarter_moves id ((model id).onStart (s.ctx id).lp) h hg he fun _ hstate => hstate
      unfold startAll
      rw [exec_get_bind, exec_bind]
      generalize exec (runStarter cfg id _) s = res at hone ⊢
      obtain ⟨what | u, s₁⟩ := res
      · exact hone.1
      · exact ih hone.1 hone.2.1 hone.2.2

theorem startIfNeeded_moves (model : Model σ) (cfg : SimulationConfig) {s : Simulation Q σ} (hs : BaseInv s.atRest) :
    Moves model cfg s.atRest (exec (startIfNeeded model cfg) s).2.atRest ∧
      (exec (startIfNeeded model cfg) s).2.started = true := by
  unfold startIfNeeded
  rw [exec_get_bind, exec_ite]
  split
  · next hstart => exact ⟨.refl, hstart⟩
  · next hstart =>
    have hstart : s.started = false := by simpa using hstart
    obtain ⟨-, hg, he⟩ := hs.started hstart
    rw [exec_modify_bind]
    have hall := startAll_moves model cfg s.lpIds
      (s := { s with started := true }) .refl hg he
    exact ⟨.head (.start hstart) hall, Moves.started_mono hall rfl⟩

/-! ## Migrations -/

theorem applyMigrations_moves (queue : List Migration) {s : Simulation Q σ}
    (h : Reached model cfg x₀ .idle [] s) (hqueue : s.pendingMigrations = queue) :
    Reached model cfg x₀ .idle [] (exec (applyMigrations model queue) s).2 := by
  induction queue generalizing s with
  | nil => exact h
  | cons mig rest ih =>
      unfold applyMigrations
      rw [exec_get_bind, exec_ite]
      split
      · exact h
      · next hready =>
        rw [exec_modify_bind, exec_lookupCtx_bind]
        split
        · next howner =>
          rw [exec_modify_bind, exec_modify_bind, exec_modify_bind]
          exact ih (h.move (.migrate hqueue hready howner)) rfl
        · next howner => exact h.move (.misplace hqueue hready howner)

theorem applyReadyMigrations_moves (model : Model σ) (cfg : SimulationConfig)
    {x₀ : Situation Q σ} {s : Simulation Q σ} (h : Reached model cfg x₀ .idle [] s) :
    Reached model cfg x₀ .idle [] (exec (applyReadyMigrations model) s).2 := by
  unfold applyReadyMigrations
  rw [exec_get_bind]
  exact applyMigrations_moves _ h rfl

/-! ## Polling -/

theorem pollMessage_moves (msg : WireMessage) {s : Simulation Q σ}
    (h : Reached model cfg x₀ .idle [] s) :
    Reached model cfg x₀ .idle [] (exec (pollMessage model cfg msg) s).2 := by
  cases msg with
  | event srcRank dstRank ev => exact h.move .receive
  | migration srcRank dstRank mig =>
      change Reached model cfg x₀ .idle [] (exec (applyMigration model mig) s).2
      unfold applyMigration
      rw [exec_modify_bind]
      exact applyReadyMigrations_moves model cfg (h.move .queueMigration)
  | ack srcRank dstRank key =>
      unfold pollMessage
      rw [exec_ite]
      split
      · next hmode => exact h.move (.acknowledge hmode)
      · exact h

theorem pollTransport_moves (polled : List WireMessage) {s : Simulation Q σ}
    (h : Reached model cfg x₀ .idle [] s) :
    Reached model cfg x₀ .idle [] (exec (pollTransport model cfg polled) s).2 := by
  induction polled generalizing s with
  | nil => exact h
  | cons msg rest ih =>
      have hone := pollMessage_moves msg h
      unfold pollTransport
      rw [exec_bind]
      generalize exec (pollMessage model cfg msg) s = res at hone ⊢
      obtain ⟨what | u, s₁⟩ := res
      · exact hone
      · exact ih hone

/-! ## The local bound -/

theorem foldl_minStamp_le {α : Type*} (f : α → TimeStamp) (l : List α) (g : TimeStamp) :
    l.foldl (fun gvt a => minStamp gvt (f a)) g ≤ g ∧
      ∀ a ∈ l, l.foldl (fun gvt a => minStamp gvt (f a)) g ≤ f a := by
  induction l generalizing g with
  | nil => simp
  | cons b l ih =>
      have h := ih (minStamp g (f b))
      rw [minStamp_eq_min] at h
      refine ⟨?_, fun a ha => ?_⟩
      · rw [List.foldl_cons, minStamp_eq_min]
        exact h.1.trans (min_le_left _ _)
      · rw [List.foldl_cons, minStamp_eq_min]
        rcases List.mem_cons.mp ha with rfl | ha
        · exact h.1.trans (min_le_right _ _)
        · exact h.2 a ha

/-- The scan of `peek_next_pending_ts_`. -/
def peekScan (s : Simulation Q σ) : Simulation Q σ := discardPending s.tombstoned s

/-- The bound that `compute_gvt_` returns once the front of the queue has been cleared. -/
def localBound (cfg : SimulationConfig) (s : Simulation Q σ) : TimeStamp :=
  let gvt := minVt s
  let gvt := match (Q.top? s.pending).map (·.ts) with
    | some pendingMin => minStamp gvt pendingMin
    | none => gvt
  if cfg.gvtMode = .ackInflight then s.inflightTs.foldl minStamp gvt else gvt

theorem exec_peekNextPendingTs (s : Simulation Q σ) :
    exec peekNextPendingTs s = (.ok ((Q.top? (peekScan s).pending).map (·.ts)), peekScan s) := rfl

theorem exec_computeGvt (s : Simulation Q σ) :
    exec (computeGvt cfg) s = (.ok (localBound cfg (peekScan s)), peekScan s) := by
  unfold computeGvt
  rw [exec_get_bind, exec_bind_of_ok (exec_peekNextPendingTs s), exec_ite]
  unfold localBound
  split <;> rfl

theorem top?_le {q : Q.Carrier} {front : Event} (h : Q.top? q = some front) :
    ∀ ev ∈ Q.elems q, front.sortKey ≤ ev.sortKey := by
  intro ev hev
  have hmin := Q.top?_minimal q front h ev hev
  rw [pendingOrder_iff] at hmin
  exact not_lt.mp hmin

/-- The local bound is below everything the rank knows of. -/
theorem localBound_le (s : Simulation Q σ) :
    (∀ id ∈ s.lpIds, localBound cfg s ≤ (s.ctx id).vt) ∧
      (∀ ev ∈ Q.elems s.pending, localBound cfg s ≤ ev.ts) ∧
      (cfg.gvtMode = .ackInflight → ∀ ts ∈ s.inflightTs, localBound cfg s ≤ ts) := by
  have hvt := (foldl_minStamp_le (fun id => (s.ctx id).vt) s.lpIds maxStamp).2
  set gvt := match (Q.top? s.pending).map (·.ts) with
    | some pendingMin => minStamp (minVt s) pendingMin
    | none => minVt s with hgvt
  have hle : gvt ≤ minVt s := by
    rw [hgvt]
    split
    · rw [minStamp_eq_min]
      exact min_le_left _ _
    · exact le_refl _
  have hpending : ∀ ev ∈ Q.elems s.pending, gvt ≤ ev.ts := by
    intro ev hev
    cases htop : Q.top? s.pending with
    | none =>
        rw [Q.elems_eq_zero_of_top? _ htop] at hev
        exact absurd hev (Multiset.notMem_zero ev)
    | some front =>
        have hfront := Event.ts_le_of_sortKey_le (top?_le htop ev hev)
        rw [hgvt, htop]
        simp only [Option.map_some, minStamp_eq_min]
        exact (min_le_right _ _).trans hfront
  have hbound : localBound cfg s ≤ gvt := by
    unfold localBound
    dsimp only
    split
    · exact (foldl_minStamp_le id s.inflightTs gvt).1
    · exact le_refl _
  refine ⟨fun id hid => (hbound.trans hle).trans (hvt id hid),
    fun ev hev => hbound.trans (hpending ev hev), fun hmode ts hts => ?_⟩
  unfold localBound
  dsimp only
  rw [if_pos hmode]
  exact (foldl_minStamp_le id s.inflightTs _).2 ts hts

/-! ## Advancing GVT -/

/-- What `gvtReduceMin` answers, where it is installed, is not above what it was given. -/
def Environment.BoundsBelow (cfg : SimulationConfig) (env : Environment) : Prop :=
  cfg.gvtReduceMin = true → ∀ b, env.reduceMin b ≤ b

/-- Moves of all kinds from `x₀` to the simulation at rest. -/
def Rested (sound final : Prop) (model : Model σ) (cfg : SimulationConfig) (x₀ : Situation Q σ)
    (s : Simulation Q σ) : Prop :=
  AllMoves sound final model cfg x₀ s.atRest

theorem Rested.moves {s s' : Simulation Q σ} (h : Rested sound final model cfg x₀ s)
    (hm : Moves model cfg s.atRest s'.atRest) : Rested sound final model cfg x₀ s' :=
  Relation.ReflTransGen.trans h hm.all

theorem Rested.gvtMove {s s' : Simulation Q σ} (h : Rested sound final model cfg x₀ s)
    (hm : GvtMove sound final cfg s.atRest s'.atRest) : Rested sound final model cfg x₀ s' :=
  Relation.ReflTransGen.tail h (Or.inr hm)

theorem Rested.quiet {s s' : Simulation Q σ} (h : Rested sound final model cfg x₀ s) (hq : Quiet s s') :
    Rested sound final model cfg x₀ s' :=
  h.moves (.single (.quiet hq))

theorem keeps_applyReadyMigrations :
    Keeps (Rested sound final model cfg x₀) (applyReadyMigrations model) := by
  intro s h
  exact h.moves (applyReadyMigrations_moves model cfg .refl)

theorem sendNotifications_moves (systemSrc : LPId) (gvt : TimeStamp) (dirs : List LPId)
    {s : Simulation Q σ} (h : Reached model cfg x₀ .idle [] s) (hg : s.lastGvt = gvt) :
    Reached model cfg x₀ .idle [] (exec (sendNotifications cfg systemSrc gvt dirs) s).2 := by
  induction dirs generalizing s with
  | nil => exact h
  | cons dir rest ih =>
      have hsend := send_moves .notification (gvtNotification cfg systemSrc gvt dir) h hg.symm
      have hframe := send_frame cfg .notification (gvtNotification cfg systemSrc gvt dir) s
      unfold sendNotifications
      rw [exec_bind]
      generalize exec (send .notification cfg _) s = res at hsend hframe ⊢
      obtain ⟨what | ev, s₁⟩ := res
      · exact hsend
      · exact ih hsend (hframe.lastGvt.trans hg)

theorem notifyDirectoriesGvt_moves (model : Model σ) (cfg : SimulationConfig)
    {x₀ : Situation Q σ} (gvt : TimeStamp) {s : Simulation Q σ}
    (h : Reached model cfg x₀ .idle [] s) (hg : s.lastGvt = gvt) :
    Reached model cfg x₀ .idle [] (exec (notifyDirectoriesGvt cfg gvt) s).2 := by
  unfold notifyDirectoriesGvt
  rw [exec_get_bind, exec_ite]
  split
  · exact h
  · split
    · exact h
    · next systemSrc _ =>
      rw [exec_ite]
      split
      · have hsend := sendNotifications_moves systemSrc gvt s.directoryLps h hg
        rw [exec_bind]
        generalize exec (sendNotifications cfg systemSrc gvt s.directoryLps) s = res at hsend ⊢
        obtain ⟨what | u, s₁⟩ := res
        · exact hsend
        · exact Reached.quiet hsend rfl
      · exact h

/-- `gvt` is below everything pending and below every local virtual time. -/
def Covers (gvt : TimeStamp) (s : Simulation Q σ) : Prop :=
  (∀ ev ∈ Q.elems s.pending, gvt ≤ ev.ts) ∧ ∀ id ∈ s.lpIds, gvt ≤ (s.ctx id).vt

theorem covers_localBound (cfg : SimulationConfig) (s : Simulation Q σ) : Covers (localBound cfg s) s :=
  ⟨(localBound_le s).2.1, (localBound_le s).1⟩

theorem Covers.mono {g g' : TimeStamp} {s : Simulation Q σ} (h : Covers g s) (hle : g' ≤ g) :
    Covers g' s :=
  ⟨fun ev hev => hle.trans (h.1 ev hev), fun id hid => hle.trans (h.2 id hid)⟩

theorem keeps_fossilPrune :
    Keeps (Rested sound final model cfg x₀) (fossilPrune model cfg) :=
  keeps_bind (keeps_modify fun _ h => h.gvtMove .prune) fun _ => keeps_applyReadyMigrations

/-- The GVT of the kernel is taken to `gvt` and everything before it is committed. -/
theorem Rested.advance {s : Simulation Q σ} {gvt : TimeStamp} (h : Rested sound final model cfg x₀ s)
    (hstart : s.started = true) (hle : s.lastGvt ≤ gvt) (hb : sound → Covers gvt s) :
    Rested sound final model cfg x₀ (pruneToGvt cfg gvt (raiseGvt gvt s)) :=
  h.gvtMove (.advance hstart hle hb)

theorem adoptGvt_rested {s : Simulation Q σ} {gvt : TimeStamp} (h : Rested sound final model cfg x₀ s)
    (hstart : s.started = true) (hb : sound → Covers gvt s) :
    Rested sound final model cfg x₀ (exec (adoptGvt model cfg gvt) s).2 := by
  unfold adoptGvt
  rw [exec_get_bind, exec_ite]
  split
  · exact h.quiet (quiet_validate cfg s)
  · next hle =>
    rw [exec_modify_bind]
    have hadv := h.advance hstart (not_lt.mp hle) hb
    have hmig := applyReadyMigrations_moves model cfg
      (show Reached model cfg (pruneToGvt cfg gvt (raiseGvt gvt s)).atRest .idle [] _ from .refl)
    rw [exec_bind]
    generalize exec (applyReadyMigrations model) _ = res at hmig ⊢
    obtain ⟨what | u, s₁⟩ := res
    · exact hadv.moves hmig
    · have hg : s₁.lastGvt = gvt := Moves.lastGvt_eq hmig
      have hnotify := notifyDirectoriesGvt_moves model cfg gvt hmig hg
      dsimp only
      rw [exec_bind]
      generalize exec (notifyDirectoriesGvt cfg gvt) s₁ = res at hnotify ⊢
      obtain ⟨what | u, s₂⟩ := res
      · exact hadv.moves hnotify
      · exact (hadv.moves hnotify).quiet (quiet_validate cfg s₂)

theorem adoptRedGvt_rested {s : Simulation Q σ} {gvt : TimeStamp} (h : Rested sound final model cfg x₀ s)
    (hstart : s.started = true) (hb : sound → Covers gvt s) :
    Rested sound final model cfg x₀ (exec (adoptRedGvt cfg gvt) s).2 := by
  unfold adoptRedGvt
  rw [exec_get_bind, exec_ite]
  split
  · exact h
  · next hle =>
    rw [exec_modify_bind]
    have hadv := h.advance hstart (not_lt.mp hle) hb
    have hnotify := notifyDirectoriesGvt_moves model cfg gvt
      (show Reached model cfg (pruneToGvt cfg gvt (raiseGvt gvt s)).atRest .idle [] _ from .refl)
      rfl
    rw [exec_bind]
    generalize exec (notifyDirectoriesGvt cfg gvt) _ = res at hnotify ⊢
    obtain ⟨what | u, s₁⟩ := res
    · exact hadv.moves hnotify
    · exact (hadv.moves hnotify).gvtMove .reset

theorem Rested.peekScan {s : Simulation Q σ} (h : Rested sound final model cfg x₀ s) :
    Rested sound final model cfg x₀ (peekScan s) :=
  h.moves (.single (.discard fun _ hev => hev))

theorem advanceGvtColored_rested {s : Simulation Q σ} {env : Environment}
    (h : Rested sound final model cfg x₀ s) (hstart : s.started = true)
    (henv : sound → env.BoundsBelow cfg) :
    Rested sound final model cfg x₀ (exec (advanceGvtColored cfg env) s).2 := by
  unfold advanceGvtColored
  rw [exec_ite]
  split
  · exact h
  · next hinstalled =>
    have hmin : cfg.gvtReduceMin = true := by
      cases h : cfg.gvtReduceMin with
      | true => rfl
      | false => simp [h] at hinstalled
    rw [exec_get_bind, exec_ite]
    split
    · exact h.gvtMove .flip
    · rw [exec_ite]
      split
      · exact h
      · have hred : exec (computeRedGvt cfg) s =
            (.ok (minStamp (localBound cfg (WarpSim.peekScan s)) s.gvtMinRedSentTs),
              WarpSim.peekScan s) := by
          unfold computeRedGvt
          rw [exec_bind_of_ok (exec_computeGvt s)]
          rfl
        rw [exec_bind_of_ok hred]
        refine adoptRedGvt_rested h.peekScan hstart fun hs => ?_
        refine (covers_localBound cfg _).mono ((henv hs hmin _).trans ?_)
        rw [minStamp_eq_min]
        exact min_le_left _ _

theorem afterAdvance_rested {s : Simulation Q σ} (h : Rested sound final model cfg x₀ s) :
    Rested sound final model cfg x₀ (exec (afterAdvance model cfg) s).2 := by
  have hmig := applyReadyMigrations_moves model cfg (s := s) .refl
  unfold afterAdvance
  rw [exec_bind]
  generalize exec (applyReadyMigrations model) s = res at hmig ⊢
  obtain ⟨what | u, s₁⟩ := res
  · exact h.moves hmig
  · have hnotify := notifyDirectoriesGvt_moves model cfg s₁.lastGvt hmig rfl
    dsimp only
    rw [exec_get_bind, exec_bind]
    generalize exec (notifyDirectoriesGvt cfg s₁.lastGvt) s₁ = res at hnotify ⊢
    obtain ⟨what | u, s₂⟩ := res
    · exact h.moves hnotify
    · exact (h.moves hnotify).quiet (quiet_validate cfg s₂)

theorem fossilCollect_rested {s : Simulation Q σ} {env : Environment} {doGlobalReduction : Bool}
    (h : Rested sound final model cfg x₀ s) (hstart : x₀.state.started = true)
    (henv : sound → env.BoundsBelow cfg) :
    Rested sound final model cfg x₀ (exec (fossilCollect model cfg env doGlobalReduction) s).2 := by
  have hv := h.quiet (quiet_validate cfg s)
  unfold fossilCollect
  rw [exec_modify_bind, exec_ite]
  split
  · exact hv
  · have hprune := keeps_fossilPrune _ hv
    rw [exec_bind]
    generalize exec (fossilPrune model cfg) (validateInvariants cfg s) = res at hprune ⊢
    obtain ⟨what | u, s₁⟩ := res
    · exact hprune
    · have hstart₁ : s₁.started = true := AllMoves.started_mono hprune hstart
      dsimp only
      rw [exec_ite]
      split
      · exact hprune.quiet (quiet_validate cfg s₁)
      · rw [exec_ite]
        split
        · have hadv := advanceGvtColored_rested hprune hstart₁ henv
          rw [exec_bind]
          generalize exec (advanceGvtColored cfg env) s₁ = res at hadv ⊢
          obtain ⟨what | u, s₂⟩ := res
          · exact hadv
          · exact afterAdvance_rested hadv
        · rw [exec_bind_of_ok (exec_computeGvt s₁)]
          refine adoptGvt_rested (Rested.peekScan hprune) hstart₁ fun hs => ?_
          split
          · next hmin => exact (covers_localBound cfg _).mono (henv hs hmin _)
          · exact covers_localBound cfg _

/-! ## Host operations -/

/-- A kernel with pending events has work. -/
theorem localHasWork_of_pending {s : Simulation Q σ} (h : Q.elems s.pending ≠ 0) (env : Environment)
    (doCollectives : Bool) : localHasWork cfg env doCollectives s = true := by
  have hsize : Q.size s.pending ≠ 0 := by rwa [Q.size_eq, Ne, Multiset.card_eq_zero]
  unfold localHasWork
  dsimp only
  rw [decide_eq_true hsize, Bool.true_or]
  split
  · rfl
  · split
    · rfl
    · split <;> rfl

/-- What applying migrations leaves of a simulation. -/
structure Migrated (s s' : Simulation Q σ) : Prop where
  rest : s' = { s with
    ctx := s'.ctx
    pendingMigrations := s'.pendingMigrations
    entityOwner := s'.entityOwner
    hist := { s.hist with migrations := s'.hist.migrations } }
  ctx : ∀ i, s'.ctx i = { s.ctx i with lp := (s'.ctx i).lp }

theorem Migrated.refl (s : Simulation Q σ) : Migrated s s := ⟨rfl, fun _ => rfl⟩

theorem Migrated.trans {s s' s'' : Simulation Q σ} (h : Migrated s s') (h' : Migrated s' s'') :
    Migrated s s'' := by
  refine ⟨?_, fun i => ?_⟩
  · rw [h'.rest, h.rest]
  · rw [h'.ctx i, h.ctx i]

theorem migrated_setLp (id : LPId) (state : σ) (s : Simulation Q σ) :
    Migrated s (setLp id state s) := by
  refine ⟨rfl, fun i => ?_⟩
  by_cases hi : i = id
  · rw [hi, setLp, modifyCtx_self]
  · rw [setLp, modifyCtx_of_ne s _ hi]

theorem migrated_takeOver (mig : Migration) (s : Simulation Q σ) :
    Migrated s (takeOver model mig s) :=
  (migrated_setLp ..).trans ⟨rfl, fun _ => rfl⟩

theorem migrated_applyMigrations (queue : List Migration) (s : Simulation Q σ) :
    Migrated s (exec (applyMigrations model queue) s).2 := by
  induction queue generalizing s with
  | nil => exact Migrated.refl s
  | cons mig rest ih =>
      unfold applyMigrations
      rw [exec_get_bind, exec_ite]
      split
      · exact Migrated.refl s
      · rw [exec_modify_bind, exec_lookupCtx_bind]
        have hunqueue : Migrated s { s with pendingMigrations := rest } := ⟨rfl, fun _ => rfl⟩
        split
        · rw [exec_modify_bind, exec_modify_bind, exec_modify_bind]
          exact (hunqueue.trans (migrated_takeOver mig _)).trans (ih _)
        · exact hunqueue

/-- The last flush of a run. -/
def flushed (cfg : SimulationConfig) (s : Simulation Q σ) : Simulation Q σ :=
  { pruneToGvt cfg maxStamp s with finished := true }

theorem finalizeAtEnd_state (env : Environment) (s : Simulation Q σ) :
    (exec (finalizeAtEnd model cfg env) s).2 =
      (exec (applyReadyMigrations model) (flushed cfg s)).2 := by
  unfold finalizeAtEnd
  rw [exec_modify_bind]
  change (exec (applyReadyMigrations model >>= _) (flushed cfg s)).2 = _
  rw [exec_bind]
  generalize exec (applyReadyMigrations model) (flushed cfg s) = res
  obtain ⟨what | u, s₁⟩ := res
  · rfl
  · dsimp only
    rw [exec_get_bind, exec_ite]
    split
    · rfl
    · rw [exec_ite]
      split <;> rfl

theorem finalizeAtEnd_migrated (model : Model σ) (cfg : SimulationConfig) (env : Environment) (s : Simulation Q σ) :
    Migrated (flushed cfg s) (exec (finalizeAtEnd model cfg env) s).2 := by
  rw [finalizeAtEnd_state]
  exact migrated_applyMigrations _ _

theorem finalizeAtEnd_moves (model : Model σ) (cfg : SimulationConfig) (env : Environment)
    (s : Simulation Q σ) :
    Moves model cfg (flushed cfg s).atRest (exec (finalizeAtEnd model cfg env) s).2.atRest := by
  rw [finalizeAtEnd_state]
  exact applyReadyMigrations_moves model cfg .refl

/-- The part of a turn that is common to `run_one` and `run`. -/
theorem turn_exits {α : Type} {s : Simulation Q σ} {env : Environment} {doCollectives : Bool}
    {T : Except String α × Simulation Q σ → Prop} (hs : BaseInv s.atRest) (henv : sound → env.BoundsBelow cfg)
    (k : Bool → KernelM Q σ α) (hT : ∀ what t, Rested sound final model cfg s.atRest t → T (.error what, t))
    (hk : ∀ dispatched t, Rested sound final model cfg s.atRest t → T (exec (k dispatched) t)) :
    T (exec (do
      startIfNeeded model cfg
      pollTransport model cfg env.polled
      let dispatched ← dispatchNext model cfg
      fossilCollect model cfg env doCollectives
      k dispatched) s) := by
  obtain ⟨hstarted, htrue⟩ := startIfNeeded_moves model cfg hs
  have hrest : Rested sound final model cfg s.atRest (exec (startIfNeeded model cfg) s).2 :=
    hstarted.all
  rw [exec_bind]
  generalize exec (startIfNeeded model cfg) s = res at htrue hrest ⊢
  obtain ⟨what | u, s₁⟩ := res
  · exact hT _ _ hrest
  have hpoll : Reached model cfg s₁.atRest .idle [] _ := pollTransport_moves env.polled .refl
  dsimp only
  rw [exec_bind]
  generalize exec (pollTransport model cfg env.polled) s₁ = res at hpoll ⊢
  obtain ⟨what | u, s₂⟩ := res
  · exact hT _ _ (hrest.moves hpoll)
  have hdisp := dispatchNext_moves hpoll (Moves.started_mono hpoll htrue)
  dsimp only
  rw [exec_bind]
  generalize exec (dispatchNext model cfg) s₂ = res at hdisp ⊢
  obtain ⟨what | dispatched, s₃⟩ := res
  · exact hT _ _ (hrest.moves hdisp)
  have hfossil : Rested sound final model cfg s₁.atRest
      (exec (fossilCollect model cfg env doCollectives) s₃).2 :=
    fossilCollect_rested (Moves.all hdisp) htrue henv
  dsimp only
  rw [exec_bind]
  generalize exec (fossilCollect model cfg env doCollectives) s₃ = res at hfossil ⊢
  obtain ⟨what | u, s₄⟩ := res
  · exact hT _ _ (hrest.trans hfossil)
  · exact hk dispatched s₄ (hrest.trans hfossil)

theorem runOne_rested {s : Simulation Q σ} {env : Environment} {doCollectives : Bool}
    (hs : BaseInv s.atRest) (henv : sound → env.BoundsBelow cfg) :
    Rested sound final model cfg s.atRest (exec (runOne model cfg env doCollectives) s).2 :=
  turn_exits (T := fun res => Rested sound final model cfg s.atRest res.2) hs henv _ (fun _ _ h => h) fun _ _ h => h

/-- A turn of the loop of `run` either leaves the run unfinished, or it ends the run. -/
inductive TurnOutcome (sound : Prop) (model : Model σ) (cfg : SimulationConfig)
    (s s' : Simulation Q σ) : Prop where
  | goesOn : Rested sound False model cfg s.atRest s' → TurnOutcome sound model cfg s s'
  | ends {t} : Rested sound False model cfg s.atRest t → (sound → Q.elems t.pending = 0) →
      Moves model cfg (flushed cfg t).atRest s'.atRest → Migrated (flushed cfg t) s' →
      TurnOutcome sound model cfg s s'

theorem runIteration_outcome {s : Simulation Q σ} {env : Environment} {iters : ℕ}
    (hs : BaseInv s.atRest)
    (henv : sound → env.BoundsBelow cfg ∧ (cfg.anyRankHasWork = true → env.anyWork true = true)) :
    TurnOutcome sound model cfg s (exec (runIteration model cfg env iters) s).2 := by
  refine turn_exits (T := fun res => TurnOutcome sound model cfg s res.2) hs (fun hsound => (henv hsound).1) _
    (fun _ _ h => .goesOn h) fun _ t h => ?_
  have hfinal : (sound → Q.elems t.pending = 0) → TurnOutcome sound model cfg s
      (exec (finalizeAtEnd model cfg env >>= fun _ => pure false) t).2 := by
    intro hempty
    have hmoves := finalizeAtEnd_moves model cfg env t
    have hmig := finalizeAtEnd_migrated model cfg env t
    rw [exec_bind]
    generalize exec (finalizeAtEnd model cfg env) t = res at hmoves hmig ⊢
    obtain ⟨what | u, t'⟩ := res <;> exact .ends h hempty hmoves hmig
  rw [exec_get_bind]
  dsimp only
  rw [exec_ite]
  split
  · next hany =>
    rw [exec_ite]
    split
    · exact .goesOn h
    · next hgo =>
      refine hfinal fun hsound => not_not.mp fun hpending => hgo ?_
      rw [localHasWork_of_pending hpending, (henv hsound).2 hany, Bool.or_true]
  · rw [exec_ite]
    split
    · exact .goesOn h
    · next hgo =>
      exact hfinal fun _ => not_not.mp fun hpending => hgo (localHasWork_of_pending hpending _ _)

theorem AllMoves.mono {final' : Prop} (hf : final → final') {x y : Situation Q σ}
    (h : AllMoves sound final model cfg x y) : AllMoves sound final' model cfg x y := by
  induction h with
  | refl => exact .refl
  | tail _ hm ih =>
      refine ih.tail (hm.imp_right fun hg => ?_)
      cases hg with
      | advance hstart hle hb => exact .advance hstart hle hb
      | prune => exact .prune
      | flush hfinal hempty => exact .flush (hf hfinal) hempty
      | flip => exact .flip
      | reset => exact .reset

theorem TurnOutcome.moves {s s' : Simulation Q σ} (h : TurnOutcome sound model cfg s s') :
    AllMoves sound True model cfg s.atRest s'.atRest := by
  cases h with
  | goesOn h => exact AllMoves.mono (fun h => h.elim) h
  | ends h hempty hmoves _ =>
      exact ((AllMoves.mono (fun h => h.elim) h).tail (Or.inr (.flush trivial hempty))).trans hmoves.all

/-- The reductions that an operation calls take the kernel's own contribution into account. -/
def HostOp.SoundReduction (cfg : SimulationConfig) : HostOp → Prop
  | .runOne env _ => env.BoundsBelow cfg
  | .runIteration env _ =>
    env.BoundsBelow cfg ∧ (cfg.anyRankHasWork = true → env.anyWork true = true)
  | _ => True

/-- Where no reductions are installed none can be unsound. -/
theorem HostOp.soundReduction_of_alone (hmin : cfg.gvtReduceMin = false)
    (hany : cfg.anyRankHasWork = false) (op : HostOp) : op.SoundReduction cfg := by
  cases op with
  | runOne env doCollectives => intro h; simp [hmin] at h
  | runIteration env iters =>
      refine ⟨?_, ?_⟩
      · intro h; simp [hmin] at h
      · intro h; simp [hany] at h
  | _ => trivial

/-- A host operation is a sequence of moves between two states of rest, and it ends the run at
most once. -/
theorem hostOp_outcome {s : Simulation Q σ} (op : HostOp) (hs : BaseInv s.atRest)
    (hop : sound → op.SoundReduction cfg) :
    TurnOutcome sound model cfg s (exec (hostOp model cfg op) s).2 := by
  cases op with
  | addLp id =>
      refine .goesOn ?_
      change Rested sound False model cfg s.atRest (exec (addLp model id) s).2
      unfold addLp
      rw [exec_get_bind, exec_ite]
      split
      · exact .refl
      · next hid =>
        refine Rested.quiet (Moves.all (.single (.register hid))) ?_
        exact rfl
  | schedule ev => exact .goesOn (Moves.all (.single .schedule))
  | send ev =>
      have hsend : Reached model cfg s.atRest _ [] _ := send_moves .host ev .refl trivial
      refine .goesOn ?_
      change Rested sound False model cfg s.atRest (exec (send .host cfg ev >>= fun _ => pure ()) s).2
      rw [exec_bind]
      generalize exec (send .host cfg ev) s = res at hsend ⊢
      obtain ⟨what | ev', s'⟩ := res <;> exact Moves.all hsend
  | pollTransport polled => exact .goesOn (pollTransport_moves polled .refl).all
  | runOne env doCollectives =>
      have hrun : Rested sound False model cfg s.atRest
          (exec (runOne model cfg env doCollectives) s).2 := runOne_rested hs hop
      refine .goesOn ?_
      change Rested sound False model cfg s.atRest
        (exec (runOne model cfg env doCollectives >>= fun _ => pure ()) s).2
      rw [exec_bind]
      generalize exec (runOne model cfg env doCollectives) s = res at hrun ⊢
      obtain ⟨what | b, s'⟩ := res <;> exact hrun
  | runIteration env iters =>
      have hrun : TurnOutcome sound model cfg s (exec (runIteration model cfg env iters) s).2 :=
        runIteration_outcome hs hop
      change TurnOutcome sound model cfg s
        (exec (runIteration model cfg env iters >>= fun _ => pure ()) s).2
      rw [exec_bind]
      generalize exec (runIteration model cfg env iters) s = res at hrun ⊢
      obtain ⟨what | b, s'⟩ := res <;> exact hrun

theorem hostOp_moves {s : Simulation Q σ} (op : HostOp) (hs : BaseInv s.atRest)
    (hop : sound → op.SoundReduction cfg) :
    AllMoves sound True model cfg s.atRest (exec (hostOp model cfg op) s).2.atRest :=
  (hostOp_outcome op hs hop).moves

/-! ## Runs -/

/-- The states that a kernel reaches when the host obeys `allowed`. -/
inductive Reachable (model : Model σ) (cfg : SimulationConfig)
    (allowed : Simulation Q σ → HostOp → Prop) : Simulation Q σ → Prop where
  | create : Reachable model cfg allowed (Simulation.create Q model)
  | step {s op} : Reachable model cfg allowed s → allowed s op →
      Reachable model cfg allowed (exec (hostOp model cfg op) s).2

theorem baseInv_create : BaseInv (Simulation.create Q model).atRest :=
  ⟨fun _ => ⟨rfl, rfl, fun _ => rfl⟩⟩

/-- A run of a kernel is a sequence of moves. -/
theorem Reachable.moves {allowed : Simulation Q σ → HostOp → Prop} {s : Simulation Q σ}
    (h : Reachable model cfg allowed s)
    (hsound : sound → ∀ s op, allowed s op → op.SoundReduction cfg) :
    AllMoves sound True model cfg (Simulation.create Q model).atRest s.atRest := by
  induction h with
  | create => exact .refl
  | step _ hop ih =>
      exact ih.trans (hostOp_moves _ (AllMoves.baseInv ih baseInv_create) fun hs => hsound hs _ _ hop)

theorem Reachable.baseInv {allowed : Simulation Q σ → HostOp → Prop} {s : Simulation Q σ}
    (h : Reachable model cfg allowed s) : BaseInv s.atRest := by
  have hmoves : AllMoves False True model cfg (Simulation.create Q model).atRest s.atRest :=
    h.moves fun hfalse => hfalse.elim
  exact AllMoves.baseInv hmoves baseInv_create

/-- The state after a list of host operations. -/
def hostRun (model : Model σ) (cfg : SimulationConfig) (ops : List HostOp) (s : Simulation Q σ) :
    Simulation Q σ :=
  ops.foldl (fun s op => (exec (hostOp model cfg op) s).2) s

theorem hostRun_append (before after : List HostOp) (s : Simulation Q σ) :
    hostRun model cfg (before ++ after) s = hostRun model cfg after (hostRun model cfg before s) :=
  List.foldl_append ..

theorem hostRun_moves {s : Simulation Q σ} (hs : BaseInv s.atRest) (ops : List HostOp) :
    AllMoves False True model cfg s.atRest (hostRun model cfg ops s).atRest := by
  induction ops generalizing s with
  | nil => exact .refl
  | cons op ops ih =>
      have hop : AllMoves False True model cfg s.atRest (exec (hostOp model cfg op) s).2.atRest :=
        hostOp_moves op hs False.elim
      exact hop.trans (ih (AllMoves.baseInv hop hs))

/-- Each operation of the list is allowed when its turn comes. -/
def Obeys (model : Model σ) (cfg : SimulationConfig) (allowed : Simulation Q σ → HostOp → Prop) :
    List HostOp → Simulation Q σ → Prop
  | [], _ => True
  | op :: ops, s => allowed s op ∧ Obeys model cfg allowed ops (exec (hostOp model cfg op) s).2

theorem Reachable.hostRun {allowed : Simulation Q σ → HostOp → Prop} {s : Simulation Q σ}
    (h : Reachable model cfg allowed s) {ops : List HostOp} (hops : Obeys model cfg allowed ops s) :
    Reachable model cfg allowed (hostRun model cfg ops s) := by
  induction ops generalizing s with
  | nil => exact h
  | cons op ops ih => exact ih (h.step hops.1) hops.2

theorem obeys_true (ops : List HostOp) (s : Simulation Q σ) :
    Obeys model cfg (fun _ _ => True) ops s := by
  induction ops generalizing s with
  | nil => trivial
  | cons op ops ih => exact ⟨trivial, ih _⟩

/-- An LP that notes the kinds of the events it has handled. -/
def journal : LogicalProcess ByteBuffer where
  init := []
  onEvent st ev := .requestWrite st 0 (.done (st ++ [ev.payload.kind.toUInt8]))
  saveState := id
  loadState _ bytes := bytes

end WarpSim

import WarpSim.Model.DirectoryLp

/-! # Pruning the ownership history

Two histories agree from a stamp on if they name the same owners there, now and after any further
updates. Pruning to a stamp leaves a history in agreement with what it was. -/

namespace WarpSim

/-! ## What a handler shows -/

/-- A call by which a handler acts on the world outside its LP. -/
inductive Effect where
  | send (ev : Event)
  | emit (ts : TimeStamp) (payload : Payload)
deriving DecidableEq

/-- The effects of a handler, the state it leaves and the exception it ends with, where `answer`
says what each effect throws. -/
def Handler.play {σ : Type} (answer : Effect → Option String) :
    Handler σ → List Effect × σ × Option String
  | .done state => ([], state, none)
  | .throw state what => ([], state, some what)
  | .send ev next =>
    let rest := (next (answer (.send ev))).play answer
    (.send ev :: rest.1, rest.2)
  | .requestWrite _ _ next => next.play answer
  | .emitCommitted ts payload next =>
    let rest := (next (answer (.emit ts payload))).play answer
    (.emit ts payload :: rest.1, rest.2)

namespace DirectoryLP

/-- The effects and the exception of each event, the events being handled one after the other. -/
def trace (cfg : DirectoryLPConfig) (answer : Event → Effect → Option String) :
    OwnerHistory → List Event → List (Event × List Effect × Option String)
  | _, [] => []
  | history, ev :: evs =>
    let played := (onEvent cfg history ev).play (answer ev)
    (ev, played.1, played.2.2) :: trace cfg answer played.2.1 evs

/-! ## Agreement -/

def Agree (g : TimeStamp) (history history' : OwnerHistory) : Prop :=
  ∀ entity, (timeline history entity).AgreeFrom g (timeline history' entity)

variable {g : TimeStamp} {history history' : OwnerHistory} {cfg : DirectoryLPConfig}

theorem Agree.refl (g : TimeStamp) (history : OwnerHistory) : Agree g history history :=
  fun _ => .refl g _

theorem Agree.mono {g' : TimeStamp} (h : Agree g history history') (hg : g ≤ g') :
    Agree g' history history' :=
  fun entity => (h entity).mono hg

theorem Agree.ownerAt_eq (h : Agree g history history') (cfg : DirectoryLPConfig)
    (entity : EntityId) {ts : TimeStamp} (hts : g ≤ ts) :
    ownerAt cfg history entity ts = ownerAt cfg history' entity ts := by
  unfold ownerAt
  rw [(h entity).floor?_eq hts]

theorem timeline_setOwner (entity : EntityId) (ts : TimeStamp) (owner : LPId)
    (history : OwnerHistory) (e : EntityId) :
    timeline (setOwner entity ts owner history) e =
      if e = entity then (timeline history entity).insert ts owner else timeline history e := by
  unfold setOwner
  rw [timeline, OrderedMap.find?_insert]
  split <;> rfl

theorem Agree.setOwner (h : Agree g history history') (entity : EntityId) (ts : TimeStamp)
    (owner : LPId) :
    Agree g (setOwner entity ts owner history) (setOwner entity ts owner history') := by
  intro e
  rw [timeline_setOwner, timeline_setOwner]
  split
  · exact (h entity).insert ts owner
  · exact h e

/-! ## Pruning -/

/-- What is kept starts at an entry not above `gvt`, unless nothing was dropped. -/
theorem keptEntries_head (gvt : TimeStamp) (entries : List (TimeStamp × LPId)) :
    keptEntries gvt entries = entries ∨
      ∃ e, (keptEntries gvt entries).head? = some e ∧ e.1 ≤ gvt := by
  unfold keptEntries
  dsimp only
  split
  · exact Or.inl rfl
  · next keep hkeep =>
    right
    split
    · next hat =>
      obtain ⟨e, he, hkey⟩ := Option.map_eq_some_iff.mp hat
      exact ⟨e, he, hkey.le⟩
    · have hmem : keep ∈ entries.takeWhile fun e => e.1 < gvt := List.mem_of_getLast? hkeep
      have hlt := List.mem_takeWhile_imp hmem
      exact ⟨keep, rfl, le_of_lt (by simpa using hlt)⟩

/-- The timeline that pruning leaves behind. -/
theorem getD_pruneTimeline (gvt : TimeStamp) (m : Timeline) :
    ((pruneTimeline gvt m).getD .empty).entries = keptEntries gvt m.entries := by
  unfold pruneTimeline
  dsimp only
  split
  · next h => exact (List.isEmpty_iff.mp h).symm
  · rfl

theorem timeline_pruneHistory (gvt : TimeStamp) (history : OwnerHistory) (entity : EntityId) :
    (timeline (pruneHistory gvt history) entity).entries =
      keptEntries gvt (timeline history entity).entries := by
  rw [timeline, pruneHistory, OrderedMap.find?_filterMapValues]
  unfold timeline
  cases history.find? entity with
  | none => rfl
  | some m => exact getD_pruneTimeline gvt m

/-- Pruning one of two histories keeps their agreement from any later stamp on. -/
theorem Agree.pruneHistory (h : Agree g history history') {gvt : TimeStamp} (hgvt : gvt ≤ g) :
    Agree g history (pruneHistory gvt history') := by
  intro entity
  have hentries := timeline_pruneHistory gvt history' entity
  obtain ⟨dropped, hdropped⟩ := keptEntries_suffix gvt (timeline history' entity).entries
  rw [← hentries] at hdropped
  rcases keptEntries_head gvt (timeline history' entity).entries with
    hsame | ⟨e, he, hle⟩
  · rw [OrderedMap.ext (hentries.trans hsame)]
    exact h entity
  · rw [← hentries] at he
    exact (h entity).drop hdropped.symm he (hle.trans hgvt)

/-! ## Events -/

/-- Handlers with the same effects and the same exception, that leave the two given states. -/
def Alike (answer : Effect → Option String) (state state' : OwnerHistory)
    (handler handler' : Handler OwnerHistory) : Prop :=
  ∃ effects what, handler.play answer = (effects, state, what) ∧
    handler'.play answer = (effects, state', what)

variable {answer : Effect → Option String} {state state' : OwnerHistory}
  {next next' : Handler OwnerHistory}

theorem Alike.done : Alike answer state state' (.done state) (.done state') :=
  ⟨[], none, rfl, rfl⟩

theorem Alike.throw (what : String) :
    Alike answer state state' (.throw state what) (.throw state' what) :=
  ⟨[], some what, rfl, rfl⟩

theorem Alike.orThrow (h : Alike answer state state' next next') (r : Option String) :
    Alike answer state state' (orThrow state next r) (orThrow state' next' r) := by
  cases r with
  | none => exact h
  | some what => exact .throw what

theorem Alike.send (h : Alike answer state state' next next') (ev : Event) :
    Alike answer state state' (.send ev (DirectoryLP.orThrow state next))
      (.send ev (DirectoryLP.orThrow state' next')) := by
  obtain ⟨effects, what, hplay, hplay'⟩ := h.orThrow (answer (.send ev))
  refine ⟨.send ev :: effects, what, ?_, ?_⟩
  · simp only [Handler.play, hplay]
  · simp only [Handler.play, hplay']

theorem Alike.emit (h : Alike answer state state' next next') (ts : TimeStamp) (payload : Payload) :
    Alike answer state state' (.emitCommitted ts payload (DirectoryLP.orThrow state next))
      (.emitCommitted ts payload (DirectoryLP.orThrow state' next')) := by
  obtain ⟨effects, what, hplay, hplay'⟩ := h.orThrow (answer (.emit ts payload))
  refine ⟨.emit ts payload :: effects, what, ?_, ?_⟩
  · simp only [Handler.play, hplay]
  · simp only [Handler.play, hplay']

theorem alike_logUpdate (ev : Event) (u : DirectoryUpdate) (oldOwner : LPId) :
    Alike answer state state' (logUpdate cfg state ev u oldOwner)
      (logUpdate cfg state' ev u oldOwner) := by
  unfold logUpdate
  split
  · exact Alike.done.emit _ _
  · exact Alike.done

theorem alike_announceUpdate (ev : Event) (u : DirectoryUpdate) (oldOwner : LPId) :
    Alike answer state state' (announceUpdate cfg state ev u oldOwner)
      (announceUpdate cfg state' ev u oldOwner) := by
  unfold announceUpdate
  split
  · exact (alike_logUpdate ev u oldOwner).send _
  · exact alike_logUpdate ev u oldOwner

/-- An event from `g` on shows no difference between histories that agree from `g` on. -/
theorem Agree.onEvent (h : Agree g history history') {ev : Event} (hev : g ≤ ev.ts)
    (hkind : ¬ isFossilCollect cfg ev) (answer : Effect → Option String) :
    ∃ next next', Alike answer next next' (onEvent cfg history ev) (onEvent cfg history' ev) ∧
      Agree g next next' := by
  unfold DirectoryLP.onEvent
  rw [if_neg hkind, if_neg hkind]
  split
  · unfold onUpdateOwner
    split
    · exact ⟨history, history', .throw _, h⟩
    · split
      · exact ⟨history, history', .throw _, h⟩
      · split
        · exact ⟨history, history', .throw _, h⟩
        · next u _ =>
          rw [h.ownerAt_eq cfg u.entity hev]
          exact ⟨_, _, alike_announceUpdate ev u _, h.setOwner u.entity ev.ts u.newOwner⟩
  · split
    · exact ⟨history, history', .throw _, h⟩
    · have hforward : forward cfg history ev = forward cfg history' ev := by
        unfold forward
        rw [h.ownerAt_eq cfg ev.target hev]
      rw [hforward]
      exact ⟨history, history', Alike.done.send _, h⟩

/-- A fossil collection has no effects, and prunes the history if it is understood. -/
theorem play_fossilCollect (history : OwnerHistory) {ev : Event} (hkind : isFossilCollect cfg ev)
    (answer : Effect → Option String) :
    ((onEvent cfg history ev).play answer).2.1 = history ∨
      ∃ decode gvt, cfg.decodeFossilCollect = some decode ∧ decode ev = .ok gvt ∧
        ((onEvent cfg history ev).play answer).2.1 = pruneHistory gvt history := by
  unfold DirectoryLP.onEvent
  rw [if_pos hkind]
  unfold onFossilCollect
  split
  · exact Or.inl rfl
  · next decode hdecode =>
    split
    · exact Or.inl rfl
    · split
      · exact Or.inl rfl
      · next gvt hgvt => exact Or.inr ⟨decode, gvt, hdecode, hgvt, rfl⟩

/-- The stamps of fossil collections are not after the events that follow them. -/
def CollectsBehind (cfg : DirectoryLPConfig) (evs : List Event) : Prop :=
  evs.Pairwise fun a b => isFossilCollect cfg a → ∀ decode gvt,
    cfg.decodeFossilCollect = some decode → decode a = .ok gvt → gvt ≤ b.ts

theorem Agree.trace (answer : Event → Effect → Option String) {evs : List Event}
    (h : Agree g history history') (hevs : ∀ ev ∈ evs, g ≤ ev.ts) (hbehind : CollectsBehind cfg evs) :
    (trace cfg answer history' evs).filter (fun t => ¬ isFossilCollect cfg t.1) =
      trace cfg answer history (evs.filter fun ev => ¬ isFossilCollect cfg ev) := by
  induction evs generalizing g history history' with
  | nil => rfl
  | cons ev evs ih =>
      obtain ⟨hfirst, hrest⟩ := List.pairwise_cons.mp hbehind
      have hlater : ∀ e ∈ evs, g ≤ e.ts := fun e he => hevs e (List.mem_cons_of_mem _ he)
      rw [DirectoryLP.trace]
      by_cases hkind : isFossilCollect cfg ev
      · rw [List.filter_cons_of_neg (by simpa using hkind),
          List.filter_cons_of_neg (by simpa using hkind)]
        rcases play_fossilCollect history' hkind (answer ev) with
          hsame | ⟨decode, gvt, hdecode, hgvt, hpruned⟩
        · rw [hsame]
          exact ih h hlater hrest
        · rw [hpruned]
          -- from the later of both stamps on, the pruned history still agrees
          refine ih ((h.mono (le_max_left g gvt)).pruneHistory (le_max_right g gvt))
            (fun e he => max_le (hlater e he) ?_) hrest
          exact hfirst e he hkind decode gvt hdecode hgvt
      · rw [List.filter_cons_of_pos (by simpa using hkind),
          List.filter_cons_of_pos (by simpa using hkind), DirectoryLP.trace]
        obtain ⟨next, next', ⟨effects, what, hplay, hplay'⟩, hagree⟩ :=
          h.onEvent (hevs ev List.mem_cons_self) hkind (answer ev)
        rw [hplay, hplay']
        exact congrArg _ (ih hagree hlater hrest)

/-- Further updates of an ownership history. -/
def setOwners (updates : List (EntityId × TimeStamp × LPId)) (history : OwnerHistory) :
    OwnerHistory :=
  updates.foldl (fun history (entity, ts, owner) => setOwner entity ts owner history) history

theorem Agree.setOwners (updates : List (EntityId × TimeStamp × LPId))
    (h : Agree g history history') :
    Agree g (setOwners updates history) (setOwners updates history') := by
  induction updates generalizing history history' with
  | nil => exact h
  | cons u updates ih => exact ih (h.setOwner u.1 u.2.1 u.2.2)

/-- Fossil collections behind all later events change nothing that the directory does, and pruning
changes no owner from its stamp on, now or after later updates. -/
theorem pruning_unobservable (cfg : DirectoryLPConfig) (answer : Event → Effect → Option String)
    (history : OwnerHistory) :
    (∀ evs : List Event, CollectsBehind cfg evs →
      (trace cfg answer history evs).filter (fun t => ¬ isFossilCollect cfg t.1) =
        trace cfg answer history (evs.filter fun ev => ¬ isFossilCollect cfg ev)) ∧
    (∀ gvt entity ts updates, gvt ≤ ts →
      ownerAt cfg (setOwners updates (pruneHistory gvt history)) entity ts =
        ownerAt cfg (setOwners updates history) entity ts) := by
  constructor
  · intro evs hbehind
    exact (Agree.refl ⟨0, 0⟩ history).trace answer (fun ev _ => TimeStamp.zero_le ev.ts) hbehind
  · intro gvt entity ts updates hts
    have hagree := (Agree.refl gvt history).pruneHistory le_rfl
    exact ((hagree.setOwners updates).ownerAt_eq cfg entity hts).symm

/-- A directory whose updates carry the new owner, and whose fossil collections carry a time. -/
def smallDirectory : DirectoryLPConfig where
  id := 20
  id_ne_zero := by decide
  stateEntityId := 1
  updateOwnerKind := 5001
  decodeUpdate := some fun ev =>
    .ok { entity := ev.target, newOwner := ((ev.payload.bytes.headD 0).toUInt32) }
  fossilCollectKind := 5002
  decodeFossilCollect := some fun ev => .ok ⟨(ev.payload.bytes.headD 0).toUInt64, 0⟩

/-- Three updates, a fossil collection between the last two of them, and two targeted events. -/
def smallTraffic : List Event :=
  [{ ts := ⟨1, 1⟩, dst := 20, target := 7, payload := ⟨5001, [3]⟩ },
   { ts := ⟨3, 1⟩, dst := 20, target := 7, payload := ⟨5001, [1]⟩ },
   { ts := ⟨4, 0⟩, dst := 20, payload := ⟨5002, [4]⟩ },
   { ts := ⟨4, 0⟩, dst := 20, target := 7, payload := ⟨9, []⟩ },
   { ts := ⟨5, 1⟩, dst := 20, target := 7, payload := ⟨5001, [2]⟩ },
   { ts := ⟨6, 1⟩, dst := 20, target := 7, payload := ⟨9, []⟩ }]

theorem collectsBehind_smallTraffic : CollectsBehind smallDirectory smallTraffic := by
  have hdecode : ∀ (a b : Event) (decode : Event → Except String TimeStamp) (gvt : TimeStamp),
      b.ts ≥ ⟨(a.payload.bytes.headD 0).toUInt64, 0⟩ →
      smallDirectory.decodeFossilCollect = some decode → decode a = .ok gvt → gvt ≤ b.ts := by
    rintro a b decode gvt hle ⟨⟩ ⟨⟩
    exact hle
  have hall : smallTraffic.Pairwise fun (a b : Event) => isFossilCollect smallDirectory a →
      b.ts ≥ ⟨(a.payload.bytes.headD 0).toUInt64, 0⟩ := by decide
  exact hall.imp fun h hkind decode gvt => hdecode _ _ decode gvt (h hkind)

/-- The fossil collection between the updates shows nowhere. -/
theorem pruning_unobservable_smallTraffic :
    (trace smallDirectory (fun _ _ => none) .empty smallTraffic).filter
        (fun t => ¬ isFossilCollect smallDirectory t.1) =
      trace smallDirectory (fun _ _ => none) .empty
        (smallTraffic.filter fun ev => ¬ isFossilCollect smallDirectory ev) ∧
    ownerAt smallDirectory (pruneHistory ⟨4, 0⟩
        (setOwner 7 ⟨3, 1⟩ 1 (setOwner 7 ⟨1, 1⟩ 3 .empty))) 7 ⟨4, 0⟩ =
      ownerAt smallDirectory (setOwner 7 ⟨3, 1⟩ 1 (setOwner 7 ⟨1, 1⟩ 3 .empty)) 7 ⟨4, 0⟩ :=
  ⟨(pruning_unobservable smallDirectory (fun _ _ => none) .empty).1 smallTraffic
      collectsBehind_smallTraffic,
    (pruning_unobservable smallDirectory (fun _ _ => none)
      (setOwner 7 ⟨3, 1⟩ 1 (setOwner 7 ⟨1, 1⟩ 3 .empty))).2 ⟨4, 0⟩ 7 ⟨4, 0⟩ [] le_rfl⟩

end DirectoryLP

end WarpSim

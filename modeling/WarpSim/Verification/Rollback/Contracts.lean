import WarpSim.Verification.Aoi.Queries
import WarpSim.Verification.Rollback.Restoring
import WarpSim.Verification.Snapshots

/-! # The contract of the built-in LPs

As long as fewer than 2^32 events come in for it, the counts in the snapshots of a directory LP and of an
area-of-interest LP are those of its state, and the LP keeps the snapshot contract. -/

namespace WarpSim

/-! ## The directory LP -/

namespace DirectoryLP

variable {cfg : DirectoryLPConfig} {entities : Finset EntityId} {stamps : Finset TimeStamp} {history : OwnerHistory}

/-- The history knows of no other entities, and of no owners from another stamp on. -/
structure Within (entities : Finset EntityId) (stamps : Finset TimeStamp) (history : OwnerHistory) : Prop where
  entity : ∀ e ∈ history.entries, e.1 ∈ entities
  stamp : ∀ e ∈ history.entries, ∀ entry ∈ e.2.entries, entry.1 ∈ stamps

theorem Within.small (h : Within entities stamps history) (hentities : entities.card < 2 ^ 32)
    (hstamps : stamps.card < 2 ^ 32) : Small history :=
  ⟨(OrderedMap.length_le_card h.entity).trans_lt hentities,
    fun e he => (OrderedMap.length_le_card (h.stamp e he)).trans_lt hstamps⟩

theorem Within.timeline (h : Within entities stamps history) (entity : EntityId) :
    ∀ entry ∈ (timeline history entity).entries, entry.1 ∈ stamps := by
  unfold DirectoryLP.timeline
  cases hfind : history.find? entity with
  | none => simp [OrderedMap.empty]
  | some found => exact h.stamp (entity, found) (OrderedMap.find?_eq_some_iff.mp hfind)

theorem Within.setOwner (h : Within entities stamps history) {entity : EntityId} {ts : TimeStamp} (owner : LPId)
    (hentity : entity ∈ entities) (hts : ts ∈ stamps) : Within entities stamps (setOwner entity ts owner history) := by
  have hentry : ∀ entry ∈ ((DirectoryLP.timeline history entity).insert ts owner).entries, entry.1 ∈ stamps := by
    intro entry hentry
    rcases (OrderedMap.mem_insertEntry (OrderedMap.sorted _)).mp hentry with rfl | ⟨hold, -⟩
    · exact hts
    · exact h.timeline entity entry hold
  constructor
  · intro e he
    rcases (OrderedMap.mem_insertEntry (OrderedMap.sorted _)).mp he with rfl | ⟨hold, -⟩
    · exact hentity
    · exact h.entity e hold
  · intro e he
    rcases (OrderedMap.mem_insertEntry (OrderedMap.sorted _)).mp he with rfl | ⟨hold, -⟩
    · exact hentry
    · exact h.stamp e hold

theorem Within.pruneHistory (h : Within entities stamps history) (gvt : TimeStamp) :
    Within entities stamps (pruneHistory gvt history) := by
  have hfrom : ∀ e ∈ (DirectoryLP.pruneHistory gvt history).entries,
      ∃ old ∈ history.entries, e.1 = old.1 ∧ e.2.entries.Sublist old.2.entries := by
    intro e he
    obtain ⟨old, hold, hkept⟩ := List.mem_filterMap.mp he
    obtain ⟨pruned, hpruned, rfl⟩ := Option.map_eq_some_iff.mp hkept
    refine ⟨old, hold, rfl, ?_⟩
    unfold pruneTimeline at hpruned
    dsimp only at hpruned
    split at hpruned
    · cases hpruned
    · cases hpruned
      exact (keptEntries_suffix gvt old.2.entries).sublist
  constructor
  · intro e he
    obtain ⟨old, hold, hkey, -⟩ := hfrom e he
    rw [hkey]
    exact h.entity old hold
  · intro e he entry hentry
    obtain ⟨old, hold, -, hsub⟩ := hfrom e he
    exact h.stamp old hold entry (hsub.subset hentry)

/-- The entity of an update that the directory takes the event for. -/
def updatedEntity (cfg : DirectoryLPConfig) (ev : Event) : Option EntityId :=
  cfg.decodeUpdate.bind fun decodeUpdate => (decodeUpdate ev).toOption.map (·.entity)

section

variable {Valid : OwnerHistory → Prop} {start : OwnerHistory}

/-- Once the snapshot has been taken, the handler may leave any valid history. -/
theorem requests_orThrow {next : Handler OwnerHistory}
    (h : next.Requests Valid (fun state (_ : Unit) => state) (fun _ => ()) start [()]) (r : Option String) :
    (orThrow history next r).Requests Valid (fun state (_ : Unit) => state) (fun _ => ()) start [()] := by
  cases r with
  | none => exact h
  | some what => exact fun i hi => absurd (List.mem_singleton_self i) hi

theorem requests_announceUpdate (hvalid : Valid history) (ev : Event) (u : DirectoryUpdate) (oldOwner : LPId) :
    (announceUpdate cfg history ev u oldOwner).Requests Valid (fun state (_ : Unit) => state) (fun _ => ())
      start [()] := by
  have hdone : (Handler.done history).Requests Valid (fun state (_ : Unit) => state) (fun _ => ()) start [()] :=
    ⟨hvalid, fun i hi => absurd (List.mem_singleton_self i) hi⟩
  have hlog : (logUpdate cfg history ev u oldOwner).Requests Valid (fun state (_ : Unit) => state) (fun _ => ())
      start [()] := by
    unfold logUpdate
    split
    · exact requests_orThrow hdone
    · exact hdone
  unfold announceUpdate
  split
  · exact requests_orThrow hlog
  · exact hlog

end

/-- A directory asks for a snapshot before it prunes or updates its history. -/
theorem Within.requests (h : Within entities stamps history) {ev : Event}
    (hentity : ∀ entity, updatedEntity cfg ev = some entity → entity ∈ entities) (hts : ev.ts ∈ stamps) :
    (onEvent cfg history ev).Requests (Within entities stamps) (fun state (_ : Unit) => state) (fun _ => ())
      history [] := by
  unfold onEvent
  split
  · unfold onFossilCollect
    repeat' split
    · exact fun _ _ => rfl
    · exact fun _ _ => rfl
    · exact fun _ _ => rfl
    · next gvt _ =>
      exact ⟨h, fun _ _ => rfl, h.pruneHistory gvt, fun i hi => absurd (List.mem_singleton_self i) hi⟩
  · split
    · unfold onUpdateOwner
      split
      · exact fun _ _ => rfl
      · next decodeUpdate hdecoder =>
        split
        · exact fun _ _ => rfl
        · split
          · exact fun _ _ => rfl
          · next u hu =>
            have hmem := hentity u.entity (by simp [updatedEntity, hdecoder, hu, Except.toOption])
            exact ⟨h, fun _ _ => rfl, requests_announceUpdate (h.setOwner u.newOwner hmem hts) ..⟩
    · split
      · exact fun _ _ => rfl
      · intro r
        cases r with
        | none => exact ⟨h, fun _ _ => rfl⟩
        | some what => exact fun _ _ => rfl

end DirectoryLP

/-- A directory LP keeps the contract while fewer than 2^32 events come in for it. -/
theorem directoryLP_contract (cfg : DirectoryLPConfig) {events : List Event} (hfew : events.length < 2 ^ 32) :
    SnapshotContract (directoryLP cfg) (· ∈ events) := by
  let entities := (events.filterMap (DirectoryLP.updatedEntity cfg)).toFinset
  let stamps := (events.map (·.ts)).toFinset
  have hentities : entities.card < 2 ^ 32 :=
    ((List.toFinset_card_le _).trans (List.length_filterMap_le ..)).trans_lt hfew
  have hstamps : stamps.card < 2 ^ 32 :=
    ((List.toFinset_card_le _).trans (List.length_map _).le).trans_lt hfew
  refine .whole (DirectoryLP.Within entities stamps) rfl ?_ ?_ ?_
  · have hempty : DirectoryLP.Within entities stamps DirectoryLP.noHistory := by
      constructor <;> simp [DirectoryLP.noHistory, OrderedMap.empty]
    rintro state (_ | ⟨⟨⟩⟩)
    · exact hempty
    · exact hempty
  · intro a b _ hb
    change (DirectoryLP.loadState (DirectoryLP.saveState b)).toOption.getD a = b
    rw [(DirectoryLP.yields_loadState (hb.small hentities hstamps)).snapshot.1]
    rfl
  · intro history ev h hev
    refine h.requests (fun entity hentity => ?_) ?_
    · exact List.mem_toFinset.mpr (List.mem_filterMap.mpr ⟨ev, hev, hentity⟩)
    · exact List.mem_toFinset.mpr (List.mem_map_of_mem hev)

/-! ## The area-of-interest LP -/

section

open scoped DirectoryLP

variable {K : Type} [Add K] [Sub K] [Mul K] [Zero K] [LE K] [LT K] [BEq K] [DecidableLE K] [DecidableLT K]

/-- The LP asks for a snapshot before it moves an entity. -/
theorem AoiLP.requests_onEvent (value : UInt64 → K) (cfg : AoiLP.Config) (padding : UInt32)
    {entities : Finset EntityId} {positions : AoiLP.Positions} (h : ∀ e ∈ positions.entries, e.1 ∈ entities)
    {ev : Event} (hentity : ∀ a, AoiLP.decodeUpdate ev.payload.bytes = .ok a → a.entity ∈ entities) :
    (AoiLP.onEvent value cfg padding positions ev).Requests (fun state => ∀ e ∈ state.entries, e.1 ∈ entities)
      (fun state (_ : Unit) => state) (fun _ => ()) positions [] := by
  unfold AoiLP.onEvent
  split
  · unfold AoiLP.onUpdate
    split
    · exact fun _ _ => rfl
    · next a ha =>
      have hmoved : ∀ e ∈ (positions.insert a.entity a.pos).entries, e.1 ∈ entities := by
        intro e he
        rcases (OrderedMap.mem_insertEntry (OrderedMap.sorted _)).mp he with rfl | ⟨hold, -⟩
        · exact hentity a ha
        · exact h e hold
      exact ⟨h, fun _ _ => rfl, hmoved, fun i hi => absurd (List.mem_singleton_self i) hi⟩
  · split
    · unfold AoiLP.onQuery
      split
      · exact fun _ _ => rfl
      · split
        · intro r
          cases r with
          | none => exact ⟨h, fun _ _ => rfl⟩
          | some what => exact fun _ _ => rfl
        · exact fun _ _ => rfl
    · exact ⟨h, fun _ _ => rfl⟩

/-- An area-of-interest LP keeps the contract while fewer than 2^32 events come in for it. -/
theorem aoiLP_contract (value : UInt64 → K) (cfg : AoiLP.Config) (padding : UInt32) {events : List Event}
    (hfew : events.length < 2 ^ 32) : SnapshotContract (aoiLP value cfg padding) (· ∈ events) := by
  have hentities : (AoiLP.updatedEntities events).card < 2 ^ 32 :=
    ((List.toFinset_card_le _).trans (List.length_filterMap_le ..)).trans_lt hfew
  refine .whole (fun state => ∀ e ∈ state.entries, e.1 ∈ AoiLP.updatedEntities events) rfl ?_ ?_ ?_
  · have hempty : ∀ e ∈ AoiLP.noPositions.entries, e.1 ∈ AoiLP.updatedEntities events := by
      simp [AoiLP.noPositions, OrderedMap.empty]
    rintro state (_ | ⟨⟨⟩⟩)
    · exact hempty
    · exact hempty
  · intro a b _ hb
    change (AoiLP.loadState (AoiLP.saveState b)).toOption.getD a = b
    rw [(AoiLP.yields_loadState ((OrderedMap.length_le_card hb).trans_lt hentities)).snapshot.1]
    rfl
  · intro positions ev h hev
    refine AoiLP.requests_onEvent value cfg padding h fun a ha => ?_
    exact List.mem_toFinset.mpr (List.mem_filterMap.mpr ⟨ev, hev, by simp [ha, Except.toOption]⟩)

end

end WarpSim

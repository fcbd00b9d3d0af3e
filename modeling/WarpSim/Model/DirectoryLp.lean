import WarpSim.Library.OrderedMap
import WarpSim.Model.Determinism
import WarpSim.Model.LogicalProcess

/-! # The directory LP -/

namespace WarpSim

namespace DirectoryLP

/-- The order of `std::uint64_t`, by which `std::map` keeps the entities. -/
scoped instance linearOrderUInt64 : LinearOrder UInt64 where
  le_refl := UInt64.le_refl
  le_trans _ _ _ := UInt64.le_trans
  lt_iff_le_not_ge a b := by
    rw [UInt64.lt_iff_toNat_lt, UInt64.le_iff_toNat_le, UInt64.le_iff_toNat_le]
    omega
  le_antisymm _ _ := UInt64.le_antisymm
  le_total := UInt64.le_total
  toDecidableLE := inferInstance
  toDecidableEq := inferInstance
  toDecidableLT := inferInstance
  min_def _ _ := rfl
  max_def _ _ := rfl
  compare_eq_compareOfLessAndEq _ _ := rfl

end DirectoryLP

structure DirectoryMigrationLog where
  entity : EntityId
  oldOwner : LPId
  newOwner : LPId
  sentInstall : UInt8
deriving DecidableEq

/-- `bytes_from_trivially_copyable` on a log record, its padding being zero. -/
def DirectoryMigrationLog.bytes (log : DirectoryMigrationLog) : ByteBuffer :=
  trivialBytes 8 log.entity ++ trivialBytes 4 log.oldOwner.toUInt64 ++
    trivialBytes 4 log.newOwner.toUInt64 ++ [log.sentInstall] ++ List.replicate 7 0

structure DirectoryUpdate where
  entity : EntityId := 0
  newOwner : LPId := 0
  sendInstall : Bool := false
  installPayload : Payload := {}

/-- `DirectoryLPConfig`; the constructor of `DirectoryLP` refuses the id 0. The decoders are model
code and may throw. -/
structure DirectoryLPConfig where
  id : LPId
  id_ne_zero : id ≠ 0
  stateEntityId : EntityId := 0
  updateOwnerKind : UInt32 := 0
  decodeUpdate : Option (Event → Except String DirectoryUpdate) := none
  migrationLogKind : UInt32 := 0
  fossilCollectKind : UInt32 := 0
  decodeFossilCollect : Option (Event → Except String TimeStamp) := none
  defaultOwner : Option (EntityId → TimeStamp → LPId) := none

/-- The owners of one entity, each from its stamp on. -/
abbrev Timeline := OrderedMap TimeStamp LPId

open DirectoryLP in
abbrev OwnerHistory := OrderedMap EntityId Timeline

namespace DirectoryLP

/-! ## The ownership history -/

/-- The history of a new directory. -/
def noHistory : OwnerHistory := .empty

/-- The timeline of an entity, empty where the history has none. -/
def timeline (history : OwnerHistory) (entity : EntityId) : Timeline :=
  (history.find? entity).getD .empty

def defaultOwnerOf (cfg : DirectoryLPConfig) (entity : EntityId) (ts : TimeStamp) : LPId :=
  match cfg.defaultOwner with
  | some defaultOwner => defaultOwner entity ts
  | none => 0

/-- `owner_at_`. -/
def ownerAt (cfg : DirectoryLPConfig) (history : OwnerHistory) (entity : EntityId)
    (ts : TimeStamp) : LPId :=
  match (timeline history entity).floor? ts with
  | some (_, owner) => owner
  | none => defaultOwnerOf cfg entity ts

/-- `m_ownerHistory[entity][ts] = owner`. -/
def setOwner (entity : EntityId) (ts : TimeStamp) (owner : LPId) (history : OwnerHistory) :
    OwnerHistory :=
  history.insert entity ((timeline history entity).insert ts owner)

/-- The entries of a timeline that pruning keeps: those from `gvt` on, and the last one before
`gvt` unless there is an entry at `gvt`. -/
def keptEntries (gvt : TimeStamp) (entries : List (TimeStamp × LPId)) : List (TimeStamp × LPId) :=
  let before := entries.takeWhile fun e => e.1 < gvt
  let fromGvt := entries.dropWhile fun e => e.1 < gvt
  match before.getLast? with
  | none => entries
  | some keep =>
    if fromGvt.head?.map Prod.fst = some gvt then fromGvt else keep :: fromGvt

theorem keptEntries_suffix (gvt : TimeStamp) (entries : List (TimeStamp × LPId)) :
    keptEntries gvt entries <:+ entries := by
  have hsplit := List.takeWhile_append_dropWhile (p := fun e => decide (e.1 < gvt)) (l := entries)
  unfold keptEntries
  dsimp only
  split
  · exact List.suffix_refl _
  · next keep hkeep =>
    obtain ⟨init, hinit⟩ := List.getLast?_eq_some_iff.mp hkeep
    split
    · exact List.dropWhile_suffix _
    · refine ⟨init, ?_⟩
      conv_rhs => rw [← hsplit, hinit]
      simp

/-- `prune_history_` on one timeline; a timeline left empty is erased. -/
def pruneTimeline (gvt : TimeStamp) (timeline : Timeline) : Option Timeline :=
  let pruned := timeline.restrict (keptEntries gvt timeline.entries)
    (keptEntries_suffix gvt timeline.entries).sublist
  if pruned.entries.isEmpty then none else some pruned

/-- `prune_history_`. -/
def pruneHistory (gvt : TimeStamp) (history : OwnerHistory) : OwnerHistory :=
  history.filterMapValues (pruneTimeline gvt)

/-! ## `on_event` -/

/-- Continue where a call returns, and let its exception pass. -/
def orThrow (state : OwnerHistory) (next : Handler OwnerHistory) :
    Option String → Handler OwnerHistory
  | none => next
  | some what => .throw state what

def isFossilCollect (cfg : DirectoryLPConfig) (ev : Event) : Prop :=
  cfg.fossilCollectKind ≠ 0 ∧ ev.payload.kind = cfg.fossilCollectKind

def isUpdateOwner (cfg : DirectoryLPConfig) (ev : Event) : Prop :=
  cfg.updateOwnerKind ≠ 0 ∧ ev.payload.kind = cfg.updateOwnerKind

instance (cfg : DirectoryLPConfig) (ev : Event) : Decidable (isFossilCollect cfg ev) :=
  inferInstanceAs (Decidable (_ ∧ _))

instance (cfg : DirectoryLPConfig) (ev : Event) : Decidable (isUpdateOwner cfg ev) :=
  inferInstanceAs (Decidable (_ ∧ _))

def onFossilCollect (cfg : DirectoryLPConfig) (history : OwnerHistory) (ev : Event) :
    Handler OwnerHistory :=
  match cfg.decodeFossilCollect with
  | none => .throw history "DirectoryLP: fossilCollectKind set but decodeFossilCollect missing"
  | some decodeFossilCollect =>
    if cfg.stateEntityId = 0 then
      .throw history "DirectoryLP: stateEntityId required for fossil collection"
    else
      match decodeFossilCollect ev with
      | .error what => .throw history what
      | .ok gvt => .requestWrite history cfg.stateEntityId (.done (pruneHistory gvt history))

/-- The install that announces an update to the new owner. -/
def install (cfg : DirectoryLPConfig) (ev : Event) (u : DirectoryUpdate) : Event :=
  { ts := ev.ts, src := cfg.id, dst := u.newOwner, target := u.entity, payload := u.installPayload }

/-- The committed output that logs an update. -/
def migrationLog (cfg : DirectoryLPConfig) (u : DirectoryUpdate) (oldOwner : LPId) : Payload :=
  { kind := cfg.migrationLogKind
    bytes := DirectoryMigrationLog.bytes
      { entity := u.entity
        oldOwner := oldOwner
        newOwner := u.newOwner
        sentInstall := if u.sendInstall then 1 else 0 } }

/-- The committed output of an update, where one is configured. -/
def logUpdate (cfg : DirectoryLPConfig) (updated : OwnerHistory) (ev : Event) (u : DirectoryUpdate)
    (oldOwner : LPId) : Handler OwnerHistory :=
  if cfg.migrationLogKind ≠ 0 then
    .emitCommitted ev.ts (migrationLog cfg u oldOwner) (orThrow updated (.done updated))
  else .done updated

/-- What follows once the update `u` is in the history, now `updated`. -/
def announceUpdate (cfg : DirectoryLPConfig) (updated : OwnerHistory) (ev : Event)
    (u : DirectoryUpdate) (oldOwner : LPId) : Handler OwnerHistory :=
  if u.sendInstall then
    .send (install cfg ev u) (orThrow updated (logUpdate cfg updated ev u oldOwner))
  else logUpdate cfg updated ev u oldOwner

def onUpdateOwner (cfg : DirectoryLPConfig) (history : OwnerHistory) (ev : Event) :
    Handler OwnerHistory :=
  match cfg.decodeUpdate with
  | none => .throw history "DirectoryLP: updateOwnerKind set but decodeUpdate missing"
  | some decodeUpdate =>
    if cfg.stateEntityId = 0 then
      .throw history "DirectoryLP: stateEntityId required for updates"
    else
      match decodeUpdate ev with
      | .error what => .throw history what
      | .ok u =>
        .requestWrite history cfg.stateEntityId
          (announceUpdate cfg (setOwner u.entity ev.ts u.newOwner history) ev u
            (ownerAt cfg history u.entity ev.ts))

/-- The copy of a targeted event that goes to the owner. Its uid and sequence number are left to
`send`. -/
def forward (cfg : DirectoryLPConfig) (history : OwnerHistory) (ev : Event) : Event :=
  { ev with
    src := cfg.id
    dst := ownerAt cfg history ev.target ev.ts
    uid := 0
    ts := { ev.ts with sequence := 0 } }

/-- `on_event`. -/
def onEvent (cfg : DirectoryLPConfig) (history : OwnerHistory) (ev : Event) :
    Handler OwnerHistory :=
  if isFossilCollect cfg ev then onFossilCollect cfg history ev
  else if isUpdateOwner cfg ev then onUpdateOwner cfg history ev
  else if ev.target = 0 then .throw history "DirectoryLP: unexpected non-target event"
  else .send (forward cfg history ev) (orThrow history (.done history))

/-! ## Saving and loading -/

def saveTimeline (timeline : Timeline) : ByteBuffer :=
  trivialBytes 4 (UInt64.ofNat timeline.entries.length) ++
    timeline.entries.flatMap fun (ts, owner) =>
      trivialBytes 8 ts.time ++ trivialBytes 8 ts.sequence ++ trivialBytes 4 owner.toUInt64

/-- `save_state`. -/
def saveState (history : OwnerHistory) : ByteBuffer :=
  trivialBytes 4 (UInt64.ofNat history.entries.length) ++
    history.entries.flatMap fun (entity, timeline) => trivialBytes 8 entity ++ saveTimeline timeline

/-- The `read` of `load_state`: the little-endian word in the next `n` bytes. -/
def readWord (n : ℕ) (bytes : ByteBuffer) : Except String (UInt64 × ByteBuffer) :=
  if bytes.length < n then .error "DirectoryLP: bad state"
  else .ok ((bytes.take n).foldr (fun b word => (word <<< 8) ||| b.toUInt64) 0, bytes.drop n)

/-- `emplace`, which leaves an existing entry alone. -/
def emplace (timeline : Timeline) (ts : TimeStamp) (owner : LPId) : Timeline :=
  match timeline.find? ts with
  | some _ => timeline
  | none => timeline.insert ts owner

/-- The inner loop of `load_state`. -/
def loadEntries : ℕ → Timeline → ByteBuffer → Except String (Timeline × ByteBuffer)
  | 0, timeline, bytes => .ok (timeline, bytes)
  | n + 1, timeline, bytes => do
    let (time, bytes) ← readWord 8 bytes
    let (sequence, bytes) ← readWord 8 bytes
    let (owner, bytes) ← readWord 4 bytes
    loadEntries n (emplace timeline ⟨time, sequence⟩ owner.toUInt32) bytes

/-- The outer loop of `load_state`. -/
def loadEntities : ℕ → OwnerHistory → ByteBuffer → Except String OwnerHistory
  | 0, history, _ => .ok history
  | n + 1, history, bytes => do
    let (entity, bytes) ← readWord 8 bytes
    let (count, bytes) ← readWord 4 bytes
    let (entries, bytes) ← loadEntries count.toNat (timeline history entity) bytes
    loadEntities n (history.insert entity entries) bytes

/-- `load_state`, which starts from an empty history. -/
def loadState (bytes : ByteBuffer) : Except String OwnerHistory := do
  let (count, bytes) ← readWord 4 bytes
  loadEntities count.toNat .empty bytes

end DirectoryLP

/-- The class `DirectoryLP`. A state that cannot be loaded makes `load_state` throw; the kernel
loads only what the LP has saved. -/
def directoryLP (cfg : DirectoryLPConfig) : LogicalProcess OwnerHistory where
  init := DirectoryLP.noHistory
  onEvent := DirectoryLP.onEvent cfg
  saveState := DirectoryLP.saveState
  loadState history bytes := (DirectoryLP.loadState bytes).toOption.getD history

end WarpSim

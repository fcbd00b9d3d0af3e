import WarpSim.Model.DirectoryLp
import WarpSim.Model.Trivial

/-! # The area-of-interest LP

A `double` is the 64 bits of its representation. What number it stands for, and how numbers are added,
multiplied and compared, is left open. -/

namespace WarpSim

structure Vec3 (K : Type) where
  x : K
  y : K
  z : K
deriving DecidableEq

def Vec3.map {K L : Type} (f : K → L) (v : Vec3 K) : Vec3 L := ⟨f v.x, f v.y, f v.z⟩

section

variable {K : Type} [Add K] [Sub K] [Mul K]

def dot (a b : Vec3 K) : K := a.x * b.x + a.y * b.y + a.z * b.z

def sub (a b : Vec3 K) : Vec3 K := ⟨a.x - b.x, a.y - b.y, a.z - b.z⟩

def norm2 (a : Vec3 K) : K := dot a a

end

namespace AoiLP

/-! ## Arguments -/

/-- `Config`; the constructor of `AoiLP` refuses ids and kinds that are 0. -/
structure Config where
  id : LPId
  stateEntityId : EntityId
  updateKind : UInt32
  queryKind : UInt32
  resultKind : UInt32
  excludeSelf : Bool := true
  id_ne_zero : id ≠ 0
  stateEntityId_ne_zero : stateEntityId ≠ 0
  kinds_ne_zero : updateKind ≠ 0 ∧ queryKind ≠ 0 ∧ resultKind ≠ 0

structure UpdateArgs where
  entity : EntityId
  pos : Vec3 UInt64

/-- The shape is an enumeration over 32-bit words, in which every word is a value. -/
structure QueryArgs where
  requestId : UInt64
  self : EntityId
  shape : UInt32
  origin : Vec3 UInt64
  radius : UInt64
  direction : Vec3 UInt64
  range : UInt64
  cosHalfAngle : UInt64

def sphere : UInt32 := 1

def cone : UInt32 := 2

def loadVec3 (bytes : ByteBuffer) : Vec3 UInt64 :=
  ⟨load64 bytes, load64 (bytes.drop 8), load64 (bytes.drop 16)⟩

/-- `decode_trivial_`. -/
def decodeUpdate (bytes : ByteBuffer) : Except String UpdateArgs :=
  if bytes.length ≠ 32 then
    .error "AoiLP: bad payload size"
  else
    .ok { entity := load64 bytes, pos := loadVec3 (bytes.drop 8) }

/-- `decode_trivial_`. Four bytes of padding follow the shape. -/
def decodeQuery (bytes : ByteBuffer) : Except String QueryArgs :=
  if bytes.length ≠ 96 then
    .error "AoiLP: bad payload size"
  else
    .ok {
      requestId := load64 bytes
      self := load64 (bytes.drop 8)
      shape := load32 (bytes.drop 16)
      origin := loadVec3 (bytes.drop 24)
      radius := load64 (bytes.drop 48)
      direction := loadVec3 (bytes.drop 56)
      range := load64 (bytes.drop 80)
      cosHalfAngle := load64 (bytes.drop 88) }

/-! ## Shapes -/

section

variable {K : Type} [Add K] [Sub K] [Mul K] [Zero K] [LE K] [LT K] [BEq K] [DecidableLE K] [DecidableLT K]

def inSphere (origin : Vec3 K) (radius : K) (pos : Vec3 K) : Bool :=
  let r2 := radius * radius
  let d := sub pos origin
  norm2 d ≤ r2

def inCone (origin direction : Vec3 K) (range cosHalfAngle : K) (pos : Vec3 K) : Bool :=
  let range2 := range * range
  let d := sub pos origin
  let d2 := norm2 d
  if range2 < d2 then false
  else
    let dd := dot d direction
    if dd ≤ 0 then false
    else
      let dir2 := norm2 direction
      if dir2 == 0 then false
      else
        let lhs := dd * dd
        let rhs := (cosHalfAngle * cosHalfAngle) * d2 * dir2
        rhs ≤ lhs

/-- The test of a query, where `value` is the number that a `double` stands for. -/
def inShape (value : UInt64 → K) (q : QueryArgs) (pos : Vec3 UInt64) : Bool :=
  if q.shape = sphere then inSphere (q.origin.map value) (value q.radius) (pos.map value)
  else
    inCone (q.origin.map value) (q.direction.map value) (value q.range) (value q.cosHalfAngle)
      (pos.map value)

end

/-! ## Results -/

structure Result where
  requestId : UInt64
  entities : List EntityId
deriving DecidableEq

/-- `encode_result_`. What the four bytes of padding in the header hold is not determined. -/
def encodeResult (padding : UInt32) (requestId : UInt64) (entities : List EntityId) : ByteBuffer :=
  bytes64 requestId ++ bytes32 (UInt32.ofNat entities.length) ++ bytes32 padding ++ entities.flatMap bytes64

/-- `memcpy` of `n` entities. -/
def loadEntities : ℕ → ByteBuffer → List EntityId
  | 0, _ => []
  | n + 1, bytes => load64 bytes :: loadEntities n (bytes.drop 8)

/-- `decode_result_bytes`. -/
def decodeResultBytes (bytes : ByteBuffer) : Except String Result :=
  if bytes.length < 16 then
    .error "AoiLP: bad result payload"
  else
    let count := load32 (bytes.drop 8)
    if bytes.length ≠ 16 + count.toNat * 8 then
      .error "AoiLP: bad result payload size"
    else
      .ok { requestId := load64 bytes, entities := loadEntities count.toNat (bytes.drop 16) }

/-! ## `on_event` -/

open scoped DirectoryLP

abbrev Positions := OrderedMap EntityId (Vec3 UInt64)

/-- The map of a new LP. -/
def noPositions : Positions := .empty

/-- Neither loop looks at the querying entity where it is excluded. -/
def skips (cfg : Config) (q : QueryArgs) (entity : EntityId) : Bool :=
  cfg.excludeSelf && q.self != 0 && entity == q.self

/-- The entities that the two loops collect, sorted. -/
def hits (cfg : Config) (passes : Vec3 UInt64 → Bool) (q : QueryArgs) (positions : Positions) :
    List EntityId :=
  ((positions.entries.filter fun e => !skips cfg q e.1 && passes e.2).map Prod.fst).mergeSort (· ≤ ·)

/-- The event that answers a query. -/
def reply (cfg : Config) (padding : UInt32) (ev : Event) (q : QueryArgs) (entities : List EntityId) : Event :=
  { ts := ev.ts
    src := cfg.id
    dst := ev.src
    target := 0
    payload := { kind := cfg.resultKind, bytes := encodeResult padding q.requestId entities } }

section

variable {K : Type} [Add K] [Sub K] [Mul K] [Zero K] [LE K] [LT K] [BEq K] [DecidableLE K] [DecidableLT K]

def onUpdate (cfg : Config) (positions : Positions) (ev : Event) : Handler Positions :=
  match decodeUpdate ev.payload.bytes with
  | .error what => .throw positions what
  | .ok a => .requestWrite positions cfg.stateEntityId (.done (positions.insert a.entity a.pos))

def onQuery (value : UInt64 → K) (cfg : Config) (padding : UInt32) (positions : Positions) (ev : Event) :
    Handler Positions :=
  match decodeQuery ev.payload.bytes with
  | .error what => .throw positions what
  | .ok q =>
    if q.shape = sphere ∨ q.shape = cone then
      .send (reply cfg padding ev q (hits cfg (inShape value q) q positions)) fun
        | none => .done positions
        | some what => .throw positions what
    else .throw positions "AoiLP: unknown query shape"

/-- `on_event`, which ignores events of other kinds. -/
def onEvent (value : UInt64 → K) (cfg : Config) (padding : UInt32) (positions : Positions) (ev : Event) :
    Handler Positions :=
  if ev.payload.kind = cfg.updateKind then onUpdate cfg positions ev
  else if ev.payload.kind = cfg.queryKind then onQuery value cfg padding positions ev
  else .done positions

end

/-! ## Saving and loading -/

/-- `save_state`. -/
def saveState (positions : Positions) : ByteBuffer :=
  bytes32 (UInt32.ofNat positions.entries.length) ++ positions.entries.flatMap fun (entity, pos) =>
    bytes64 entity ++ (bytes64 pos.x ++ bytes64 pos.y ++ bytes64 pos.z)

/-- The `read` of `load_state`, for a value of `n` bytes. -/
def read {α : Type} (n : ℕ) (load : ByteBuffer → α) (bytes : ByteBuffer) : Except String (α × ByteBuffer) :=
  if bytes.length < n then .error "AoiLP: bad state" else .ok (load (bytes.take n), bytes.drop n)

/-- The loop of `load_state`. -/
def loadPositions : ℕ → Positions → ByteBuffer → Except String Positions
  | 0, positions, _ => .ok positions
  | n + 1, positions, bytes => do
    let (entity, bytes) ← read 8 load64 bytes
    let (pos, bytes) ← read 24 loadVec3 bytes
    loadPositions n (positions.emplace entity pos) bytes

/-- `load_state`, which clears the map first. -/
def loadState (bytes : ByteBuffer) : Except String Positions := do
  let (count, bytes) ← read 4 load32 bytes
  loadPositions count.toNat noPositions bytes

end AoiLP

/-- `AoiClient::decode_result`. -/
def AoiClient.decodeResult (p : Payload) : Except String AoiLP.Result := AoiLP.decodeResultBytes p.bytes

/-- The class `AoiLP`. A state that cannot be loaded makes `load_state` throw; the kernel loads only what the
LP has saved. -/
def aoiLP {K : Type} [Add K] [Sub K] [Mul K] [Zero K] [LE K] [LT K] [BEq K] [DecidableLE K] [DecidableLT K]
    (value : UInt64 → K) (cfg : AoiLP.Config) (padding : UInt32) : LogicalProcess AoiLP.Positions where
  init := AoiLP.noPositions
  onEvent := AoiLP.onEvent value cfg padding
  saveState := AoiLP.saveState
  loadState positions bytes := (AoiLP.loadState bytes).toOption.getD positions

end WarpSim

import WarpSim.Model.DirectoryLp
import WarpSim.Model.Trivial

/-! # The payloads of optimistic migration -/

namespace WarpSim

namespace OptimisticMigration

def defaultUpdateOwnerKind : UInt32 := 42001

def defaultInstallKind : UInt32 := 42002

/-- 16 bytes without padding. -/
structure UpdateOwnerHeader where
  entity : EntityId := 0
  newOwner : LPId := 0
  stateBytes : UInt32 := 0

def UpdateOwnerHeader.bytes (h : UpdateOwnerHeader) : ByteBuffer :=
  bytes64 h.entity ++ bytes32 h.newOwner ++ bytes32 h.stateBytes

/-- `memcpy` of the first 16 bytes into a header. -/
def UpdateOwnerHeader.load (bytes : ByteBuffer) : UpdateOwnerHeader :=
  { entity := load64 bytes
    newOwner := load32 (bytes.drop 8)
    stateBytes := load32 (bytes.drop 12) }

/-- 16 bytes, of which the last four are padding. -/
structure InstallHeader where
  entity : EntityId := 0
  stateBytes : UInt32 := 0

/-- What the padding holds is not determined. -/
def InstallHeader.bytes (padding : UInt32) (h : InstallHeader) : ByteBuffer :=
  bytes64 h.entity ++ bytes32 h.stateBytes ++ bytes32 padding

def InstallHeader.load (bytes : ByteBuffer) : InstallHeader :=
  { entity := load64 bytes
    stateBytes := load32 (bytes.drop 8) }

def makeUpdateOwnerPayload (entity : EntityId) (newOwner : LPId) (state : ByteBuffer) :
    Except String Payload :=
  if state.length > 0xffffffff then
    .error "optimistic_migration: state too large"
  else
    .ok {
      kind := defaultUpdateOwnerKind
      bytes := UpdateOwnerHeader.bytes ⟨entity, newOwner, UInt32.ofNat state.length⟩ ++ state }

def decodeUpdateOwnerAsDirectoryUpdate (padding : UInt32) (ev : Event) : Except String DirectoryUpdate :=
  if ev.payload.kind ≠ defaultUpdateOwnerKind then
    .error "optimistic_migration: wrong update kind"
  else if ev.payload.bytes.length < 16 then
    .error "optimistic_migration: bad update payload"
  else
    let h := UpdateOwnerHeader.load ev.payload.bytes
    if ev.payload.bytes.length ≠ 16 + h.stateBytes.toNat then
      .error "optimistic_migration: bad update payload size"
    else
      .ok {
        entity := h.entity
        newOwner := h.newOwner
        sendInstall := true
        installPayload := {
          kind := defaultInstallKind
          bytes := InstallHeader.bytes padding ⟨h.entity, h.stateBytes⟩ ++
            (ev.payload.bytes.drop 16).take h.stateBytes.toNat } }

def decodeInstall (ev : Event) : Except String (EntityId × ByteBuffer) :=
  if ev.payload.kind ≠ defaultInstallKind then
    .error "optimistic_migration: wrong install kind"
  else if ev.payload.bytes.length < 16 then
    .error "optimistic_migration: bad install payload"
  else
    let h := InstallHeader.load ev.payload.bytes
    if ev.payload.bytes.length ≠ 16 + h.stateBytes.toNat then
      .error "optimistic_migration: bad install payload size"
    else
      .ok (h.entity, (ev.payload.bytes.drop 16).take h.stateBytes.toNat)

end OptimisticMigration

end WarpSim

import WarpSim.Library.LittleEndian
import WarpSim.Model.State

/-! # The wire format -/

namespace WarpSim

open Prog

/-! ## Writing and reading -/

structure WireWriter where
  buf : ByteBuffer := []

namespace WireWriter

def writeU8 (w : WireWriter) (v : UInt8) : WireWriter := { buf := w.buf ++ [v] }

def writeU32 (w : WireWriter) (v : UInt32) : WireWriter :=
  (List.range 4).foldl
    (fun w i => { buf := w.buf ++ [((v >>> (8 * UInt32.ofNat i)) &&& 0xFF).toUInt8] }) w

def writeU64 (w : WireWriter) (v : UInt64) : WireWriter :=
  (List.range 8).foldl
    (fun w i => { buf := w.buf ++ [((v >>> (8 * UInt64.ofNat i)) &&& 0xFF).toUInt8] }) w

/-- The length is cast to 32 bits. -/
def writeBytes (w : WireWriter) (bytes : ByteBuffer) : WireWriter :=
  { buf := (w.writeU32 (UInt32.ofNat bytes.length)).buf ++ bytes }

def take (w : WireWriter) : ByteBuffer := w.buf

end WireWriter

abbrev WireReader := Cursor UInt8

namespace WireReader

def require (n : ℕ) : Prog String WireReader Unit :=
  Cursor.require "WireReader: truncated buffer" n

def readU8 : Prog String WireReader UInt8 := do
  require 1
  Cursor.next

/-- `out |= b << (8 * i)`. -/
def placeU32 (out : UInt32) (i : ℕ) (b : UInt8) : UInt32 :=
  out ||| (b.toUInt32 <<< (8 * UInt32.ofNat i))

def placeU64 (out : UInt64) (i : ℕ) (b : UInt8) : UInt64 :=
  out ||| (b.toUInt64 <<< (8 * UInt64.ofNat i))

def readU32 : Prog String WireReader UInt32 := do
  require 4
  (List.range 4).foldlM (Cursor.collect placeU32) 0

def readU64 : Prog String WireReader UInt64 := do
  require 8
  (List.range 8).foldlM (Cursor.collect placeU64) 0

def readBytes : Prog String WireReader ByteBuffer := do
  let n ← readU32
  require n.toNat
  Cursor.slice n.toNat

end WireReader

open WireReader

/-! ## Events and migrations -/

def encodeEvent (ev : Event) : ByteBuffer :=
  let w : WireWriter := {}
  let w := w.writeU64 ev.ts.time
  let w := w.writeU64 ev.ts.sequence
  let w := w.writeU32 ev.src
  let w := w.writeU32 ev.dst
  let w := w.writeU64 ev.target
  let w := w.writeU64 ev.uid
  let w := w.writeU8 ev.gvtColor
  let w := w.writeU8 (if ev.isAnti then 1 else 0)
  let w := w.writeU32 ev.payload.kind
  let w := w.writeBytes ev.payload.bytes
  w.take

def readEvent : Prog String WireReader Event := do
  let time ← readU64
  let sequence ← readU64
  let src ← readU32
  let dst ← readU32
  let target ← readU64
  let uid ← readU64
  let gvtColor ← readU8
  let isAnti ← readU8
  let kind ← readU32
  let bytes ← readBytes
  return {
    ts := ⟨time, sequence⟩, src, dst, target, uid, gvtColor, isAnti := isAnti != 0
    payload := ⟨kind, bytes⟩ }

def decodeEvent : ByteBuffer → Except String Event := Cursor.run readEvent

def encodeMigration (m : Migration) : ByteBuffer :=
  let w : WireWriter := {}
  let w := w.writeU64 m.entity
  let w := w.writeU32 m.newOwner
  let w := w.writeU64 m.effectiveTs.time
  let w := w.writeU64 m.effectiveTs.sequence
  let w := w.writeBytes m.state
  w.take

def readMigration : Prog String WireReader Migration := do
  let entity ← readU64
  let newOwner ← readU32
  let time ← readU64
  let sequence ← readU64
  let state ← readBytes
  return { entity, newOwner, effectiveTs := ⟨time, sequence⟩, state }

def decodeMigration : ByteBuffer → Except String Migration := Cursor.run readMigration

/-- The body of an acknowledgement, written by `poll_transport_count`. -/
def encodeAck (key : InflightKey) : ByteBuffer :=
  let w : WireWriter := {}
  let w := w.writeU32 key.src
  let w := w.writeU64 key.uid
  let w := w.writeU8 (if key.isAnti then 1 else 0)
  w.take

def readAck : Prog String WireReader InflightKey := do
  let src ← readU32
  let uid ← readU64
  let isAnti ← readU8
  return ⟨src, uid, isAnti != 0⟩

def decodeAck : ByteBuffer → Except String InflightKey := Cursor.run readAck

/-! ## Messages -/

/-- `MessageKind`: an enumeration over bytes, in which every byte is a value. -/
structure MessageKind where
  value : UInt8
deriving DecidableEq

namespace MessageKind

def event : MessageKind := ⟨1⟩

def migration : MessageKind := ⟨2⟩

def ack : MessageKind := ⟨3⟩

end MessageKind

/-- A wire message with the bytes of its body. -/
structure RawMessage where
  kind : MessageKind := .event
  srcRank : RankId := 0
  dstRank : RankId := 0
  bytes : ByteBuffer := []
deriving DecidableEq

/-- The message that the kernel hands to the transport. -/
def WireMessage.encode : WireMessage → RawMessage
  | .event srcRank dstRank ev => ⟨.event, srcRank, dstRank, encodeEvent ev⟩
  | .migration srcRank dstRank mig => ⟨.migration, srcRank, dstRank, encodeMigration mig⟩
  | .ack srcRank dstRank key => ⟨.ack, srcRank, dstRank, encodeAck key⟩

/-- How `poll_transport_count` reads a message. Messages of an unknown kind are skipped, and so are
acknowledgements where none are expected. -/
def RawMessage.decode (cfg : SimulationConfig) (msg : RawMessage) :
    Except String (Option WireMessage) :=
  if msg.kind = .event then
    (fun ev => some (.event msg.srcRank msg.dstRank ev)) <$> decodeEvent msg.bytes
  else if msg.kind = .migration then
    (fun mig => some (.migration msg.srcRank msg.dstRank mig)) <$> decodeMigration msg.bytes
  else if msg.kind = .ack ∧ cfg.gvtMode = .ackInflight then
    (fun key => some (.ack msg.srcRank msg.dstRank key)) <$> decodeAck msg.bytes
  else
    .ok none

/-! ## `MpiTransport` -/

namespace MpiTransport

/-- The buffer that `send` packs. -/
def frame (msg : RawMessage) : ByteBuffer :=
  let w : WireWriter := {}
  let w := w.writeU8 msg.kind.value
  let w := w.writeU32 msg.srcRank
  let w := w.writeU32 msg.dstRank
  let w := w.writeBytes msg.bytes
  w.take

/-- The buffer, count and destination of a call of `MPI_Isend`. -/
structure Isend where
  buf : ByteBuffer
  count : Int32
  dst : Int32

/-- `send`, where `MPI_Test` and `MPI_Isend` succeed as told. The sizes are cast to `int`. -/
def send (testOk isendOk : Bool) (msg : RawMessage) : Except String Isend :=
  if !testOk then
    .error "MpiTransport: MPI_Test failed"
  else if !isendOk then
    .error "MpiTransport: MPI_Isend failed"
  else
    .ok ⟨frame msg, Int32.ofNat (frame msg).length, msg.dstRank.toInt32⟩

/-- What the MPI library answers during one call of `poll`. An error code is a `none`. -/
structure Answers where
  testOk : Bool := true
  iprobe : Option Bool
  count : Option Int32
  recv : Option ByteBuffer

/-- The answers when the buffer of a send has arrived unchanged. -/
def Isend.delivered (sent : Isend) : Answers :=
  { iprobe := some true, count := some sent.count, recv := some sent.buf }

/-- The answers when a buffer of `bytes` has arrived. -/
def arrival (bytes : ByteBuffer) : Answers :=
  { iprobe := some true, count := some (Int32.ofNat bytes.length), recv := some bytes }

def readFrame : Prog String WireReader RawMessage := do
  let kind ← readU8
  let srcRank ← readU32
  let dstRank ← readU32
  let bytes ← readBytes
  return { kind := ⟨kind⟩, srcRank, dstRank, bytes }

def poll (mpi : Answers) : Except String (Option RawMessage) :=
  if !mpi.testOk then
    .error "MpiTransport: MPI_Test failed"
  else
    match mpi.iprobe with
    | none => .error "MpiTransport: MPI_Iprobe failed"
    | some false => .ok none
    | some true =>
      match mpi.count, mpi.recv with
      | none, _ => .error "MpiTransport: MPI_Get_count failed"
      | some count, recv =>
        if count ≤ 0 then
          .error "MpiTransport: MPI_Get_count failed"
        else
          match recv with
          | none => .error "MpiTransport: MPI_Recv failed"
          | some buf => some <$> Cursor.run readFrame buf

end MpiTransport

end WarpSim

import WarpSim.Model.Event

/-! # The determinism digest -/

namespace WarpSim

structure DeterminismDigest where
  committedEventSum : UInt64 := 0
  committedEventXor : UInt64 := 0
  committedOutputSum : UInt64 := 0
  committedOutputXor : UInt64 := 0
deriving DecidableEq

def fnv1a64 (bytes : ByteBuffer) : UInt64 :=
  bytes.foldl (fun h b => (h ^^^ b.toUInt64) * 1099511628211) 1469598103934665603

/-- The `n` low bytes of a word, as they lie in memory on a little-endian machine. -/
def trivialBytes (n : ℕ) (v : UInt64) : ByteBuffer :=
  (List.range n).map fun i => (v >>> (8 * UInt64.ofNat i)).toUInt8

def bytesWithLength (b : ByteBuffer) : ByteBuffer :=
  trivialBytes 8 (UInt64.ofNat b.length) ++ b

def hashCommittedEvent (lp : LPId) (ev : Event) : UInt64 :=
  fnv1a64 (trivialBytes 4 lp.toUInt64 ++ trivialBytes 8 ev.ts.time ++ trivialBytes 8 ev.ts.sequence ++
    trivialBytes 4 ev.src.toUInt64 ++ trivialBytes 8 ev.uid ++ trivialBytes 8 ev.target ++
    trivialBytes 4 ev.payload.kind.toUInt64 ++ trivialBytes 1 (if ev.isAnti then 1 else 0) ++
    bytesWithLength ev.payload.bytes)

def hashCommittedOutput (lp : LPId) (ts : TimeStamp) (p : Payload) : UInt64 :=
  fnv1a64 (trivialBytes 4 lp.toUInt64 ++ trivialBytes 8 ts.time ++ trivialBytes 8 ts.sequence ++
    trivialBytes 4 p.kind.toUInt64 ++ bytesWithLength p.bytes)

namespace DeterminismDigest

def onCommittedEvent (d : DeterminismDigest) (lp : LPId) (ev : Event) : DeterminismDigest :=
  let h := hashCommittedEvent lp ev
  { d with
    committedEventSum := d.committedEventSum + h
    committedEventXor := d.committedEventXor ^^^ h }

def onCommittedOutput (d : DeterminismDigest) (lp : LPId) (ts : TimeStamp) (p : Payload) :
    DeterminismDigest :=
  let h := hashCommittedOutput lp ts p
  { d with
    committedOutputSum := d.committedOutputSum + h
    committedOutputXor := d.committedOutputXor ^^^ h }

end DeterminismDigest

end WarpSim

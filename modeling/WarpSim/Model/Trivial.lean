import WarpSim.Model.Determinism

/-! # Trivially copyable values

What `memcpy` makes of a buffer. -/

namespace WarpSim

/-- The number in the first `n` bytes of a buffer, on a little-endian machine. -/
def loadWord (n : ℕ) (bytes : ByteBuffer) : UInt64 :=
  (bytes.take n).foldr (fun b word => (word <<< 8) ||| b.toUInt64) 0

def load32 (bytes : ByteBuffer) : UInt32 := (loadWord 4 bytes).toUInt32

def load64 (bytes : ByteBuffer) : UInt64 := loadWord 8 bytes

def bytes32 (v : UInt32) : ByteBuffer := trivialBytes 4 v.toUInt64

def bytes64 (v : UInt64) : ByteBuffer := trivialBytes 8 v

end WarpSim

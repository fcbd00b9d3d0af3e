import WarpSim.Model.Event

/-! # The stateless random number generator -/

namespace WarpSim

def splitmix64 (x : UInt64) : UInt64 :=
  let x := x + 0x9e3779b97f4a7c15
  let x := (x ^^^ (x >>> 30)) * 0xbf58476d1ce4e5b9
  let x := (x ^^^ (x >>> 27)) * 0x94d049bb133111eb
  x ^^^ (x >>> 31)

def mixU64 (a b : UInt64) : UInt64 := splitmix64 (a ^^^ splitmix64 b)

/-! ## Draws -/

def rngU64 (seed : UInt64) (lp : LPId) (stream : UInt32) (eventUid : EventUid) (draw : UInt32) : UInt64 :=
  let x := seed
  let x := mixU64 x lp.toUInt64
  let x := mixU64 x stream.toUInt64
  let x := mixU64 x eventUid
  let x := mixU64 x draw.toUInt64
  splitmix64 x

/-- The overload that takes in the sender of the event. -/
def rngU64From (seed : UInt64) (lp : LPId) (stream : UInt32) (eventSrc : LPId) (eventUid : EventUid)
    (draw : UInt32) : UInt64 :=
  let x := seed
  let x := mixU64 x lp.toUInt64
  let x := mixU64 x stream.toUInt64
  let x := mixU64 x eventSrc.toUInt64
  let x := mixU64 x eventUid
  let x := mixU64 x draw.toUInt64
  splitmix64 x

/-! ## Draws from a range -/

/-- `a % b`, which is undefined where `b` is 0. -/
def checkedMod (a b : UInt64) : Option UInt64 := if b = 0 then none else some (a % b)

/-- The last steps of both overloads of `rng_u64_range`. -/
def inRange (lo hi r : UInt64) : Option UInt64 :=
  let span := (hi - lo) + 1
  (checkedMod r span).map (lo + ·)

def rngU64Range (seed : UInt64) (lp : LPId) (stream : UInt32) (eventUid : EventUid) (lo hi : UInt64)
    (draw : UInt32) : Option UInt64 :=
  inRange lo hi (rngU64 seed lp stream eventUid draw)

def rngU64RangeFrom (seed : UInt64) (lp : LPId) (stream : UInt32) (eventSrc : LPId) (eventUid : EventUid)
    (lo hi : UInt64) (draw : UInt32) : Option UInt64 :=
  inRange lo hi (rngU64From seed lp stream eventSrc eventUid draw)

namespace Modeling

/-- The functions of `modeling.hpp`, which take the keys from the event. -/
def rngU64 (seed : UInt64) (lp : LPId) (ev : Event) (stream draw : UInt32) : UInt64 :=
  rngU64From seed lp stream ev.src ev.uid draw

def rngU64Range (seed : UInt64) (lp : LPId) (ev : Event) (stream : UInt32) (lo hi : UInt64)
    (draw : UInt32) : Option UInt64 :=
  rngU64RangeFrom seed lp stream ev.src ev.uid lo hi draw

end Modeling

end WarpSim

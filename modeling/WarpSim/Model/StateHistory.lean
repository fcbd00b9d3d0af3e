import WarpSim.Library.OrderedMap
import WarpSim.Model.Event

/-! # The snapshots of a state -/

namespace WarpSim

structure StateHistory where
  maxSnapshots : ℕ := 1024
  history : OrderedMap TimeStamp ByteBuffer := .empty

namespace StateHistory

def clear (h : StateHistory) : StateHistory := { h with history := .empty }

/-- `trim_`. -/
def trim (h : StateHistory) : StateHistory := { h with history := h.history.trim h.maxSnapshots }

def push (ts : TimeStamp) (snapshot : ByteBuffer) (h : StateHistory) : StateHistory :=
  { h with history := h.history.emplace ts snapshot }.trim

/-- The entry before `upper_bound(ts)`. -/
def latestAtOrBefore (h : StateHistory) (ts : TimeStamp) : Option (TimeStamp × ByteBuffer) :=
  h.history.floor? ts

def dropAfter (ts : TimeStamp) (h : StateHistory) : StateHistory :=
  { h with history := h.history.dropAbove ts }

end StateHistory

end WarpSim

import WarpSim.Library.PriorityQueue
import WarpSim.Model.Stamp

/-! # Events -/

namespace WarpSim

abbrev RankId := UInt32
abbrev LPId := UInt32
abbrev EntityId := UInt64
abbrev EventUid := UInt64
abbrev ByteBuffer := List UInt8

structure Payload where
  kind : UInt32 := 0
  bytes : ByteBuffer := []
deriving DecidableEq

/-- An event, or with `isAnti` the anti-message of the event of the same `src` and `uid`. -/
structure Event where
  ts : TimeStamp := ⟨0, 0⟩
  src : LPId := 0
  dst : LPId := 0
  target : EntityId := 0
  uid : EventUid := 0
  payload : Payload := {}
  gvtColor : UInt8 := 0
  isAnti : Bool := false
deriving DecidableEq

/-- The identity by which anti-messages find their event. -/
structure UidKey where
  src : LPId
  uid : EventUid
deriving DecidableEq

structure InflightKey where
  src : LPId
  uid : EventUid
  isAnti : Bool
deriving DecidableEq

namespace Event

def uidKey (e : Event) : UidKey := ⟨e.src, e.uid⟩

def inflightKey (e : Event) : InflightKey := ⟨e.src, e.uid, e.isAnti⟩

/-- The position of an event in the order by `ts`, then `src`, then `uid`. -/
def sortKey (e : Event) : ℕ := e.ts.key * 2 ^ 96 + e.src.toNat * 2 ^ 64 + e.uid.toNat

theorem sortKey_lt_iff {a b : Event} :
    a.sortKey < b.sortKey ↔
      a.ts < b.ts ∨ (a.ts = b.ts ∧ (a.src < b.src ∨ (a.src = b.src ∧ a.uid < b.uid))) := by
  have h₁ := a.src.toNat_lt
  have h₂ := b.src.toNat_lt
  have h₃ := a.uid.toNat_lt
  have h₄ := b.uid.toNat_lt
  have hts : a.ts = b.ts ↔ a.ts.key = b.ts.key :=
    ⟨fun h => by rw [h], fun h => TimeStamp.key_injective h⟩
  rw [TimeStamp.lt_iff_key, hts, UInt32.lt_iff_toNat_lt, UInt64.lt_iff_toNat_lt,
    ← UInt32.toNat_inj]
  simp only [sortKey]
  omega

theorem ts_le_of_sortKey_le {a b : Event} (h : a.sortKey ≤ b.sortKey) : a.ts ≤ b.ts := by
  by_contra hlt
  exact absurd (sortKey_lt_iff.mpr (Or.inl (not_le.mp hlt))) (not_lt.mpr h)

end Event

/-- The comparator of the pending queue: `a` is served after `b`. -/
def pendingOrder (a b : Event) : Bool :=
  if b.ts < a.ts then true
  else if a.ts < b.ts then false
  else if a.src ≠ b.src then decide (b.src < a.src)
  else decide (b.uid < a.uid)

theorem pendingOrder_iff {a b : Event} : pendingOrder a b = true ↔ b.sortKey < a.sortKey := by
  rw [Event.sortKey_lt_iff]
  unfold pendingOrder
  split
  · next h => simp [h]
  · next h =>
    split
    · next h' => simp [h, ne_of_gt h', eq_comm]
    · next h' =>
      have hts : b.ts = a.ts := le_antisymm (not_lt.mp h') (not_lt.mp h)
      split
      · next hs => simp [hts, Ne.symm hs]
      · next hs =>
        simp only [ne_eq, not_not] at hs
        simp [hts, hs]

/-- `priority_queue<Event, vector<Event>, PendingOrder>`. -/
abbrev EventQueue := PriorityQueue Event (fun a b => pendingOrder b a = true)

/-- The event queue kept as a sorted list. -/
def sortedEventQueue : EventQueue :=
  PriorityQueue.sortedList Event.sortKey (fun _ _ => pendingOrder_iff.mp)

end WarpSim

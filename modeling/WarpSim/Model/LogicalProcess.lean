import WarpSim.Model.Event

/-! # Logical processes

Model code is opaque to the kernel except for the calls it makes. A handler is therefore the
tree of its calls, each followed by the continuation of the handler on what the call did. -/

namespace WarpSim

/-- One invocation of `on_event`. A call that throws hands its `what()` to the handler, which may
catch it; the states are those of the LP object where the kernel can look at it. -/
inductive Handler (σ : Type) where
  | done (state : σ)
  | throw (state : σ) (what : String)
  | send (ev : Event) (next : Option String → Handler σ)
  | requestWrite (state : σ) (id : EntityId) (next : Handler σ)
  | emitCommitted (ts : TimeStamp) (payload : Payload) (next : Option String → Handler σ)

/-- One invocation of `on_start`, which is given an `IEventSink` only. -/
inductive Starter (σ : Type) where
  | done (state : σ)
  | throw (state : σ) (what : String)
  | send (ev : Event) (next : Option String → Starter σ)

/-- The interface `ILogicalProcess`, with the state the object is constructed in. -/
structure LogicalProcess (σ : Type) where
  init : σ
  onStart : σ → Starter σ := .done
  onEvent : σ → Event → Handler σ
  saveState : σ → ByteBuffer
  loadState : σ → ByteBuffer → σ
  supportsEntitySnapshots : Bool := false
  saveEntity : σ → EntityId → ByteBuffer := fun _ _ => []
  loadEntity : σ → EntityId → ByteBuffer → σ := fun s _ _ => s
  onMigration : σ → EntityId → ByteBuffer → σ := fun s _ _ => s

/-- The logical process behind each `LPId`. -/
abbrev Model (σ : Type) := LPId → LogicalProcess σ

end WarpSim

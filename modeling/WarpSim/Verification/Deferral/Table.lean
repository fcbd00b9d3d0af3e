import WarpSim.Library.Buckets
import WarpSim.Verification.Contexts

/-! # The deferral table

Deferred events are filed under a word of 64 bits packed from the LP and the entity. -/

namespace WarpSim

variable {Q : EventQueue} {σ : Type} {sound final : Prop} {model : Model σ} {cfg : SimulationConfig}

open Simulation Buckets

/-- The word under which an event is filed. -/
def Event.deferredKey (ev : Event) : UInt64 := WarpSim.deferredKey ev.dst ev.target

/-- The deferred events that the install of an entity sets free. -/
def waiting (ev : Event) (s : Simulation Q σ) : List Event :=
  (s.deferredTargeted.lookup (deferredKey ev.dst ev.target)).getD []

/-! ## The two operations -/

theorem deferTargetedEvent_eq (ev : Event) (s : Simulation Q σ) :
    deferTargetedEvent ev s =
      { s with deferredTargeted := add ev.deferredKey ev s.deferredTargeted } := by
  unfold deferTargetedEvent add Event.deferredKey
  dsimp only
  cases s.deferredTargeted.lookup (deferredKey ev.dst ev.target) <;> rfl

theorem releaseDeferredFor_closed (lp : LPId) (entity : EntityId) (s : Simulation Q σ) :
    releaseDeferredFor lp entity s = { s with
      pending := (((s.deferredTargeted.lookup (deferredKey lp entity)).getD []).insertionSort
        fun a b => a.sortKey ≤ b.sortKey).foldl Q.push s.pending
      deferredTargeted := s.deferredTargeted.filter
        fun entry => entry.1 ≠ deferredKey lp entity } := by
  unfold releaseDeferredFor
  dsimp only
  cases hlookup : s.deferredTargeted.lookup (deferredKey lp entity) with
  | none =>
      have hall : s.deferredTargeted.filter (fun entry => entry.1 ≠ deferredKey lp entity) =
          s.deferredTargeted := by
        rw [List.filter_eq_self]
        intro entry hentry
        have hne := List.lookup_eq_none_iff.mp hlookup entry hentry
        simp only [bne_iff_ne, ne_eq] at hne
        simpa using Ne.symm hne
      rw [hall]
      simp
  | some q =>
      dsimp only
      rw [foldl_enqueue]
      simp

/-- What is released goes into the queue, and nothing of the entity stays deferred. -/
theorem released_closed (ev : Event) (s : Simulation Q σ) : released ev s = { s with
    pending := ((waiting ev s).insertionSort fun a b => a.sortKey ≤ b.sortKey).foldl Q.push s.pending
    deferredTargeted := s.deferredTargeted.filter fun entry => entry.1 ≠ deferredKey ev.dst ev.target
    hist := { s.hist with releases := s.hist.releases ++ [⟨ev, waiting ev s⟩] } } := by
  unfold released
  rw [releaseDeferredFor_closed]
  rfl

/-! ## Tables that the kernel builds -/

/-- The table has been built by `defer_targeted_event_` and `release_deferred_for_`. -/
inductive Built : Simulation Q σ → Prop
  | empty {s} : s.deferredTargeted = [] → Built s
  | defer {s} (ev) : Built s → Built (deferTargetedEvent ev s)
  | release {s} (lp entity) : Built s → Built (releaseDeferredFor lp entity s)
  | other {s t} : Built s → t.deferredTargeted = s.deferredTargeted → Built t

theorem Built.filed {s : Simulation Q σ} (h : Built s) :
    Filed Event.deferredKey s.deferredTargeted := by
  induction h with
  | empty hnil => exact hnil ▸ filed_nil
  | defer ev _ ih =>
      rw [deferTargetedEvent_eq]
      exact ih.add ev
  | release lp entity _ ih =>
      rw [releaseDeferredFor_closed]
      exact ih.erase _
  | other _ heq ih => exact heq ▸ ih

theorem Move.built {x y : Situation Q σ} (h : Move model cfg x y) (hx : Built x.state) :
    Built y.state := by
  cases h with
  | quiet hq => rw [hq]; exact hx.other rfl
  | receive => rw [receiveEvent_eq]; exact hx.other rfl
  | acknowledge => rw [receiveAck_eq]; exact hx.other rfl
  | sent => rw [posted_eq]; exact hx.other rfl
  | unlogged => rw [posted_eq]; exact hx.other rfl
  | straggle => rw [unwound_eq]; exact hx.other rfl
  | matched => rw [unwound_eq]; exact hx.other rfl
  | @release s ev =>
      have hrecord : Built (recordRelease ev s) := hx.other rfl
      exact hrecord.release ev.dst ev.target
  | @defer before ev calls s =>
      apply Built.defer
      exact hx.other rfl
  | annul => rw [posted_eq]; exact hx.other rfl
  | _ => exact hx.other rfl

theorem GvtMove.built {x y : Situation Q σ} (h : GvtMove sound final cfg x y) (hx : Built x.state) :
    Built y.state := by
  cases h <;> exact hx.other rfl

theorem AllMoves.built {x y : Situation Q σ} (h : AllMoves sound final model cfg x y) (hx : Built x.state) :
    Built y.state := by
  induction h with
  | refl => exact hx
  | tail _ hm ih => exact hm.elim (fun hm => hm.built ih) fun hm => hm.built ih

/-- In every reachable state the table is one that the kernel builds. -/
theorem Reachable.built {allowed : Simulation Q σ → HostOp → Prop} {s : Simulation Q σ}
    (h : Reachable model cfg allowed s) : Built s := by
  have hmoves : AllMoves False True model cfg (Simulation.create Q model).atRest s.atRest :=
    h.moves fun hfalse => hfalse.elim
  exact AllMoves.built hmoves (.empty rfl)

/-! ## Releasing an entity -/

/-- The deferred event is for the entity of the LP. -/
def Event.IsFor (lp : LPId) (entity : EntityId) (ev : Event) : Prop := ev.dst = lp ∧ ev.target = entity

instance (lp : LPId) (entity : EntityId) : DecidablePred (Event.IsFor lp entity) :=
  fun ev => inferInstanceAs (Decidable (ev.dst = lp ∧ ev.target = entity))

/-- From `s` to `t` the deferred events for the entity of the LP, and only they, have moved to the
queue, in their order. -/
structure ReleasesOwn (lp : LPId) (entity : EntityId) (s t : Simulation Q σ) : Prop where
  queued : ∃ q : List Event, q.Perm (s.deferred.filter (Event.IsFor lp entity)) ∧
    q.Pairwise (fun a b => a.sortKey ≤ b.sortKey) ∧ t.pending = q.foldl Q.push s.pending
  kept : t.deferred.Perm (s.deferred.filter fun ev => ¬ ev.IsFor lp entity)
  others : t = { s with pending := t.pending, deferredTargeted := t.deferredTargeted }

theorem filter_key_eq {lp : LPId} {entity : EntityId} {evs : List Event}
    (h : ∀ ev ∈ evs, ev.deferredKey = deferredKey lp entity → ev.IsFor lp entity) (ev : Event)
    (hev : ev ∈ evs) : ev.deferredKey = deferredKey lp entity ↔ ev.IsFor lp entity := by
  refine ⟨h ev hev, ?_⟩
  rintro ⟨hdst, htarget⟩
  rw [Event.deferredKey, hdst, htarget]

/-- Releasing an entity of an LP touches only its own events exactly when no event for another LP
or entity is filed under the same word. -/
theorem releaseDeferredFor_own_iff {s : Simulation Q σ} (h : Built s) (lp : LPId)
    (entity : EntityId) :
    ReleasesOwn lp entity s (releaseDeferredFor lp entity s) ↔
      ∀ ev ∈ s.deferred, ev.deferredKey = deferredKey lp entity → ev.IsFor lp entity := by
  have hkept : (releaseDeferredFor lp entity s).deferred =
      s.deferred.filter fun ev => ev.deferredKey ≠ deferredKey lp entity := by
    rw [releaseDeferredFor_closed]
    exact h.filed.elements_erase _
  constructor
  · intro hown ev hev hkey
    by_contra hother
    have hmem : ev ∈ (releaseDeferredFor lp entity s).deferred :=
      hown.kept.symm.subset (List.mem_filter.mpr ⟨hev, decide_eq_true hother⟩)
    rw [hkept] at hmem
    exact of_decide_eq_true (List.mem_filter.mp hmem).2 hkey
  · intro hkey
    have hsame := filter_key_eq hkey
    refine ⟨⟨_, ?_, ?_, by rw [releaseDeferredFor_closed]⟩, ?_, by rw [releaseDeferredFor_closed]⟩
    · rw [h.filed.lookup]
      refine (List.perm_insertionSort _ _).trans (.of_eq ?_)
      exact List.filter_congr fun ev hev => decide_eq_decide.mpr (hsame ev hev)
    · exact List.pairwise_insertionSort _ _
    · rw [hkept]
      refine .of_eq (List.filter_congr fun ev hev => decide_eq_decide.mpr ?_)
      exact not_congr (hsame ev hev)

/-- An entity id of the form `(owner << 32) | local`. -/
def ownedId (owner localId : LPId) : EntityId := (owner.toUInt64 <<< 32) ||| localId.toUInt64

def useOf (dst : LPId) (target : EntityId) (time : UInt64) : Event :=
  { ts := ⟨time, 1⟩, src := 9, dst := dst, target := target }

/-- A table to which the events have been deferred one by one. -/
def tableOf (evs : List Event) : Simulation sortedEventQueue Unit :=
  evs.foldl (fun s ev => deferTargetedEvent ev s) { ctx := fun _ => { lp := () } }

theorem built_tableOf (evs : List Event) : Built (tableOf evs) := by
  suffices ∀ s : Simulation sortedEventQueue Unit, Built s →
      Built (evs.foldl (fun s ev => deferTargetedEvent ev s) s) from this _ (.empty rfl)
  induction evs with
  | nil => exact fun _ hs => hs
  | cons ev evs ih => exact fun s hs => ih _ (.defer ev hs)

/-- Two events wait for one entity of the first LP, and one for another. -/
def threeWaiting : Simulation sortedEventQueue Unit :=
  tableOf [useOf 1 (ownedId 1 7) 5, useOf 1 (ownedId 1 8) 4, useOf 1 (ownedId 1 7) 3]

theorem releaseDeferredFor_own_threeWaiting :
    ReleasesOwn 1 (ownedId 1 7) threeWaiting (releaseDeferredFor 1 (ownedId 1 7) threeWaiting) :=
  (releaseDeferredFor_own_iff (built_tableOf _) 1 _).mpr (by decide)

/-- The first LP waits for an entity of the second, and the second LP for one of the first. -/
def crossWaiting : Simulation sortedEventQueue Unit :=
  tableOf [useOf 1 (ownedId 2 7) 5, useOf 2 (ownedId 1 7) 6]

/-- When the second LP gets its entity, the event of the first LP is released too. -/
theorem release_takes_other :
    Built crossWaiting ∧ (releaseDeferredFor 2 (ownedId 1 7) crossWaiting).deferred = [] ∧
      ¬ ReleasesOwn 2 (ownedId 1 7) crossWaiting (releaseDeferredFor 2 (ownedId 1 7) crossWaiting) := by
  refine ⟨built_tableOf _, by decide, fun hown => ?_⟩
  have hkept := hown.kept.length_eq
  revert hkept
  decide

end WarpSim

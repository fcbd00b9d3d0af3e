import WarpSim.Model.AoiLp
import WarpSim.Verification.Moves
import WarpSim.Verification.Trivial

/-! # What queries answer

The positions of an area-of-interest LP are those of the last updates, and a query returns the entities whose
position passes its test. -/

namespace WarpSim

namespace AoiLP

open scoped DirectoryLP

variable {K : Type} [Add K] [Sub K] [Mul K] [Zero K] [LE K] [LT K] [BEq K] [DecidableLE K] [DecidableLT K]
  {value : UInt64 → K} {cfg : Config}

/-! ## Histories of updates -/

/-- An event that `on_event` takes as an update. -/
def IsUpdate (cfg : Config) (ev : Event) (a : UpdateArgs) : Prop :=
  ev.payload.kind = cfg.updateKind ∧ decodeUpdate ev.payload.bytes = .ok a

/-- An event that `on_event`, which looks for updates first, takes as a query of one of the two shapes. -/
structure IsQuery (cfg : Config) (ev : Event) (q : QueryArgs) : Prop where
  not_update : ev.payload.kind ≠ cfg.updateKind
  kind : ev.payload.kind = cfg.queryKind
  decoded : decodeQuery ev.payload.bytes = .ok q
  shape : q.shape = sphere ∨ q.shape = cone

/-- The position that the event gives to the entity. -/
def posFor (entity : EntityId) (ev : Event) : Option (Vec3 UInt64) :=
  match decodeUpdate ev.payload.bytes with
  | .error _ => none
  | .ok a => if a.entity = entity then some a.pos else none

/-- The position of the most recent update of the entity. -/
def latestPos (updates : List Event) (entity : EntityId) : Option (Vec3 UInt64) :=
  (updates.filterMap (posFor entity)).getLast?

/-- The entities that the events update. -/
def updatedEntities (updates : List Event) : Finset EntityId :=
  (updates.filterMap fun ev => (decodeUpdate ev.payload.bytes).toOption.map (·.entity)).toFinset

/-- The events in another order, in which those of each entity are as they were. -/
structure Reordered (updates updates' : List Event) : Prop where
  perm : updates'.Perm updates
  each : ∀ entity, updates'.filter (fun ev => (posFor entity ev).isSome) =
    updates.filter fun ev => (posFor entity ev).isSome

/-- An LP, from its construction on, has dealt with the events in this order. -/
inductive Executed {σ : Type} (lp : LogicalProcess σ) : List Event → σ → Prop where
  | nil : Executed lp [] lp.init
  | snoc {events ev s s'} : Executed lp events s → (lp.onEvent s ev).Ends s' → Executed lp (events ++ [ev]) s'

/-- The handler sends one reply and is done: a positive event of the result kind, from the LP to the sender of the
query, for no entity and for the timestamp of the query, from which the client reads these entities. -/
def Answers (cfg : Config) (query : Event) (q : QueryArgs) (entities : List EntityId) (handler : Handler Positions) :
    Prop :=
  ∃ sent next state, handler = .send sent next ∧ next none = .done state ∧
    sent.dst = query.src ∧ sent.ts = query.ts ∧ sent.isAnti = false ∧ sent.src = cfg.id ∧ sent.target = 0 ∧
    sent.payload.kind = cfg.resultKind ∧ AoiClient.decodeResult sent.payload = .ok ⟨q.requestId, entities⟩

/-! ## Positions -/

theorem posFor_update {ev : Event} {a : UpdateArgs} (h : IsUpdate cfg ev a) (entity : EntityId) :
    posFor entity ev = if a.entity = entity then some a.pos else none := by
  simp [posFor, h.2]

theorem latestPos_snoc (updates : List Event) (ev : Event) (entity : EntityId) :
    latestPos (updates ++ [ev]) entity = (posFor entity ev).or (latestPos updates entity) := by
  unfold latestPos
  rw [List.filterMap_append]
  cases hpos : posFor entity ev with
  | none => simp [hpos]
  | some pos => simp [hpos]

theorem Reordered.latestPos_eq {updates updates' : List Event} (h : Reordered updates updates')
    (entity : EntityId) : latestPos updates' entity = latestPos updates entity := by
  have hsplit : ∀ l : List Event, l.filterMap (posFor entity) =
      (l.filter fun ev => (posFor entity ev).isSome).filterMap (posFor entity) := by
    intro l
    induction l with
    | nil => rfl
    | cons ev l ih =>
        cases hpos : posFor entity ev with
        | none => simp [hpos, ih]
        | some pos => simp [hpos, ih]
  unfold latestPos
  rw [hsplit, h.each, ← hsplit]

theorem mem_updatedEntities {updates : List Event} {entity : EntityId} {pos : Vec3 UInt64}
    (h : latestPos updates entity = some pos) : entity ∈ updatedEntities updates := by
  obtain ⟨ev, hev, hpos⟩ := List.mem_filterMap.mp (List.mem_of_getLast? h)
  unfold posFor at hpos
  split at hpos
  · simp at hpos
  · next a ha =>
    have hentity : a.entity = entity := by
      by_contra hne
      simp [hne] at hpos
    unfold updatedEntities
    rw [List.mem_toFinset]
    exact List.mem_filterMap.mpr ⟨ev, hev, by simp [ha, Except.toOption, hentity]⟩

/-! ## The LP after updates -/

/-- An update ends in one way. -/
theorem ends_onUpdate {padding : UInt32} {positions positions' : Positions} {ev : Event} {a : UpdateArgs}
    (h : IsUpdate cfg ev a) :
    (onEvent value cfg padding positions ev).Ends positions' ↔ positions' = positions.insert a.entity a.pos := by
  have hhandler : onEvent value cfg padding positions ev =
      .requestWrite positions cfg.stateEntityId (.done (positions.insert a.entity a.pos)) := by
    simp [onEvent, onUpdate, h.1, h.2]
  rw [hhandler]
  constructor
  · rintro (_ | _ | _ | ⟨⟨⟩⟩ | _)
    rfl
  · rintro rfl
    exact .write (.done _)

/-- The map is that of the most recent updates. -/
theorem Executed.find?_eq {padding : UInt32} {updates : List Event} {positions : Positions}
    (h : Executed (aoiLP value cfg padding) updates positions)
    (hupdates : ∀ ev ∈ updates, ∃ a, IsUpdate cfg ev a) (entity : EntityId) :
    positions.find? entity = latestPos updates entity := by
  induction h with
  | nil => rfl
  | @snoc events ev s s' hbefore hends ih =>
      obtain ⟨a, ha⟩ := hupdates ev (by simp)
      have hsame := ih fun ev hev => hupdates ev (by simp [hev])
      have hnext : s' = s.insert a.entity a.pos := (ends_onUpdate ha).mp hends
      rw [hnext, OrderedMap.find?_insert, latestPos_snoc, posFor_update ha, hsame]
      by_cases hentity : entity = a.entity
      · simp [hentity]
      · simp [hentity, Ne.symm hentity]

theorem exists_executed (value : UInt64 → K) (padding : UInt32) {updates : List Event}
    (hupdates : ∀ ev ∈ updates, ∃ a, IsUpdate cfg ev a) :
    ∃ positions, Executed (aoiLP value cfg padding) updates positions := by
  induction updates using List.reverseRecOn with
  | nil => exact ⟨_, .nil⟩
  | append_singleton updates ev ih =>
      obtain ⟨positions, hbefore⟩ := ih fun ev hev => hupdates ev (by simp [hev])
      obtain ⟨a, ha⟩ := hupdates ev (by simp)
      exact ⟨positions.insert a.entity a.pos, hbefore.snoc ((ends_onUpdate ha).mpr rfl)⟩

theorem length_le_card {updates : List Event} {positions : Positions}
    (h : ∀ entity, positions.find? entity = latestPos updates entity) :
    positions.entries.length ≤ (updatedEntities updates).card := by
  refine OrderedMap.length_le_card fun e he => ?_
  have hfind := OrderedMap.find?_eq_some_iff.mpr he
  exact mem_updatedEntities ((h e.1).symm.trans hfind)

/-! ## Hits -/

theorem hits_eq (cfg : Config) (passes : Vec3 UInt64 → Bool) (q : QueryArgs) (positions : Positions) :
    hits cfg passes q positions =
      (positions.entries.filter fun e => !skips cfg q e.1 && passes e.2).map Prod.fst := by
  unfold hits
  apply List.mergeSort_of_pairwise
  rw [List.pairwise_map]
  apply (positions.sorted.filter _).imp
  intro a b hab
  simpa using hab.le

theorem hits_sorted (cfg : Config) (passes : Vec3 UInt64 → Bool) (q : QueryArgs) (positions : Positions) :
    (hits cfg passes q positions).Pairwise (· < ·) := by
  rw [hits_eq, List.pairwise_map]
  exact positions.sorted.filter _

theorem length_hits_le (cfg : Config) (passes : Vec3 UInt64 → Bool) (q : QueryArgs) (positions : Positions) :
    (hits cfg passes q positions).length ≤ positions.entries.length := by
  rw [hits_eq, List.length_map]
  exact List.length_filter_le _ _

theorem mem_hits {passes : Vec3 UInt64 → Bool} {q : QueryArgs} {positions : Positions} {entity : EntityId} :
    entity ∈ hits cfg passes q positions ↔
      (∃ pos, positions.find? entity = some pos ∧ passes pos = true) ∧
        ¬ (cfg.excludeSelf = true ∧ q.self ≠ 0 ∧ entity = q.self) := by
  have hskips : skips cfg q entity = false ↔
      ¬ (cfg.excludeSelf = true ∧ q.self ≠ 0 ∧ entity = q.self) := by
    simp [skips]
  rw [hits_eq, ← hskips]
  simp only [OrderedMap.find?_eq_some_iff, List.mem_map, List.mem_filter]
  constructor
  · rintro ⟨⟨e, pos⟩, ⟨hmem, hpass⟩, rfl⟩
    simp only [Bool.and_eq_true, Bool.not_eq_true'] at hpass
    exact ⟨⟨pos, hmem, hpass.2⟩, hpass.1⟩
  · rintro ⟨⟨pos, hmem, hpass⟩, hskip⟩
    exact ⟨(entity, pos), ⟨hmem, by simp [hskip, hpass]⟩, rfl⟩

/-! ## Results on the wire -/

theorem loadEntities_flatMap (entities : List EntityId) :
    loadEntities entities.length (entities.flatMap bytes64) = entities := by
  induction entities with
  | nil => rfl
  | cons e rest ih =>
      have htail : (bytes64 e ++ rest.flatMap bytes64).drop 8 = rest.flatMap bytes64 :=
        List.drop_left' (length_bytes64 e)
      rw [List.flatMap_cons, List.length_cons, loadEntities, load64_bytes64, htail, ih]

theorem length_flatMap_bytes64 (entities : List EntityId) :
    (entities.flatMap bytes64).length = entities.length * 8 := by
  simp [List.length_flatMap]

/-- A result of fewer than 2^32 entities comes back, whatever its padding holds. -/
theorem decodeResultBytes_encodeResult (padding : UInt32) (requestId : UInt64) {entities : List EntityId}
    (h : entities.length < 2 ^ 32) :
    decodeResultBytes (encodeResult padding requestId entities) = .ok ⟨requestId, entities⟩ := by
  have hcount : (UInt32.ofNat entities.length).toNat = entities.length := by
    rw [UInt32.toNat_ofNat']
    exact Nat.mod_eq_of_lt h
  have hassoc : encodeResult padding requestId entities = bytes64 requestId ++
      (bytes32 (UInt32.ofNat entities.length) ++ (bytes32 padding ++ entities.flatMap bytes64)) := by
    simp [encodeResult]
  have hheader : (encodeResult padding requestId entities).drop 8 =
      bytes32 (UInt32.ofNat entities.length) ++ (bytes32 padding ++ entities.flatMap bytes64) := by
    rw [hassoc]
    exact List.drop_left' (length_bytes64 requestId)
  have hbody : (encodeResult padding requestId entities).drop 16 = entities.flatMap bytes64 := by
    apply List.drop_left'
    simp
  have hlength : (encodeResult padding requestId entities).length = 16 + entities.length * 8 := by
    simp only [encodeResult, List.length_append, length_bytes64, length_bytes32, length_flatMap_bytes64]
  unfold decodeResultBytes
  simp only [hheader, hbody, hlength, load32_bytes32, hcount, loadEntities_flatMap]
  rw [hassoc, load64_bytes64]
  simp

/-! ## Queries -/

/-- The reply to a query, in terms of the map. -/
theorem answers_hits {padding : UInt32} {positions : Positions} {query : Event} {q : QueryArgs}
    (hquery : IsQuery cfg query q) (hfew : positions.entries.length < 2 ^ 32) :
    Answers cfg query q (hits cfg (inShape value q) q positions) (onEvent value cfg padding positions query) := by
  have hsent : ∃ next, onEvent value cfg padding positions query =
      .send (reply cfg padding query q (hits cfg (inShape value q) q positions)) next ∧
        next none = .done positions := by
    unfold onEvent onQuery
    rw [if_neg hquery.not_update, if_pos hquery.kind, hquery.decoded]
    dsimp only
    rw [if_pos hquery.shape]
    exact ⟨_, rfl, rfl⟩
  obtain ⟨next, hsent, hnext⟩ := hsent
  refine ⟨_, next, _, hsent, hnext, rfl, rfl, rfl, rfl, rfl, rfl, ?_⟩
  exact decodeResultBytes_encodeResult _ _ ((length_hits_le ..).trans_lt hfew)

/-- A query after updates is answered with the entities whose most recent position passes its test, in ascending
order and without the querying entity where it is excluded. Updates of different entities may come in any
order. -/
theorem queries_answer (value : UInt64 → K) {updates : List Event} {query : Event} {q : QueryArgs}
    (hupdates : ∀ ev ∈ updates, ∃ a, IsUpdate cfg ev a) (hquery : IsQuery cfg query q)
    (hfew : (updatedEntities updates).card < 2 ^ 32) :
    ∃ entities : List EntityId,
      entities.Pairwise (· < ·) ∧
      (∀ entity, entity ∈ entities ↔
        (∃ pos, latestPos updates entity = some pos ∧ inShape value q pos = true) ∧
          ¬ (cfg.excludeSelf = true ∧ q.self ≠ 0 ∧ entity = q.self)) ∧
      ∀ padding updates', Reordered updates updates' →
        (∃ positions, Executed (aoiLP value cfg padding) updates' positions) ∧
        ∀ positions, Executed (aoiLP value cfg padding) updates' positions →
          Answers cfg query q entities ((aoiLP value cfg padding).onEvent positions query) := by
  obtain ⟨sample, hsample⟩ := exists_executed value 0 hupdates
  have hfind := hsample.find?_eq hupdates
  have hmem : ∀ entity, entity ∈ hits cfg (inShape value q) q sample ↔
      (∃ pos, latestPos updates entity = some pos ∧ inShape value q pos = true) ∧
        ¬ (cfg.excludeSelf = true ∧ q.self ≠ 0 ∧ entity = q.self) := by
    intro entity
    rw [mem_hits, hfind]
  refine ⟨_, hits_sorted .., hmem, fun padding updates' hreordered => ?_⟩
  have hupdates' : ∀ ev ∈ updates', ∃ a, IsUpdate cfg ev a := fun ev hev =>
    hupdates ev (hreordered.perm.mem_iff.mp hev)
  refine ⟨exists_executed value padding hupdates', fun positions hexecuted => ?_⟩
  have hfind' : ∀ entity, positions.find? entity = latestPos updates entity := by
    intro entity
    rw [hexecuted.find?_eq hupdates', hreordered.latestPos_eq]
  -- both maps hold the latest positions, and an ascending list is fixed by its members
  have hsame : hits cfg (inShape value q) q positions = hits cfg (inShape value q) q sample := by
    apply List.Pairwise.eq_of_mem_iff (hits_sorted ..) (hits_sorted ..)
    intro entity
    rw [mem_hits, mem_hits, hfind, hfind']
  rw [← hsame]
  exact answers_hits hquery ((length_le_card hfind').trans_lt hfew)

/-- Entities 1 and 2 are at the origin when 2 asks who is there; which of them went there first does not matter. -/
theorem queries_answer_two :
    let cfg : Config := ⟨9, 1, 1, 2, 3, true, by decide, by decide, by decide⟩
    let value : UInt64 → ℤ := fun w => if w = 0 then 0 else 1
    let update : EntityId → Event := fun entity =>
      { ts := ⟨1, 0⟩, src := 4, dst := 9, payload := ⟨1, bytes64 entity ++ List.replicate 24 0⟩ }
    let query : Event :=
      { ts := ⟨2, 0⟩, src := 5, dst := 9
        payload := ⟨2, bytes64 7 ++ bytes64 2 ++ bytes64 1 ++ List.replicate 72 0⟩ }
    let q : QueryArgs := ⟨7, 2, 1, ⟨0, 0, 0⟩, 0, ⟨0, 0, 0⟩, 0, 0⟩
    ∃ entities positions, 1 ∈ entities ∧ 2 ∉ entities ∧
      Executed (aoiLP value cfg 0) [update 2, update 1] positions ∧
      Answers cfg query q entities ((aoiLP value cfg 0).onEvent positions query) := by
  intro cfg value update query q
  have hone : IsUpdate cfg (update 1) ⟨1, ⟨0, 0, 0⟩⟩ := ⟨rfl, rfl⟩
  have htwo : IsUpdate cfg (update 2) ⟨2, ⟨0, 0, 0⟩⟩ := ⟨rfl, rfl⟩
  have hupdates : ∀ ev ∈ [update 1, update 2], ∃ a, IsUpdate cfg ev a := by
    simp only [List.mem_cons, List.not_mem_nil, or_false, forall_eq_or_imp, forall_eq]
    exact ⟨⟨_, hone⟩, ⟨_, htwo⟩⟩
  have hquery : IsQuery cfg query q := ⟨by decide, rfl, rfl, Or.inl rfl⟩
  have hfew : (updatedEntities [update 1, update 2]).card < 2 ^ 32 := by
    have hcard : (updatedEntities [update 1, update 2]).card ≤ 2 := List.toFinset_card_le _
    omega
  have hreordered : Reordered [update 1, update 2] [update 2, update 1] := by
    refine ⟨List.Perm.swap .., fun entity => ?_⟩
    rw [List.filter_cons, List.filter_cons, List.filter_cons, List.filter_cons, posFor_update hone,
      posFor_update htwo]
    by_cases h : (1 : EntityId) = entity
    · subst h
      simp
    · simp [h]
  obtain ⟨entities, -, hmem, hall⟩ := queries_answer value hupdates hquery hfew
  obtain ⟨⟨positions, hpositions⟩, hanswers⟩ := hall 0 _ hreordered
  refine ⟨entities, positions, ?_, ?_, hpositions, hanswers _ hpositions⟩
  · exact (hmem 1).mpr ⟨⟨⟨0, 0, 0⟩, rfl, rfl⟩, by decide⟩
  · exact fun h => ((hmem 2).mp h).2 ⟨rfl, by decide, rfl⟩

end AoiLP

end WarpSim

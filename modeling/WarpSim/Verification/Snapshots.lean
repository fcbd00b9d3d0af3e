import WarpSim.Library.Consume
import WarpSim.Model.AoiLp
import WarpSim.Verification.Trivial

/-! # The snapshots of the built-in LPs

What the directory LP and the area-of-interest LP load is what they have saved, and no part of a saved state can
be loaded. -/

namespace WarpSim

/-- The parser loads the whole state, and refuses what has been cut off. -/
theorem Yields.snapshot {ε α : Type} {load : ByteBuffer → Except ε α} {saved : ByteBuffer} {state : α}
    (h : Yields load saved fun _ => state) :
    load saved = .ok state ∧ ∀ p, p <+: saved → p ≠ saved → ∃ e, load p = .error e := by
  have hwhole := h.ok []
  rw [List.append_nil] at hwhole
  exact ⟨hwhole, h.short⟩

theorem OrderedMap.lt_of_entries {κ ν : Type} [LinearOrder κ] {m : OrderedMap κ ν} {loaded rest : List (κ × ν)}
    {k : κ} {v : ν} (h : m.entries = loaded ++ (k, v) :: rest) : ∀ e ∈ loaded, e.1 < k := by
  have hsorted := m.sorted
  rw [h] at hsorted
  exact fun e he => (List.pairwise_append.mp hsorted).2.2 e he (k, v) List.mem_cons_self

/-! ## The directory LP -/

namespace DirectoryLP

theorem consumes_readWord {n : ℕ} (hn : n ≤ 8) {v : UInt64} (hv : v.toNat < 256 ^ n) :
    Consumes (readWord n) (trivialBytes n v) v := by
  have hlen := length_trivialBytes n v
  have hword := loadWord_trivialBytes hn hv []
  have htake : Consumes (readWord n) (trivialBytes n v) _ :=
    Consumes.take (f := fun w => w.foldr (fun (b : UInt8) (word : UInt64) => (word <<< 8) ||| b.toUInt64) 0) hlen
  unfold loadWord at hword
  rw [List.append_nil, List.take_of_length_le hlen.le] at hword
  rw [hword] at htake
  exact htake

theorem consumes_readWord64 (v : UInt64) : Consumes (readWord 8) (trivialBytes 8 v) v :=
  consumes_readWord le_rfl (by simpa using v.toNat_lt)

theorem consumes_readWord32 {v : UInt64} (hv : v.toNat < 2 ^ 32) :
    Consumes (readWord 4) (trivialBytes 4 v) v :=
  consumes_readWord (by norm_num) (by simpa using hv)

theorem toNat_count {n : ℕ} (hn : n < 2 ^ 32) : (UInt64.ofNat n).toNat = n := by
  rw [UInt64.toNat_ofNat', Nat.mod_eq_of_lt (by omega)]

theorem emplace_eq (timeline : Timeline) (ts : TimeStamp) (owner : LPId) :
    emplace timeline ts owner = OrderedMap.emplace timeline ts owner := by
  unfold emplace OrderedMap.emplace
  cases timeline.find? ts <;> rfl

def saveEntry (e : TimeStamp × LPId) : ByteBuffer :=
  trivialBytes 8 e.1.time ++ trivialBytes 8 e.1.sequence ++ trivialBytes 4 e.2.toUInt64

/-- The inner loop adds the saved entries to those it has. -/
theorem consumes_loadEntries (rest : List (TimeStamp × LPId)) (loaded all : Timeline)
    (h : all.entries = loaded.entries ++ rest) :
    Consumes (loadEntries rest.length loaded) (rest.flatMap saveEntry) all := by
  induction rest generalizing loaded with
  | nil =>
      have hsame : all = loaded := OrderedMap.ext (by simpa using h)
      rw [hsame]
      exact .done fun tail => (loaded, tail)
  | cons e rest ih =>
      obtain ⟨⟨time, sequence⟩, owner⟩ := e
      have hlast : (emplace loaded ⟨time, sequence⟩ owner).entries =
          loaded.entries ++ [(⟨time, sequence⟩, owner)] := by
        rw [emplace_eq]
        exact OrderedMap.emplace_last owner (OrderedMap.lt_of_entries h)
      have hrest : Consumes (loadEntries rest.length (emplace loaded ⟨time, sequence⟩ owner.toUInt64.toUInt32))
          (rest.flatMap saveEntry) all := by
        rw [UInt32.toUInt32_toUInt64]
        exact ih _ (by simp [hlast, h])
      have howner := (consumes_readWord32 (v := owner.toUInt64) (by simpa using owner.toNat_lt)).bind
        (q := fun word bytes => loadEntries rest.length (emplace loaded ⟨time, sequence⟩ word.toUInt32) bytes)
        hrest
      have hsequence := (consumes_readWord64 sequence).bind
        (q := fun sequence bytes => readWord 4 bytes >>= fun r =>
          loadEntries rest.length (emplace loaded ⟨time, sequence⟩ r.1.toUInt32) r.2) howner
      have hall := (consumes_readWord64 time).bind
        (q := fun time bytes => readWord 8 bytes >>= fun r => readWord 4 r.2 >>= fun r' =>
          loadEntries rest.length (emplace loaded ⟨time, r.1⟩ r'.1.toUInt32) r'.2) hsequence
      rw [List.flatMap_cons, saveEntry, List.append_assoc, List.append_assoc]
      exact hall

theorem saveTimeline_eq (timeline : Timeline) : saveTimeline timeline =
    trivialBytes 4 (UInt64.ofNat timeline.entries.length) ++ timeline.entries.flatMap saveEntry := rfl

def saveEntity (e : EntityId × Timeline) : ByteBuffer := trivialBytes 8 e.1 ++ saveTimeline e.2

/-- The outer loop adds the saved timelines to those it has. -/
theorem yields_loadEntities (rest : List (EntityId × Timeline)) (loaded all : OwnerHistory)
    (h : all.entries = loaded.entries ++ rest) (hsmall : ∀ e ∈ rest, e.2.entries.length < 2 ^ 32) :
    Yields (loadEntities rest.length loaded) (rest.flatMap saveEntity) fun _ => all := by
  induction rest generalizing loaded with
  | nil =>
      have hsame : all = loaded := OrderedMap.ext (by simpa using h)
      rw [hsame]
      exact .done fun _ => loaded
  | cons e rest ih =>
      obtain ⟨entity, entries⟩ := e
      have habove := OrderedMap.lt_of_entries h
      have hnew : timeline loaded entity = .empty := by
        have hnone : loaded.find? entity = none :=
          OrderedMap.find?_eq_none_iff.mpr fun e he => ne_of_lt (habove e he)
        rw [timeline, hnone]
        rfl
      have hlast := OrderedMap.insert_last entries habove
      have hrest := ih (loaded.insert entity entries) (by simp [hlast, h])
        fun e he => hsmall e (List.mem_cons_of_mem _ he)
      have hcount := toNat_count (hsmall _ List.mem_cons_self)
      have hentries : Consumes
          (loadEntries (UInt64.ofNat entries.entries.length).toNat (timeline loaded entity))
          (entries.entries.flatMap saveEntry) entries := by
        rw [hcount, hnew]
        exact consumes_loadEntries _ .empty entries rfl
      have hloop := hentries.bind
        (q := fun entries bytes => loadEntities rest.length (loaded.insert entity entries) bytes) hrest
      have htimeline := (consumes_readWord32 (v := UInt64.ofNat entries.entries.length)
        (hcount.trans_lt (hsmall _ List.mem_cons_self))).bind
          (q := fun count bytes => loadEntries count.toNat (timeline loaded entity) bytes >>= fun r =>
            loadEntities rest.length (loaded.insert entity r.1) r.2) hloop
      have hall := (consumes_readWord64 entity).bind
        (q := fun entity bytes => readWord 4 bytes >>= fun r =>
          loadEntries r.1.toNat (timeline loaded entity) r.2 >>= fun r' =>
            loadEntities rest.length (loaded.insert entity r'.1) r'.2) htimeline
      rw [List.flatMap_cons, saveEntity, saveTimeline_eq, List.append_assoc, List.append_assoc]
      exact hall

/-- An ownership history whose counts fit in 32 bits. -/
structure Small (history : OwnerHistory) : Prop where
  entities : history.entries.length < 2 ^ 32
  entries : ∀ e ∈ history.entries, e.2.entries.length < 2 ^ 32

theorem yields_loadState {history : OwnerHistory} (h : Small history) :
    Yields loadState (saveState history) fun _ => history := by
  have hcount := toNat_count h.entities
  have hloop : Yields (loadEntities (UInt64.ofNat history.entries.length).toNat .empty)
      (history.entries.flatMap saveEntity) fun _ => history := by
    rw [hcount]
    exact yields_loadEntities _ .empty history rfl h.entries
  exact (consumes_readWord32 (v := UInt64.ofNat history.entries.length)
    (hcount.trans_lt h.entities)).bind
      (q := fun count bytes => loadEntities count.toNat .empty bytes) hloop

end DirectoryLP

/-! ## The area-of-interest LP -/

namespace AoiLP

open scoped DirectoryLP

theorem consumes_read {α : Type} {n : ℕ} {load : ByteBuffer → α} {w : ByteBuffer} (hw : w.length = n) :
    Consumes (read n load) w (load w) :=
  Consumes.take hw

theorem load32_self (v : UInt32) : load32 (bytes32 v) = v := by
  simpa using load32_bytes32 v []

theorem load64_self (v : UInt64) : load64 (bytes64 v) = v := by
  simpa using load64_bytes64 v []

def saveVec3 (v : Vec3 UInt64) : ByteBuffer := bytes64 v.x ++ bytes64 v.y ++ bytes64 v.z

theorem loadVec3_saveVec3 (v : Vec3 UInt64) : loadVec3 (saveVec3 v) = v := by
  have hy : (saveVec3 v).drop 8 = bytes64 v.y ++ bytes64 v.z := by simp [saveVec3]
  have hz : (saveVec3 v).drop 16 = bytes64 v.z := by simp [saveVec3, List.drop_append]
  have hx : saveVec3 v = bytes64 v.x ++ (bytes64 v.y ++ bytes64 v.z) := by simp [saveVec3]
  unfold loadVec3
  rw [hy, hz, hx, load64_bytes64, load64_bytes64, load64_self]

theorem consumes_entity (entity : EntityId) : Consumes (read 8 load64) (bytes64 entity) entity := by
  have h : Consumes (read 8 load64) (bytes64 entity) _ := consumes_read (length_bytes64 entity)
  rwa [load64_self] at h

theorem consumes_pos (pos : Vec3 UInt64) : Consumes (read 24 loadVec3) (saveVec3 pos) pos := by
  have h : Consumes (read 24 loadVec3) (saveVec3 pos) _ := consumes_read (by simp [saveVec3])
  rwa [loadVec3_saveVec3] at h

def savePosition (e : EntityId × Vec3 UInt64) : ByteBuffer := bytes64 e.1 ++ saveVec3 e.2

/-- The loop adds the saved positions to those it has. -/
theorem yields_loadPositions (rest : List (EntityId × Vec3 UInt64)) (loaded all : Positions)
    (h : all.entries = loaded.entries ++ rest) :
    Yields (loadPositions rest.length loaded) (rest.flatMap savePosition) fun _ => all := by
  induction rest generalizing loaded with
  | nil =>
      have hsame : all = loaded := OrderedMap.ext (by simpa using h)
      rw [hsame]
      exact .done fun _ => loaded
  | cons e rest ih =>
      obtain ⟨entity, pos⟩ := e
      have hlast := OrderedMap.emplace_last pos (OrderedMap.lt_of_entries h)
      have hrest := ih (loaded.emplace entity pos) (by simp [hlast, h])
      have hloop := (consumes_pos pos).bind
        (q := fun pos bytes => loadPositions rest.length (loaded.emplace entity pos) bytes) hrest
      have hall := (consumes_entity entity).bind
        (q := fun entity bytes => read 24 loadVec3 bytes >>= fun r =>
          loadPositions rest.length (loaded.emplace entity r.1) r.2) hloop
      rw [List.flatMap_cons, savePosition, List.append_assoc]
      exact hall

theorem yields_loadState {positions : Positions} (h : positions.entries.length < 2 ^ 32) :
    Yields loadState (saveState positions) fun _ => positions := by
  have hcount : (UInt32.ofNat positions.entries.length).toNat = positions.entries.length := by
    rw [UInt32.toNat_ofNat', Nat.mod_eq_of_lt h]
  have hloop : Yields (loadPositions (UInt32.ofNat positions.entries.length).toNat noPositions)
      (positions.entries.flatMap savePosition) fun _ => positions := by
    rw [hcount]
    exact yields_loadPositions _ noPositions positions rfl
  have hread : Consumes (read 4 load32) (bytes32 (UInt32.ofNat positions.entries.length)) _ :=
    consumes_read (length_bytes32 _)
  rw [load32_self] at hread
  exact hread.bind (q := fun count bytes => loadPositions count.toNat noPositions bytes) hloop

end AoiLP

/-! ## Both -/

open scoped DirectoryLP

variable {K : Type} [Add K] [Sub K] [Mul K] [Zero K] [LE K] [LT K] [BEq K] [DecidableLE K] [DecidableLT K]

/-- Both LPs load what they have saved, whatever their state is before, and load no proper part of it. -/
theorem snapshots_faithful (directory : DirectoryLPConfig) {history : OwnerHistory}
    (hhistory : DirectoryLP.Small history) (value : UInt64 → K) (aoi : AoiLP.Config) (padding : UInt32)
    {positions : AoiLP.Positions} (hpositions : positions.entries.length < 2 ^ 32) :
    (DirectoryLP.loadState ((directoryLP directory).saveState history) = .ok history ∧
      (∀ prior, (directoryLP directory).loadState prior ((directoryLP directory).saveState history) = history) ∧
      ∀ p, p <+: (directoryLP directory).saveState history → p ≠ (directoryLP directory).saveState history →
        ∃ what, DirectoryLP.loadState p = .error what) ∧
    AoiLP.loadState ((aoiLP value aoi padding).saveState positions) = .ok positions ∧
      (∀ prior, (aoiLP value aoi padding).loadState prior ((aoiLP value aoi padding).saveState positions) =
        positions) ∧
      ∀ p, p <+: (aoiLP value aoi padding).saveState positions → p ≠ (aoiLP value aoi padding).saveState positions →
        ∃ what, AoiLP.loadState p = .error what := by
  obtain ⟨hdirectory, hcutDirectory⟩ := (DirectoryLP.yields_loadState hhistory).snapshot
  obtain ⟨haoi, hcutAoi⟩ := (AoiLP.yields_loadState hpositions).snapshot
  refine ⟨⟨hdirectory, fun prior => ?_, hcutDirectory⟩, haoi, fun prior => ?_, hcutAoi⟩
  · change (DirectoryLP.loadState (DirectoryLP.saveState history)).toOption.getD prior = history
    rw [hdirectory]
    rfl
  · change (AoiLP.loadState (AoiLP.saveState positions)).toOption.getD prior = positions
    rw [haoi]
    rfl

/-- Two entities with two owners each, at two positions. -/
theorem snapshots_faithful_two :
    let history := DirectoryLP.setOwner 9 ⟨6, 1⟩ 2 <| DirectoryLP.setOwner 7 ⟨8, 2⟩ 4 <|
      DirectoryLP.setOwner 9 ⟨2, 1⟩ 5 <| DirectoryLP.setOwner 7 ⟨5, 0⟩ 3 DirectoryLP.noHistory
    let positions := (AoiLP.noPositions.insert 9 ⟨1, 2, 3⟩).insert 7 ⟨4, 5, 6⟩
    history.entries.map (fun e => (e.1, e.2.entries.map (·.2))) = [(7, [3, 4]), (9, [5, 2])] ∧
      positions.entries.length = 2 ∧
      DirectoryLP.loadState (DirectoryLP.saveState history) = .ok history ∧
      AoiLP.loadState (AoiLP.saveState positions) = .ok positions := by
  intro history positions
  have hsmall : DirectoryLP.Small history := ⟨by decide, by decide⟩
  have hfew : positions.entries.length < 2 ^ 32 := by decide
  have hfaithful := snapshots_faithful { id := 1, id_ne_zero := by decide } hsmall (K := ℤ) (fun _ => 0)
    { id := 1, stateEntityId := 1, updateKind := 1, queryKind := 2, resultKind := 3, id_ne_zero := by decide,
      stateEntityId_ne_zero := by decide, kinds_ne_zero := by decide } 0 hfew
  exact ⟨by decide, by decide, hfaithful.1.1, hfaithful.2.1⟩

end WarpSim

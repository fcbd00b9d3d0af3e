import WarpSim.Model.OptimisticMigration
import WarpSim.Verification.Trivial

/-! # Migration payloads

The state of an entity goes from an update of its owner into an install, and from there to the new owner. -/

namespace WarpSim

namespace OptimisticMigration

/-! ## Headers -/

@[simp] theorem length_updateOwnerHeader (h : UpdateOwnerHeader) : h.bytes.length = 16 := by
  simp [UpdateOwnerHeader.bytes]

@[simp] theorem length_installHeader (padding : UInt32) (h : InstallHeader) :
    (h.bytes padding).length = 16 := by
  simp [InstallHeader.bytes]

theorem load_updateOwnerHeader (h : UpdateOwnerHeader) (state : ByteBuffer) :
    UpdateOwnerHeader.load (h.bytes ++ state) = h := by
  have howner : (h.bytes ++ state).drop 8 = bytes32 h.newOwner ++ (bytes32 h.stateBytes ++ state) := by
    simp [UpdateOwnerHeader.bytes]
  have hstate : (h.bytes ++ state).drop 12 = bytes32 h.stateBytes ++ state := by
    simp [UpdateOwnerHeader.bytes, List.drop_append]
  have hentity : h.bytes ++ state = bytes64 h.entity ++ (bytes32 h.newOwner ++ (bytes32 h.stateBytes ++ state)) := by
    simp [UpdateOwnerHeader.bytes]
  unfold UpdateOwnerHeader.load
  rw [howner, hstate, hentity, load64_bytes64, load32_bytes32, load32_bytes32]

theorem load_installHeader (padding : UInt32) (h : InstallHeader) (state : ByteBuffer) :
    InstallHeader.load (h.bytes padding ++ state) = h := by
  have hstate : (h.bytes padding ++ state).drop 8 = bytes32 h.stateBytes ++ (bytes32 padding ++ state) := by
    simp [InstallHeader.bytes]
  have hentity : h.bytes padding ++ state =
      bytes64 h.entity ++ (bytes32 h.stateBytes ++ (bytes32 padding ++ state)) := by
    simp [InstallHeader.bytes]
  unfold InstallHeader.load
  rw [hstate, hentity, load64_bytes64, load32_bytes32]

/-- The header of a payload is what its first bytes say. -/
theorem bytes_load_updateOwnerHeader {bytes : ByteBuffer} (h : 16 ≤ bytes.length) :
    (UpdateOwnerHeader.load bytes).bytes = bytes.take 16 := by
  have hentity : bytes64 (load64 bytes) = bytes.take 8 := bytes64_load64 (by omega)
  have howner : bytes32 (load32 (bytes.drop 8)) = (bytes.drop 8).take 4 :=
    bytes32_load32 (by rw [List.length_drop]; omega)
  have hstate : bytes32 (load32 (bytes.drop 12)) = (bytes.drop 12).take 4 :=
    bytes32_load32 (by rw [List.length_drop]; omega)
  unfold UpdateOwnerHeader.bytes UpdateOwnerHeader.load
  dsimp only
  rw [hentity, howner, hstate, ← List.take_add, ← List.take_add]

/-! ## From the update to the install -/

theorem makeUpdateOwnerPayload_eq (entity : EntityId) (newOwner : LPId) {state : ByteBuffer}
    (h : state.length < 2 ^ 32) : makeUpdateOwnerPayload entity newOwner state = .ok {
      kind := defaultUpdateOwnerKind
      bytes := UpdateOwnerHeader.bytes ⟨entity, newOwner, UInt32.ofNat state.length⟩ ++ state } := by
  unfold makeUpdateOwnerPayload
  rw [if_neg (by omega)]

theorem toNat_stateBytes {state : ByteBuffer} (h : state.length < 2 ^ 32) :
    (UInt32.ofNat state.length).toNat = state.length := by
  rw [UInt32.toNat_ofNat', Nat.mod_eq_of_lt h]

theorem decodeUpdateOwner_made (padding : UInt32) (entity : EntityId) (newOwner : LPId) {state : ByteBuffer}
    (h : state.length < 2 ^ 32) {ev : Event}
    (hev : makeUpdateOwnerPayload entity newOwner state = .ok ev.payload) :
    decodeUpdateOwnerAsDirectoryUpdate padding ev = .ok {
      entity := entity
      newOwner := newOwner
      sendInstall := true
      installPayload := {
        kind := defaultInstallKind
        bytes := InstallHeader.bytes padding ⟨entity, UInt32.ofNat state.length⟩ ++ state } } := by
  rw [makeUpdateOwnerPayload_eq entity newOwner h] at hev
  have hpayload := Except.ok.inj hev
  have hdrop : (UpdateOwnerHeader.bytes ⟨entity, newOwner, UInt32.ofNat state.length⟩ ++ state).drop 16 =
      state := List.drop_left' (length_updateOwnerHeader _)
  unfold decodeUpdateOwnerAsDirectoryUpdate
  rw [← hpayload]
  simp only [load_updateOwnerHeader, List.length_append, length_updateOwnerHeader, toNat_stateBytes h, hdrop,
    List.take_length]
  simp

theorem decodeInstall_made (padding : UInt32) (entity : EntityId) {state : ByteBuffer}
    (h : state.length < 2 ^ 32) {ev : Event} (hev : ev.payload = {
      kind := defaultInstallKind
      bytes := InstallHeader.bytes padding ⟨entity, UInt32.ofNat state.length⟩ ++ state }) :
    decodeInstall ev = .ok (entity, state) := by
  have hdrop : (InstallHeader.bytes padding ⟨entity, UInt32.ofNat state.length⟩ ++ state).drop 16 = state :=
    List.drop_left' (length_installHeader _ _)
  unfold decodeInstall
  rw [hev]
  simp only [load_installHeader, List.length_append, length_installHeader, toNat_stateBytes h, hdrop,
    List.take_length]
  simp

/-- A payload that is accepted has been made. -/
theorem made_of_decoded {padding : UInt32} {ev : Event} {u : DirectoryUpdate}
    (h : decodeUpdateOwnerAsDirectoryUpdate padding ev = .ok u) :
    ∃ entity newOwner state, state.length < 2 ^ 32 ∧
      makeUpdateOwnerPayload entity newOwner state = .ok ev.payload := by
  unfold decodeUpdateOwnerAsDirectoryUpdate at h
  split at h
  · cases h
  · next hkind =>
    split at h
    · cases h
    · next hshort =>
      dsimp only at h
      split at h
      · cases h
      · next hsize =>
        have hlong : 16 ≤ ev.payload.bytes.length := Nat.not_lt.mp hshort
        have hsize' : ev.payload.bytes.length = 16 + (UpdateOwnerHeader.load ev.payload.bytes).stateBytes.toNat :=
          not_not.mp hsize
        have hlt := (UpdateOwnerHeader.load ev.payload.bytes).stateBytes.toNat_lt
        have hlen : (ev.payload.bytes.drop 16).length =
            (UpdateOwnerHeader.load ev.payload.bytes).stateBytes.toNat := by
          rw [List.length_drop]
          omega
        have hbound : (ev.payload.bytes.drop 16).length < 2 ^ 32 := hlen ▸ hlt
        refine ⟨(UpdateOwnerHeader.load ev.payload.bytes).entity,
          (UpdateOwnerHeader.load ev.payload.bytes).newOwner, ev.payload.bytes.drop 16, hbound, ?_⟩
        rw [makeUpdateOwnerPayload_eq _ _ hbound]
        have hcount : UInt32.ofNat (ev.payload.bytes.drop 16).length =
            (UpdateOwnerHeader.load ev.payload.bytes).stateBytes := by
          rw [hlen]
          simp
        have hheader := bytes_load_updateOwnerHeader hlong
        rw [hcount, hheader, List.take_append_drop, ← not_not.mp hkind]

/-- The state passes through the update and the install unchanged, and exactly the payloads that
`make_update_owner_payload` makes are accepted. -/
theorem payloads_intact (padding : UInt32) (entity : EntityId) (newOwner : LPId) {state : ByteBuffer}
    (h : state.length < 2 ^ 32) :
    (∃ payload, makeUpdateOwnerPayload entity newOwner state = .ok payload ∧
      ∀ ev : Event, ev.payload = payload → ∃ u, decodeUpdateOwnerAsDirectoryUpdate padding ev = .ok u ∧
        u.entity = entity ∧ u.newOwner = newOwner ∧
        ∀ install : Event, install.payload = u.installPayload → decodeInstall install = .ok (entity, state)) ∧
    ∀ ev : Event, (∃ u, decodeUpdateOwnerAsDirectoryUpdate padding ev = .ok u) ↔
      ∃ entity newOwner state, makeUpdateOwnerPayload entity newOwner state = .ok ev.payload := by
  refine ⟨⟨_, makeUpdateOwnerPayload_eq entity newOwner h, fun ev hev => ?_⟩, fun ev => ⟨?_, ?_⟩⟩
  · have hmade : makeUpdateOwnerPayload entity newOwner state = .ok ev.payload := by
      rw [makeUpdateOwnerPayload_eq entity newOwner h, hev]
    exact ⟨_, decodeUpdateOwner_made padding entity newOwner h hmade, rfl, rfl,
      fun install hinstall => decodeInstall_made padding entity h hinstall⟩
  · rintro ⟨u, hu⟩
    obtain ⟨e, o, s, -, hmade⟩ := made_of_decoded hu
    exact ⟨e, o, s, hmade⟩
  · rintro ⟨e, o, s, hmade⟩
    have hs : s.length < 2 ^ 32 := by
      unfold makeUpdateOwnerPayload at hmade
      split at hmade
      · cases hmade
      · omega
    exact ⟨_, decodeUpdateOwner_made padding e o hs hmade⟩

theorem payloads_intact_bytes :
    ∃ payload, makeUpdateOwnerPayload 7 3 [1, 2, 3] = .ok payload ∧
      ∃ u, decodeUpdateOwnerAsDirectoryUpdate 0 { payload := payload } = .ok u ∧
        u.entity = 7 ∧ u.newOwner = 3 ∧
        decodeInstall { payload := u.installPayload } = .ok (7, [1, 2, 3]) := by
  have hshort : ([1, 2, 3] : ByteBuffer).length < 2 ^ 32 := by decide
  obtain ⟨⟨payload, hmade, hdecode⟩, -⟩ := payloads_intact 0 7 3 hshort
  obtain ⟨u, hu, hentity, howner, hinstall⟩ := hdecode { payload := payload } rfl
  exact ⟨payload, hmade, u, hu, hentity, howner, hinstall { payload := u.installPayload } rfl⟩

end OptimisticMigration

end WarpSim

import WarpSim.Verification.Wire.RoundTrip

/-! # Which buffers are accepted

The decoders stop after the last field. A buffer that goes on is accepted, and so is any byte
other than zero for an anti-message. -/

namespace WarpSim

open Prog Cursor WireReader

/-! ## What is accepted -/

theorem decodeEvent_ok_iff {bytes : ByteBuffer} {ev : Event} :
    decodeEvent bytes = .ok ev ↔ ∃ flag tail, ev.isAnti = (flag != 0) ∧
      ev.payload.bytes.length < 2 ^ 32 ∧ bytes = eventBytes flag ev ++ tail := by
  constructor
  · intro h
    obtain ⟨_, tail, rfl, flag, hflag, hlen, rfl⟩ := accepts_event.run h
    exact ⟨flag, tail, hflag, hlen, rfl⟩
  · rintro ⟨flag, tail, hflag, hlen, rfl⟩
    exact (reads_event hflag hlen).run_append tail

theorem decodeMigration_ok_iff {bytes : ByteBuffer} {m : Migration} :
    decodeMigration bytes = .ok m ↔
      ∃ tail, m.state.length < 2 ^ 32 ∧ bytes = migrationBytes m ++ tail := by
  constructor
  · intro h
    obtain ⟨_, tail, rfl, hlen, rfl⟩ := accepts_migration.run h
    exact ⟨tail, hlen, rfl⟩
  · rintro ⟨tail, hlen, rfl⟩
    exact (reads_migration hlen).run_append tail

/-! ## The length that a buffer asks for -/

/-- The length of the event that begins a buffer, read off its length field. -/
def eventLength (bytes : ByteBuffer) : ℕ := 50 + ofLittleEndian ((bytes.drop 46).take 4)

/-- The length of the migration that begins a buffer, read off its length field. -/
def migrationLength (bytes : ByteBuffer) : ℕ := 32 + ofLittleEndian ((bytes.drop 28).take 4)

/-- The byte that says whether the event is an anti-message. -/
def antiByte (bytes : ByteBuffer) : UInt8 := bytes.getD 41 0

theorem eventLength_eventBytes {flag : UInt8} {ev : Event} (tail : ByteBuffer)
    (h : ev.payload.bytes.length < 2 ^ 32) :
    eventLength (eventBytes flag ev ++ tail) = (eventBytes flag ev).length := by
  have hfield : ((eventBytes flag ev ++ tail).drop 46).take 4 =
      littleEndian 4 (UInt32.ofNat ev.payload.bytes.length).toNat := by
    simp [eventBytes, List.drop_append, List.drop_eq_nil_of_le]
  rw [eventLength, hfield, ofLittleEndian_littleEndian, eventBytes_length]
  simp
  omega

theorem migrationLength_migrationBytes {m : Migration} (tail : ByteBuffer)
    (h : m.state.length < 2 ^ 32) :
    migrationLength (migrationBytes m ++ tail) = (migrationBytes m).length := by
  have hfield : ((migrationBytes m ++ tail).drop 28).take 4 =
      littleEndian 4 (UInt32.ofNat m.state.length).toNat := by
    simp [migrationBytes, List.drop_append, List.drop_eq_nil_of_le]
  rw [migrationLength, hfield, ofLittleEndian_littleEndian, migrationBytes_length]
  simp
  omega

theorem antiByte_eventBytes (flag : UInt8) (ev : Event) (tail : ByteBuffer) :
    antiByte (eventBytes flag ev ++ tail) = flag := by
  simp [antiByte, eventBytes, List.getElem?_append]

/-! ## A buffer that is long enough is accepted -/

theorem exists_u8 (bytes : ByteBuffer) (h : 1 ≤ bytes.length) :
    ∃ v tail, bytes = [v] ++ tail ∧ tail.length = bytes.length - 1 := by
  cases bytes with
  | nil => simp at h
  | cons v tail => exact ⟨v, tail, rfl, by simp⟩

theorem exists_u32 (bytes : ByteBuffer) (h : 4 ≤ bytes.length) :
    ∃ (v : UInt32) (tail : ByteBuffer), bytes = littleEndian 4 v.toNat ++ tail ∧
      tail.length = bytes.length - 4 := by
  have hlen : (bytes.take 4).length = 4 := List.length_take_of_le h
  have hlt := ofLittleEndian_lt (bytes.take 4)
  have hword := littleEndian_ofLittleEndian (bytes.take 4)
  rw [hlen] at hword
  rw [hlen, show 256 ^ 4 = 2 ^ 32 by norm_num] at hlt
  refine ⟨UInt32.ofNat (ofLittleEndian (bytes.take 4)), bytes.drop 4, ?_, by simp⟩
  rw [UInt32.toNat_ofNat', Nat.mod_eq_of_lt hlt, hword, List.take_append_drop]

theorem exists_u64 (bytes : ByteBuffer) (h : 8 ≤ bytes.length) :
    ∃ (v : UInt64) (tail : ByteBuffer), bytes = littleEndian 8 v.toNat ++ tail ∧
      tail.length = bytes.length - 8 := by
  have hlen : (bytes.take 8).length = 8 := List.length_take_of_le h
  have hlt := ofLittleEndian_lt (bytes.take 8)
  have hword := littleEndian_ofLittleEndian (bytes.take 8)
  rw [hlen] at hword
  rw [hlen, show 256 ^ 8 = 2 ^ 64 by norm_num] at hlt
  refine ⟨UInt64.ofNat (ofLittleEndian (bytes.take 8)), bytes.drop 8, ?_, by simp⟩
  rw [UInt64.toNat_ofNat', Nat.mod_eq_of_lt hlt, hword, List.take_append_drop]

/-- A length field and at least as many bytes as it says. -/
theorem exists_bytes {n : UInt32} {bytes : ByteBuffer} (h : n.toNat ≤ bytes.length) :
    ∃ body tail : ByteBuffer, bytes = body ++ tail ∧ body.length < 2 ^ 32 ∧
      UInt32.ofNat body.length = n := by
  have hlen : (bytes.take n.toNat).length = n.toNat := List.length_take_of_le h
  refine ⟨bytes.take n.toNat, bytes.drop n.toNat, (List.take_append_drop _ _).symm, ?_, ?_⟩
  · rw [hlen]
    exact n.toNat_lt
  · rw [hlen, UInt32.ofNat_toNat]

theorem decodeEvent_of_length {bytes : ByteBuffer} (h : eventLength bytes ≤ bytes.length) :
    ∃ ev, decodeEvent bytes = .ok ev := by
  have h50 : 50 ≤ bytes.length := le_trans (Nat.le_add_right _ _) h
  obtain ⟨time, b, rfl, h₁⟩ := exists_u64 bytes (by omega)
  obtain ⟨sequence, b, rfl, h₂⟩ := exists_u64 b (by omega)
  obtain ⟨src, b, rfl, h₃⟩ := exists_u32 b (by omega)
  obtain ⟨dst, b, rfl, h₄⟩ := exists_u32 b (by omega)
  obtain ⟨target, b, rfl, h₅⟩ := exists_u64 b (by omega)
  obtain ⟨uid, b, rfl, h₆⟩ := exists_u64 b (by omega)
  obtain ⟨gvtColor, b, rfl, h₇⟩ := exists_u8 b (by omega)
  obtain ⟨flag, b, rfl, h₈⟩ := exists_u8 b (by omega)
  obtain ⟨kind, b, rfl, h₉⟩ := exists_u32 b (by omega)
  obtain ⟨n, b, rfl, h₁₀⟩ := exists_u32 b (by omega)
  have hn : n.toNat ≤ b.length := by
    have hlt := n.toNat_lt
    simp [eventLength, List.drop_append, List.drop_eq_nil_of_le, ofLittleEndian_littleEndian] at h
    omega
  obtain ⟨body, tail, rfl, hlen, rfl⟩ := exists_bytes hn
  refine ⟨⟨⟨time, sequence⟩, src, dst, target, uid, ⟨kind, body⟩, gvtColor, flag != 0⟩,
    decodeEvent_ok_iff.mpr ⟨flag, tail, rfl, hlen, ?_⟩⟩
  simp [eventBytes]

theorem decodeMigration_of_length {bytes : ByteBuffer}
    (h : migrationLength bytes ≤ bytes.length) : ∃ m, decodeMigration bytes = .ok m := by
  have h32 : 32 ≤ bytes.length := le_trans (Nat.le_add_right _ _) h
  obtain ⟨entity, b, rfl, h₁⟩ := exists_u64 bytes (by omega)
  obtain ⟨newOwner, b, rfl, h₂⟩ := exists_u32 b (by omega)
  obtain ⟨time, b, rfl, h₃⟩ := exists_u64 b (by omega)
  obtain ⟨sequence, b, rfl, h₄⟩ := exists_u64 b (by omega)
  obtain ⟨n, b, rfl, h₅⟩ := exists_u32 b (by omega)
  have hn : n.toNat ≤ b.length := by
    have hlt := n.toNat_lt
    simp [migrationLength, List.drop_append, List.drop_eq_nil_of_le, ofLittleEndian_littleEndian] at h
    omega
  obtain ⟨body, tail, rfl, hlen, rfl⟩ := exists_bytes hn
  refine ⟨⟨entity, newOwner, ⟨time, sequence⟩, body⟩, decodeMigration_ok_iff.mpr ⟨tail, hlen, ?_⟩⟩
  simp [migrationBytes]

/-! ## Canonical buffers -/

theorem antiFlag_of_le_one {flag : UInt8} (h : flag ≤ 1) : antiFlag (flag != 0) = flag := by
  have hlt := UInt8.le_iff_toNat_le.mp h
  have hcases : flag.toNat = 0 ∨ flag.toNat = 1 := by
    simp at hlt
    omega
  rcases hcases with h0 | h1
  · rw [show flag = 0 from UInt8.toNat_inj.mp h0]
    decide
  · rw [show flag = 1 from UInt8.toNat_inj.mp h1]
    decide

/-- `decode_event` accepts only canonical encodings exactly among the buffers that are too short
for the payload they announce or end right after it, with a flag that is zero or one. -/
theorem decodeEvent_canonical_iff (bytes : ByteBuffer) :
    (∀ ev, decodeEvent bytes = .ok ev → encodeEvent ev = bytes) ↔
      bytes.length < eventLength bytes ∨
        (bytes.length = eventLength bytes ∧ antiByte bytes ≤ 1) := by
  constructor
  · intro h
    by_cases hlen : bytes.length < eventLength bytes
    · exact Or.inl hlen
    · obtain ⟨ev, hev⟩ := decodeEvent_of_length (Nat.le_of_not_lt hlen)
      obtain ⟨flag, tail, hflag, hsize, rfl⟩ := decodeEvent_ok_iff.mp hev
      have henc := h ev hev
      have htail : tail = [] := by
        have := congrArg List.length henc
        rw [encodeEvent_eq, List.length_append, eventBytes_length, eventBytes_length] at this
        exact List.length_eq_zero_iff.mp (by omega)
      have hbyte : antiFlag ev.isAnti = flag := by
        have := congrArg antiByte henc
        rw [antiByte_eventBytes, encodeEvent_eq, ← List.append_nil (eventBytes _ ev),
          antiByte_eventBytes] at this
        exact this
      refine Or.inr ⟨?_, ?_⟩
      · rw [eventLength_eventBytes tail hsize, htail, List.append_nil]
      · rw [antiByte_eventBytes, ← hbyte]
        cases ev.isAnti <;> decide
  · rintro h ev hev
    obtain ⟨flag, tail, hflag, hsize, rfl⟩ := decodeEvent_ok_iff.mp hev
    rw [eventLength_eventBytes tail hsize, antiByte_eventBytes, List.length_append] at h
    rcases h with h | ⟨hlen, hle⟩
    · omega
    · have htail : tail = [] := List.length_eq_zero_iff.mp (by omega)
      rw [encodeEvent_eq, hflag, antiFlag_of_le_one hle, htail, List.append_nil]

theorem decodeMigration_canonical_iff (bytes : ByteBuffer) :
    (∀ m, decodeMigration bytes = .ok m → encodeMigration m = bytes) ↔
      bytes.length ≤ migrationLength bytes := by
  constructor
  · intro h
    by_contra hlen
    obtain ⟨m, hm⟩ := decodeMigration_of_length (le_of_not_ge hlen)
    obtain ⟨tail, hsize, rfl⟩ := decodeMigration_ok_iff.mp hm
    have henc := congrArg List.length (h m hm)
    rw [migrationLength_migrationBytes tail hsize] at hlen
    rw [encodeMigration_eq] at henc
    omega
  · rintro h m hm
    obtain ⟨tail, hsize, rfl⟩ := decodeMigration_ok_iff.mp hm
    rw [migrationLength_migrationBytes tail hsize, List.length_append] at h
    have htail : tail = [] := List.length_eq_zero_iff.mp (by omega)
    rw [encodeMigration_eq, htail, List.append_nil]

/-- Both decoders accept only canonical encodings exactly on the buffers without surplus bytes
and, for events, with a flag that is zero or one. -/
theorem decode_canonical_iff (bytes : ByteBuffer) :
    ((∀ ev, decodeEvent bytes = .ok ev → encodeEvent ev = bytes) ↔
      bytes.length < eventLength bytes ∨
        (bytes.length = eventLength bytes ∧ antiByte bytes ≤ 1)) ∧
    ((∀ m, decodeMigration bytes = .ok m → encodeMigration m = bytes) ↔
      bytes.length ≤ migrationLength bytes) :=
  ⟨decodeEvent_canonical_iff bytes, decodeMigration_canonical_iff bytes⟩

/-- A surplus byte after an event, the flag `2`, and a surplus byte after a migration. -/
theorem decode_accepts_malformed :
    (decodeEvent (encodeEvent {} ++ [0]) = .ok {} ∧ encodeEvent {} ≠ encodeEvent {} ++ [0]) ∧
    (decodeEvent ((encodeEvent {}).set 41 2) = .ok { isAnti := true } ∧
      encodeEvent { isAnti := true } ≠ (encodeEvent {}).set 41 2) ∧
    (decodeMigration (encodeMigration ⟨7, 2, ⟨5, 0⟩, []⟩ ++ [0]) = .ok ⟨7, 2, ⟨5, 0⟩, []⟩ ∧
      encodeMigration ⟨7, 2, ⟨5, 0⟩, []⟩ ≠ encodeMigration ⟨7, 2, ⟨5, 0⟩, []⟩ ++ [0]) := by
  decide +kernel

end WarpSim

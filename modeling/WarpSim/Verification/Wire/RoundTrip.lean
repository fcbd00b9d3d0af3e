import WarpSim.Model.Wire

/-! # The wire format round-trips -/

namespace WarpSim

open Prog Cursor

/-! ## What the writer appends -/

namespace WireWriter

theorem foldl_push (f : ℕ → UInt8) (is : List ℕ) (w : WireWriter) :
    (is.foldl (fun w i => { buf := w.buf ++ [f i] }) w).buf = w.buf ++ is.map f := by
  induction is generalizing w with
  | nil => simp
  | cons i is ih => simp [ih]

theorem byteU32 (v : UInt32) {i : ℕ} (hi : i < 4) :
    ((v >>> (8 * UInt32.ofNat i)) &&& 0xFF).toUInt8 = UInt8.ofNat (v.toNat / 256 ^ i % 256) := by
  have hshift : 8 * i % 32 = 8 * i := Nat.mod_eq_of_lt (by omega)
  apply UInt8.toNat_inj.mp
  simp [hshift, shiftRight_mod_and]

theorem byteU64 (v : UInt64) {i : ℕ} (hi : i < 8) :
    ((v >>> (8 * UInt64.ofNat i)) &&& 0xFF).toUInt8 = UInt8.ofNat (v.toNat / 256 ^ i % 256) := by
  have hshift : 8 * i % 64 = 8 * i := Nat.mod_eq_of_lt (by omega)
  apply UInt8.toNat_inj.mp
  simp [hshift, shiftRight_mod_and]

@[simp] theorem writeU8_buf (w : WireWriter) (v : UInt8) : (w.writeU8 v).buf = w.buf ++ [v] := rfl

@[simp] theorem writeU32_buf (w : WireWriter) (v : UInt32) :
    (w.writeU32 v).buf = w.buf ++ littleEndian 4 v.toNat := by
  rw [writeU32, foldl_push, littleEndian]
  congr 1
  apply List.map_congr_left
  intro i hi
  exact byteU32 v (List.mem_range.mp hi)

@[simp] theorem writeU64_buf (w : WireWriter) (v : UInt64) :
    (w.writeU64 v).buf = w.buf ++ littleEndian 8 v.toNat := by
  rw [writeU64, foldl_push, littleEndian]
  congr 1
  apply List.map_congr_left
  intro i hi
  exact byteU64 v (List.mem_range.mp hi)

@[simp] theorem writeBytes_buf (w : WireWriter) (bytes : ByteBuffer) :
    (w.writeBytes bytes).buf =
      w.buf ++ (littleEndian 4 (UInt32.ofNat bytes.length).toNat ++ bytes) := by
  simp [writeBytes]

end WireWriter

/-! ## What the reader reads -/

namespace WireReader

theorem collects_placeU32 : Collects 4 UInt32.toNat placeU32 := by
  intro out i b hi hout
  have hshift : 8 * i % 32 = 8 * i := Nat.mod_eq_of_lt (by omega)
  have hor := or_shiftLeft hi hout b
  norm_num at hor
  simpa [placeU32, hshift] using hor

theorem collects_placeU64 : Collects 8 UInt64.toNat placeU64 := by
  intro out i b hi hout
  have hshift : 8 * i % 64 = 8 * i := Nat.mod_eq_of_lt (by omega)
  have hor := or_shiftLeft hi hout b
  norm_num at hor
  simpa [placeU64, hshift] using hor

theorem reads_u8 (v : UInt8) : Reads readU8 [v] v :=
  Reads.require rfl fun _ _ h => exec_next h

theorem reads_u32 (v : UInt32) : Reads readU32 (littleEndian 4 v.toNat) v :=
  Reads.word collects_placeU32 (by simp) (fun _ _ => UInt32.toNat_inj.mp) v.toNat_lt

theorem reads_u64 (v : UInt64) : Reads readU64 (littleEndian 8 v.toNat) v :=
  Reads.word collects_placeU64 (by simp) (fun _ _ => UInt64.toNat_inj.mp) v.toNat_lt

theorem reads_bytes {bytes : ByteBuffer} (h : bytes.length < 2 ^ 32) :
    Reads readBytes (littleEndian 4 (UInt32.ofNat bytes.length).toNat ++ bytes) bytes := by
  have hlen : bytes.length = (UInt32.ofNat bytes.length).toNat := by
    rw [UInt32.toNat_ofNat', Nat.mod_eq_of_lt h]
  exact (reads_u32 _).bind (Reads.slice _ hlen)

theorem accepts_u8 : Accepts readU8 (fun w v => w = [v]) := by
  have h : Accepts readU8 (fun w v => w.length = 1 ∧ w = [v]) := by
    apply Accepts.require
    intro c w tail hw hleft
    obtain ⟨v, rfl⟩ := List.length_eq_one_iff.mp hw
    obtain ⟨c', hc', hleft'⟩ := exec_next (ε := String) hleft
    exact ⟨v, c', hc', rfl, hleft'⟩
  exact h.mono fun _ _ h => h.2

theorem accepts_u32 : Accepts readU32 (fun w v => w = littleEndian 4 v.toNat) :=
  Accepts.word collects_placeU32 (by simp)

theorem accepts_u64 : Accepts readU64 (fun w v => w = littleEndian 8 v.toNat) :=
  Accepts.word collects_placeU64 (by simp)

theorem accepts_bytes : Accepts readBytes (fun w bytes => bytes.length < 2 ^ 32 ∧
    w = littleEndian 4 (UInt32.ofNat bytes.length).toNat ++ bytes) := by
  apply (accepts_u32.bind fun n => Accepts.slice _ n.toNat).mono
  rintro w bytes ⟨n, u, v, rfl, rfl, hlen, rfl⟩
  refine ⟨hlen ▸ n.toNat_lt, ?_⟩
  rw [hlen, UInt32.ofNat_toNat]

theorem keeps_within_u8 (bytes : ByteBuffer) : Keeps (Within bytes) readU8 := by
  apply keeps_within_require
  have h := within_collect (ε := String) bytes (fun _ _ b => b) [0] 0
  simpa [collect] using h

theorem keeps_within_u32 (bytes : ByteBuffer) : Keeps (Within bytes) readU32 :=
  keeps_within_word bytes

theorem keeps_within_u64 (bytes : ByteBuffer) : Keeps (Within bytes) readU64 :=
  keeps_within_word bytes

theorem keeps_within_bytes (bytes : ByteBuffer) : Keeps (Within bytes) readBytes :=
  keeps_bind (keeps_within_u32 bytes) fun n => keeps_within_require (within_slice n.toNat)

end WireReader

open WireReader

/-! ## Events -/

/-- The encoding of an event, with `flag` for the byte that says whether it is an anti-message. -/
def eventBytes (flag : UInt8) (ev : Event) : ByteBuffer :=
  littleEndian 8 ev.ts.time.toNat ++ (littleEndian 8 ev.ts.sequence.toNat ++
    (littleEndian 4 ev.src.toNat ++ (littleEndian 4 ev.dst.toNat ++
    (littleEndian 8 ev.target.toNat ++ (littleEndian 8 ev.uid.toNat ++
    ([ev.gvtColor] ++ ([flag] ++ (littleEndian 4 ev.payload.kind.toNat ++
    (littleEndian 4 (UInt32.ofNat ev.payload.bytes.length).toNat ++ ev.payload.bytes)))))))))

/-- The byte that `encode_event` writes for `isAnti`. -/
def antiFlag (isAnti : Bool) : UInt8 := if isAnti then 1 else 0

theorem encodeEvent_eq (ev : Event) : encodeEvent ev = eventBytes (antiFlag ev.isAnti) ev := by
  simp [encodeEvent, eventBytes, antiFlag, WireWriter.take]

theorem reads_event {flag : UInt8} {ev : Event} (hflag : ev.isAnti = (flag != 0))
    (h : ev.payload.bytes.length < 2 ^ 32) : Reads readEvent (eventBytes flag ev) ev := by
  apply (reads_u64 ev.ts.time).bind
  apply (reads_u64 ev.ts.sequence).bind
  apply (reads_u32 ev.src).bind
  apply (reads_u32 ev.dst).bind
  apply (reads_u64 ev.target).bind
  apply (reads_u64 ev.uid).bind
  apply (reads_u8 ev.gvtColor).bind
  apply (reads_u8 flag).bind
  apply (reads_u32 ev.payload.kind).bind
  rw [← hflag]
  exact (reads_bytes h).bind_pure _

theorem accepts_event : Accepts readEvent (fun w ev => ∃ flag, ev.isAnti = (flag != 0) ∧
    ev.payload.bytes.length < 2 ^ 32 ∧ w = eventBytes flag ev) := by
  apply Accepts.mono
  · apply accepts_u64.bind; intro time
    apply accepts_u64.bind; intro sequence
    apply accepts_u32.bind; intro src
    apply accepts_u32.bind; intro dst
    apply accepts_u64.bind; intro target
    apply accepts_u64.bind; intro uid
    apply accepts_u8.bind; intro gvtColor
    apply accepts_u8.bind; intro flag
    apply accepts_u32.bind; intro kind
    apply accepts_bytes.bind; intro bytes
    apply Accepts.pure
  · rintro w ev ⟨time, _, _, rfl, rfl, sequence, _, _, rfl, rfl, src, _, _, rfl, rfl, dst, _, _, rfl,
      rfl, target, _, _, rfl, rfl, uid, _, _, rfl, rfl, gvtColor, _, _, rfl, rfl, flag, _, _, rfl,
      rfl, kind, _, _, rfl, rfl, bytes, _, _, rfl, ⟨hlen, rfl⟩, rfl, rfl⟩
    exact ⟨flag, rfl, hlen, by simp [eventBytes]⟩

theorem keeps_within_event (bytes : ByteBuffer) : Keeps (Within bytes) readEvent := by
  have h8 := keeps_within_u8 bytes
  have h32 := keeps_within_u32 bytes
  have h64 := keeps_within_u64 bytes
  apply keeps_bind h64; intro time
  apply keeps_bind h64; intro sequence
  apply keeps_bind h32; intro src
  apply keeps_bind h32; intro dst
  apply keeps_bind h64; intro target
  apply keeps_bind h64; intro uid
  apply keeps_bind h8; intro gvtColor
  apply keeps_bind h8; intro isAnti
  apply keeps_bind h32; intro kind
  exact keeps_bind (keeps_within_bytes bytes) fun _ => keeps_pure _

/-! ## Migrations -/

def migrationBytes (m : Migration) : ByteBuffer :=
  littleEndian 8 m.entity.toNat ++ (littleEndian 4 m.newOwner.toNat ++
    (littleEndian 8 m.effectiveTs.time.toNat ++ (littleEndian 8 m.effectiveTs.sequence.toNat ++
    (littleEndian 4 (UInt32.ofNat m.state.length).toNat ++ m.state))))

theorem encodeMigration_eq (m : Migration) : encodeMigration m = migrationBytes m := by
  simp [encodeMigration, migrationBytes, WireWriter.take]

theorem reads_migration {m : Migration} (h : m.state.length < 2 ^ 32) :
    Reads readMigration (migrationBytes m) m := by
  apply (reads_u64 m.entity).bind
  apply (reads_u32 m.newOwner).bind
  apply (reads_u64 m.effectiveTs.time).bind
  apply (reads_u64 m.effectiveTs.sequence).bind
  exact (reads_bytes h).bind_pure _

theorem accepts_migration :
    Accepts readMigration (fun w m => m.state.length < 2 ^ 32 ∧ w = migrationBytes m) := by
  apply Accepts.mono
  · apply accepts_u64.bind; intro entity
    apply accepts_u32.bind; intro newOwner
    apply accepts_u64.bind; intro time
    apply accepts_u64.bind; intro sequence
    apply accepts_bytes.bind; intro state
    apply Accepts.pure
  · rintro w m ⟨entity, _, _, rfl, rfl, newOwner, _, _, rfl, rfl, time, _, _, rfl, rfl, sequence, _, _,
      rfl, rfl, state, _, _, rfl, ⟨hlen, rfl⟩, rfl, rfl⟩
    exact ⟨hlen, by simp [migrationBytes]⟩

theorem keeps_within_migration (bytes : ByteBuffer) : Keeps (Within bytes) readMigration := by
  have h32 := keeps_within_u32 bytes
  have h64 := keeps_within_u64 bytes
  apply keeps_bind h64; intro entity
  apply keeps_bind h32; intro newOwner
  apply keeps_bind h64; intro time
  apply keeps_bind h64; intro sequence
  exact keeps_bind (keeps_within_bytes bytes) fun _ => keeps_pure _

/-! ## Acknowledgements -/

theorem decodeAck_encodeAck (key : InflightKey) : decodeAck (encodeAck key) = .ok key := by
  have h : Reads readAck
      (littleEndian 4 key.src.toNat ++ (littleEndian 8 key.uid.toNat ++ [antiFlag key.isAnti])) key := by
    apply (reads_u32 key.src).bind
    apply (reads_u64 key.uid).bind
    have hflag : (antiFlag key.isAnti != 0) = key.isAnti := by
      cases key.isAnti <;> decide
    have hlast := (reads_u8 (antiFlag key.isAnti)).bind_pure
      fun b => (⟨key.src, key.uid, b != 0⟩ : InflightKey)
    rwa [hflag] at hlast
  simpa [encodeAck, decodeAck, antiFlag, WireWriter.take] using h.run

/-! ## Frames -/

namespace MpiTransport

theorem frame_eq (msg : RawMessage) :
    frame msg = [msg.kind.value] ++ (littleEndian 4 msg.srcRank.toNat ++
      (littleEndian 4 msg.dstRank.toNat ++
      (littleEndian 4 (UInt32.ofNat msg.bytes.length).toNat ++ msg.bytes))) := by
  simp [frame, WireWriter.take]

theorem frame_length (msg : RawMessage) : (frame msg).length = 13 + msg.bytes.length := by
  simp [frame_eq]
  omega

theorem reads_frame {msg : RawMessage} (h : msg.bytes.length < 2 ^ 32) :
    Reads readFrame (frame msg) msg := by
  rw [frame_eq]
  apply (reads_u8 msg.kind.value).bind
  apply (reads_u32 msg.srcRank).bind
  apply (reads_u32 msg.dstRank).bind
  exact (reads_bytes h).bind_pure _

theorem keeps_within_frame (bytes : ByteBuffer) : Keeps (Within bytes) readFrame := by
  have h32 := keeps_within_u32 bytes
  apply keeps_bind (keeps_within_u8 bytes); intro kind
  apply keeps_bind h32; intro srcRank
  apply keeps_bind h32; intro dstRank
  exact keeps_bind (keeps_within_bytes bytes) fun _ => keeps_pure _

theorem poll_arrival {bytes : ByteBuffer} (hlt : bytes.length < 2 ^ 31) (hne : bytes ≠ []) :
    poll (arrival bytes) = some <$> Cursor.run readFrame bytes := by
  have hpos := List.length_pos_of_ne_nil hne
  have hcount : ¬ Int32.ofNat bytes.length ≤ 0 := by
    rw [Int32.le_iff_toInt_le, Int32.toInt_ofNat_of_lt hlt]
    simpa using hne
  simp [poll, arrival, hcount]

theorem poll_arrival_nil : ∃ e, poll (arrival []) = .error e := ⟨_, rfl⟩

/-- What `poll` makes of the frames that `send` packs, up to the sizes that fit an `int`. -/
theorem frame_format :
    Format (fun msg => (frame msg).length < 2 ^ 31) frame (fun bytes => poll (arrival bytes)) some where
  roundTrip msg hlt := by
    have hbytes := frame_length msg
    rw [poll_arrival hlt (by rw [frame_eq]; simp), (reads_frame (by omega)).run]
    rfl
  prefixFree msg hlt p hp hne := by
    have hbytes := frame_length msg
    by_cases hnil : p = []
    · exact hnil ▸ poll_arrival_nil
    · obtain ⟨e, he⟩ := (reads_frame (by omega)).run_short hp hne
      exact ⟨e, by rw [poll_arrival (lt_of_le_of_lt hp.length_le hlt) hnil, he]; rfl⟩

theorem send_delivered {testOk isendOk : Bool} {msg : RawMessage} {sent : Isend}
    (h : send testOk isendOk msg = .ok sent) : sent.delivered = arrival (frame msg) := by
  unfold send at h
  split at h
  · cases h
  · split at h
    · cases h
    · cases h
      rfl

end MpiTransport

/-! ## Every message gets through -/

theorem antiFlag_ne_zero (isAnti : Bool) : isAnti = (antiFlag isAnti != 0) := by
  cases isAnti <;> decide

theorem event_format :
    Format (fun ev : Event => ev.payload.bytes.length < 2 ^ 32) encodeEvent decodeEvent id :=
  Format.of_reads fun ev h => encodeEvent_eq ev ▸ reads_event (antiFlag_ne_zero _) h

theorem migration_format :
    Format (fun m : Migration => m.state.length < 2 ^ 32) encodeMigration decodeMigration id :=
  Format.of_reads fun m h => encodeMigration_eq m ▸ reads_migration h

theorem eventBytes_length (flag : UInt8) (ev : Event) :
    (eventBytes flag ev).length = 50 + ev.payload.bytes.length := by
  simp [eventBytes]
  omega

theorem migrationBytes_length (m : Migration) :
    (migrationBytes m).length = 32 + m.state.length := by
  simp [migrationBytes]
  omega

/-- A message of the kernel survives its encoding, where it is one that the receiver reads. -/
theorem decode_encode {cfg : SimulationConfig} {msg : WireMessage}
    (hlen : msg.encode.bytes.length < 2 ^ 32)
    (hack : ∀ srcRank dstRank key, msg = .ack srcRank dstRank key → cfg.gvtMode = .ackInflight) :
    msg.encode.decode cfg = .ok (some msg) := by
  cases msg with
  | event srcRank dstRank ev =>
    simp only [WireMessage.encode, encodeEvent_eq, eventBytes_length] at hlen
    have h := event_format.roundTrip ev (by omega)
    simp [WireMessage.encode, RawMessage.decode, h]
  | migration srcRank dstRank mig =>
    simp only [WireMessage.encode, encodeMigration_eq, migrationBytes_length] at hlen
    have h := migration_format.roundTrip mig (by omega)
    have hkind : MessageKind.migration ≠ .event := by decide
    simp [WireMessage.encode, RawMessage.decode, h, hkind]
  | ack srcRank dstRank key =>
    have h := decodeAck_encodeAck key
    have hevent : MessageKind.ack ≠ .event := by decide
    have hmigration : MessageKind.ack ≠ .migration := by decide
    simp [WireMessage.encode, RawMessage.decode, h, hevent, hmigration, hack srcRank dstRank key rfl]

open MpiTransport in
/-- Events, migrations and frames are read back as they were written, alone and through the
transport, and every shorter start of an encoding is refused. No decoder reads outside its buffer. -/
theorem wire_roundTrip :
    Format (fun ev : Event => ev.payload.bytes.length < 2 ^ 32) encodeEvent decodeEvent id ∧
    Format (fun m : Migration => m.state.length < 2 ^ 32) encodeMigration decodeMigration id ∧
    Format (fun msg => (frame msg).length < 2 ^ 31) frame (fun bytes => poll (arrival bytes)) some ∧
    (∀ testOk isendOk msg sent, (frame msg).length < 2 ^ 31 →
      MpiTransport.send testOk isendOk msg = .ok sent → poll sent.delivered = .ok (some msg)) ∧
    (∀ cfg (msg : WireMessage), (frame msg.encode).length < 2 ^ 31 →
      (∀ srcRank dstRank key, msg = .ack srcRank dstRank key → cfg.gvtMode = .ackInflight) →
      ∃ raw, poll (arrival (frame msg.encode)) = .ok (some raw) ∧ raw.decode cfg = .ok (some msg)) ∧
    ∀ bytes : ByteBuffer,
      (∀ i ∈ (exec readEvent { buf := bytes }).2.touched, i < bytes.length) ∧
      (∀ i ∈ (exec readMigration { buf := bytes }).2.touched, i < bytes.length) ∧
      ∀ i ∈ (exec readFrame { buf := bytes }).2.touched, i < bytes.length := by
  refine ⟨event_format, migration_format, frame_format, ?_, ?_, ?_⟩
  · intro testOk isendOk msg sent hlen hsent
    rw [send_delivered hsent]
    exact frame_format.roundTrip msg hlen
  · intro cfg msg hlen hack
    have hbytes := frame_length msg.encode
    exact ⟨_, frame_format.roundTrip _ hlen, decode_encode (by omega) hack⟩
  · intro bytes
    exact ⟨touched_lt keeps_within_event bytes, touched_lt keeps_within_migration bytes,
      touched_lt keeps_within_frame bytes⟩

open MpiTransport in
/-- An anti-message with a payload of two bytes, alone and through the transport. -/
theorem wire_roundTrip_anti :
    decodeEvent (encodeEvent ⟨⟨5, 1⟩, 1, 2, 7, 3, ⟨9, [0xFF, 0]⟩, 1, true⟩) =
        .ok ⟨⟨5, 1⟩, 1, 2, 7, 3, ⟨9, [0xFF, 0]⟩, 1, true⟩ ∧
      poll (arrival (frame ⟨.event, 0, 1, encodeEvent {}⟩)) =
        .ok (some ⟨.event, 0, 1, encodeEvent {}⟩) :=
  ⟨wire_roundTrip.1.roundTrip _ (by decide), wire_roundTrip.2.2.1.roundTrip _ (by decide)⟩

end WarpSim

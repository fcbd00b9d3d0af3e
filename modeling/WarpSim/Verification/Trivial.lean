import WarpSim.Library.LittleEndian
import WarpSim.Model.Trivial

/-! # Trivially copyable values come back -/

namespace WarpSim

theorem trivialBytes_eq {n : ℕ} (hn : n ≤ 8) (v : UInt64) : trivialBytes n v = littleEndian n v.toNat := by
  unfold trivialBytes littleEndian
  apply List.map_congr_left
  intro i hi
  have hlt : i < 8 := (List.mem_range.mp hi).trans_le hn
  have hshift : 8 * i % 64 = 8 * i := Nat.mod_eq_of_lt (by omega)
  apply UInt8.toNat_inj.mp
  simp [hshift, Nat.shiftRight_eq_div_pow, two_pow_eight_mul]

@[simp] theorem length_trivialBytes (n : ℕ) (v : UInt64) : (trivialBytes n v).length = n := by
  simp [trivialBytes]

/-- Shifting in the bytes from the last to the first spells the number. -/
theorem toNat_foldr (w : List UInt8) (hw : w.length ≤ 8) :
    (w.foldr (fun (b : UInt8) (word : UInt64) => (word <<< 8) ||| b.toUInt64) 0).toNat = ofLittleEndian w := by
  induction w with
  | nil => rfl
  | cons b w ih =>
      have hlen : w.length ≤ 7 := Nat.le_of_succ_le_succ hw
      have hlt := ofLittleEndian_lt w
      have hpow : 256 ^ w.length ≤ 256 ^ 7 := Nat.pow_le_pow_right (by norm_num) hlen
      have hb := b.toNat_lt
      have hor := Nat.two_pow_add_eq_or_of_lt (i := 8) hb (ofLittleEndian w)
      rw [List.foldr_cons, UInt64.toNat_or, UInt64.toNat_shiftLeft, ih (by omega), Nat.shiftLeft_eq]
      have hsmall : ofLittleEndian w * 2 ^ 8 < 2 ^ 64 := by omega
      have hmod : (8 : UInt64).toNat % 64 = 8 := by decide
      rw [hmod, Nat.mod_eq_of_lt hsmall, ofLittleEndian_cons, UInt8.toNat_toUInt64, mul_comm, ← hor]
      omega

theorem toNat_loadWord {n : ℕ} (hn : n ≤ 8) (bytes : ByteBuffer) :
    (loadWord n bytes).toNat = ofLittleEndian (bytes.take n) :=
  toNat_foldr _ ((List.length_take_le ..).trans hn)

/-- What is loaded from the bytes of a number that fits. -/
theorem loadWord_trivialBytes {n : ℕ} (hn : n ≤ 8) {v : UInt64} (hv : v.toNat < 256 ^ n) (tail : ByteBuffer) :
    loadWord n (trivialBytes n v ++ tail) = v := by
  apply UInt64.toNat_inj.mp
  have htake : (trivialBytes n v ++ tail).take n = trivialBytes n v :=
    List.take_left' (length_trivialBytes n v)
  rw [toNat_loadWord hn, htake, trivialBytes_eq hn, ofLittleEndian_littleEndian, Nat.mod_eq_of_lt hv]

/-- The bytes of what is loaded are those it is loaded from. -/
theorem trivialBytes_loadWord {n : ℕ} (hn : n ≤ 8) {bytes : ByteBuffer} (hlen : n ≤ bytes.length) :
    trivialBytes n (loadWord n bytes) = bytes.take n := by
  have htake : (bytes.take n).length = n := List.length_take_of_le hlen
  have hword := littleEndian_ofLittleEndian (bytes.take n)
  rw [trivialBytes_eq hn, toNat_loadWord hn]
  rwa [htake] at hword

/-! ## Words of 32 and 64 bits -/

@[simp] theorem length_bytes32 (v : UInt32) : (bytes32 v).length = 4 := length_trivialBytes ..

@[simp] theorem length_bytes64 (v : UInt64) : (bytes64 v).length = 8 := length_trivialBytes ..

@[simp] theorem load32_bytes32 (v : UInt32) (tail : ByteBuffer) : load32 (bytes32 v ++ tail) = v := by
  have hv := v.toNat_lt
  unfold load32 bytes32
  rw [loadWord_trivialBytes (by norm_num) (by simpa using hv)]
  simp

@[simp] theorem load64_bytes64 (v : UInt64) (tail : ByteBuffer) : load64 (bytes64 v ++ tail) = v := by
  have hv := v.toNat_lt
  exact loadWord_trivialBytes (by norm_num) (by simpa using hv) tail

theorem bytes32_load32 {bytes : ByteBuffer} (h : 4 ≤ bytes.length) : bytes32 (load32 bytes) = bytes.take 4 := by
  have hword := trivialBytes_loadWord (by norm_num) h
  have hlt := ofLittleEndian_lt (bytes.take 4)
  rw [List.length_take_of_le h] at hlt
  have hback : (loadWord 4 bytes).toUInt32.toUInt64 = loadWord 4 bytes := by
    apply UInt64.toNat_inj.mp
    rw [UInt32.toNat_toUInt64, UInt64.toNat_toUInt32, toNat_loadWord (by norm_num)]
    exact Nat.mod_eq_of_lt (by simpa using hlt)
  unfold bytes32 load32
  rw [hback, hword]

theorem bytes64_load64 {bytes : ByteBuffer} (h : 8 ≤ bytes.length) : bytes64 (load64 bytes) = bytes.take 8 :=
  trivialBytes_loadWord (by norm_num) h

end WarpSim

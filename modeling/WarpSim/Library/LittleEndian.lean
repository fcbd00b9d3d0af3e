import WarpSim.Library.Codec

/-! # Little-endian words -/

namespace WarpSim

open Prog

/-- The last `n` digits of `v` to base 256, the least significant first. -/
def littleEndian (n v : ℕ) : List UInt8 :=
  (List.range n).map fun i => UInt8.ofNat (v / 256 ^ i % 256)

/-- The number that these bytes spell. -/
def ofLittleEndian (w : List UInt8) : ℕ := Nat.ofDigits 256 (w.map UInt8.toNat)

@[simp] theorem littleEndian_length (n v : ℕ) : (littleEndian n v).length = n := by
  simp [littleEndian]

@[simp] theorem ofLittleEndian_nil : ofLittleEndian [] = 0 := rfl

@[simp] theorem ofLittleEndian_cons (b : UInt8) (w : List UInt8) :
    ofLittleEndian (b :: w) = b.toNat + 256 * ofLittleEndian w := by
  simp [ofLittleEndian, Nat.ofDigits_cons]

theorem ofLittleEndian_lt (w : List UInt8) : ofLittleEndian w < 256 ^ w.length := by
  have h := Nat.ofDigits_lt_base_pow_length (b := 256) (l := w.map UInt8.toNat) (by norm_num) (by
    intro x hx
    obtain ⟨b, -, rfl⟩ := List.mem_map.mp hx
    exact b.toNat_lt)
  simpa [ofLittleEndian] using h

/-- The digits of `v` spell `v`, up to what does not fit in `n` bytes. -/
theorem ofLittleEndian_littleEndian (n v : ℕ) :
    ofLittleEndian (littleEndian n v) = v % 256 ^ n := by
  induction n with
  | zero => simp [littleEndian, Nat.mod_one]
  | succ n ih =>
    have hlast : littleEndian (n + 1) v =
        littleEndian n v ++ [UInt8.ofNat (v / 256 ^ n % 256)] := by
      simp [littleEndian, List.range_succ]
    rw [hlast, ofLittleEndian, List.map_append, Nat.ofDigits_append, ← ofLittleEndian, ih,
      Nat.mod_pow_succ]
    simp

theorem ofLittleEndian_inj {w w' : List UInt8} (hlen : w.length = w'.length)
    (h : ofLittleEndian w = ofLittleEndian w') : w = w' := by
  induction w generalizing w' with
  | nil => exact (List.eq_nil_of_length_eq_zero hlen.symm).symm
  | cons b w ih =>
    cases w' with
    | nil => simp at hlen
    | cons b' w' =>
      have hb := b.toNat_lt
      have hb' := b'.toNat_lt
      simp only [ofLittleEndian_cons] at h
      have hhead : b = b' := UInt8.toNat_inj.mp (by omega)
      have htail : w = w' := ih (by simpa using hlen) (by omega)
      rw [hhead, htail]

/-- Every word is the list of digits of the number that it spells. -/
theorem littleEndian_ofLittleEndian (w : List UInt8) :
    littleEndian w.length (ofLittleEndian w) = w := by
  apply ofLittleEndian_inj (littleEndian_length _ _)
  rw [ofLittleEndian_littleEndian, Nat.mod_eq_of_lt (ofLittleEndian_lt w)]

/-! ## Digits by shifts and masks -/

theorem two_pow_eight_mul (i : ℕ) : 2 ^ (8 * i) = 256 ^ i := by
  rw [pow_mul]
  norm_num

/-- Shifting right by whole bytes and masking gives a digit. -/
theorem shiftRight_mod_and (v i : ℕ) : v >>> (8 * i) % 256 &&& 255 = v / 256 ^ i % 256 := by
  rw [Nat.shiftRight_eq_div_pow, two_pow_eight_mul]
  exact (Nat.and_two_pow_sub_one_eq_mod _ 8).trans (Nat.mod_mod _ _)

/-- A byte that is shifted left to its place and or-ed in is added, in a word of `n` bytes. -/
theorem or_shiftLeft {n i out : ℕ} (hi : i < n) (hout : out < 256 ^ i) (b : UInt8) :
    out ||| ((b.toNat <<< (8 * i)) % 256 ^ n) = out + 256 ^ i * b.toNat := by
  have hfit : b.toNat * 256 ^ i < 256 ^ n := by
    calc b.toNat * 256 ^ i < 256 * 256 ^ i := by
          apply Nat.mul_lt_mul_of_pos_right b.toNat_lt
          positivity
      _ = 256 ^ (i + 1) := (pow_succ' 256 i).symm
      _ ≤ 256 ^ n := Nat.pow_le_pow_right (by norm_num) hi
  have hor := Nat.two_pow_add_eq_or_of_lt (i := 8 * i) (two_pow_eight_mul i ▸ hout) b.toNat
  rw [two_pow_eight_mul] at hor
  rw [Nat.shiftLeft_eq, two_pow_eight_mul, Nat.mod_eq_of_lt hfit, mul_comm b.toNat, Nat.lor_comm,
    ← hor, add_comm]

/-! ## The reading loop -/

namespace Cursor

variable {ε α : Type}

/-- One turn of the loop that collects the bytes of a word. -/
def collect (step : α → ℕ → UInt8 → α) (out : α) (i : ℕ) : Prog ε (Cursor UInt8) α := do
  let b ← next
  return step out i b

/-- `step out i b` puts the byte `b` at the `i`-th place of a number of at most `n` bytes. -/
def Collects (n : ℕ) (val : α → ℕ) (step : α → ℕ → UInt8 → α) : Prop :=
  ∀ out i b, i < n → val out < 256 ^ i → val (step out i b) = val out + 256 ^ i * b.toNat

/-- The loop from the `k`-th place on adds the digits it reads. -/
theorem exec_collect {n : ℕ} {val : α → ℕ} {step : α → ℕ → UInt8 → α} (hstep : Collects n val step)
    (w : List UInt8) : ∀ (k : ℕ) (out : α) (c : Cursor UInt8) (tail : List UInt8),
      k + w.length ≤ n → val out < 256 ^ k → c.Left (w ++ tail) →
      ∃ out' c', exec ((List.range' k w.length).foldlM (collect (ε := ε) step) out) c = (.ok out', c') ∧
        val out' = val out + 256 ^ k * ofLittleEndian w ∧ c'.Left tail := by
  induction w with
  | nil =>
    intro k out c tail _ _ hleft
    exact ⟨out, c, rfl, by simp, hleft⟩
  | cons b w ih =>
    intro k out c tail hn hout hleft
    obtain ⟨c₁, hc₁, hleft₁⟩ := exec_next (ε := ε) hleft
    have hval := hstep out k b (by simp at hn; omega) hout
    have hb := b.toNat_lt
    have hlt : val (step out k b) < 256 ^ (k + 1) := by
      rw [hval, pow_succ]
      nlinarith
    obtain ⟨out', c', hc', hval', hleft'⟩ := ih (k + 1) (step out k b) c₁ tail
      (by simp at hn; omega) hlt hleft₁
    refine ⟨out', c', ?_, ?_, hleft'⟩
    · have hturn : exec (collect step out k) c = (.ok (step out k b), c₁) :=
        exec_bind_of_ok hc₁
      rw [List.length_cons, List.range'_succ, List.foldlM_cons, exec_bind_of_ok hturn, hc']
    · rw [hval', hval, ofLittleEndian_cons, pow_succ]
      ring

/-- Each turn of the loop reads one byte of those that were checked. -/
theorem within_collect (bytes : List UInt8) (step : α → ℕ → UInt8 → α) (is : List ℕ) (out : α) :
    Triple (fun c => Within bytes c ∧ c.pos + is.length ≤ bytes.length)
      (is.foldlM (collect (ε := ε) step) out) fun _ => Within bytes := by
  induction is generalizing out with
  | nil =>
    rintro c ⟨hc, -⟩
    exact hc
  | cons i is ih =>
    rintro c ⟨⟨hbuf, hpos, htouched⟩, hn⟩
    rw [List.length_cons] at hn
    rw [List.foldlM_cons]
    apply ih (step out i (c.buf.getD c.pos default))
      { c with pos := c.pos + 1, touched := c.touched ++ [c.pos] }
    refine ⟨⟨hbuf, by simp only; omega, ?_⟩, by simp only; omega⟩
    intro j hj
    rcases List.mem_append.mp hj with hj | hj
    · exact htouched j hj
    · rw [List.mem_singleton.mp hj]
      omega

section Word

variable {n : ℕ} {val : α → ℕ} {step : α → ℕ → UInt8 → α} {zero : α} {what : ε}

/-- The loop that reads a word of `n` bytes, after a check of the length. -/
def word (what : ε) (n : ℕ) (step : α → ℕ → UInt8 → α) (zero : α) : Prog ε (Cursor UInt8) α := do
  require what n
  (List.range n).foldlM (collect step) zero

theorem exec_loop (hstep : Collects n val step) (hzero : val zero = 0) {c : Cursor UInt8}
    {w tail : List UInt8} (hw : w.length = n) (hleft : c.Left (w ++ tail)) :
    ∃ out c', exec ((List.range n).foldlM (collect (ε := ε) step) zero) c = (.ok out, c') ∧
      val out = ofLittleEndian w ∧ c'.Left tail := by
  obtain ⟨out, c', hc', hval, hleft'⟩ :=
    exec_collect (ε := ε) hstep w 0 zero c tail (by omega) (by simp [hzero]) hleft
  rw [hw, ← List.range_eq_range'] at hc'
  exact ⟨out, c', hc', by simp [hval, hzero], hleft'⟩

theorem Reads.word (hstep : Collects n val step) (hzero : val zero = 0)
    (hinj : Function.Injective val) {v : α} (hv : val v < 256 ^ n) :
    Reads (Cursor.word what n step zero) (littleEndian n (val v)) v := by
  apply Reads.require (littleEndian_length n _)
  intro c tail hleft
  obtain ⟨out, c', hc', hval, hleft'⟩ :=
    exec_loop (ε := ε) hstep hzero (littleEndian_length n _) hleft
  have hout : out = v := hinj (by
    rw [hval, ofLittleEndian_littleEndian, Nat.mod_eq_of_lt hv])
  exact ⟨c', hout ▸ hc', hleft'⟩

theorem Accepts.word (hstep : Collects n val step) (hzero : val zero = 0) :
    Accepts (Cursor.word what n step zero) (fun w v => w = littleEndian n (val v)) := by
  have h : Accepts (Cursor.word what n step zero)
      (fun w v => w.length = n ∧ val v = ofLittleEndian w) :=
    Accepts.require fun _ _ _ hw hleft => exec_loop hstep hzero hw hleft
  apply h.mono
  rintro w v ⟨rfl, hval⟩
  rw [hval, littleEndian_ofLittleEndian]

theorem keeps_within_word (bytes : List UInt8) :
    Keeps (Within bytes) (word what n step zero) := by
  apply keeps_within_require
  have h := within_collect (ε := ε) bytes step (List.range n) zero
  rwa [List.length_range] at h

end Word

end Cursor

end WarpSim

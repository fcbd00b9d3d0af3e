import WarpSim.Library.Triple

/-! # Decoders over a buffer

A decoder is a program over a cursor. What it reads is described by two relations: `Reads m w a`
says that the word `w` is read as `a` and that every shorter start of `w` is refused, and
`Accepts m R` says that only words related to the result are accepted. -/

namespace WarpSim

open Prog

/-- A position in a buffer. The ghost `touched` lists the positions that have been read. -/
structure Cursor (β : Type) where
  buf : List β
  pos : ℕ := 0
  touched : List ℕ := []

namespace Cursor

variable {ε α β γ : Type}

/-- `w` is what is still to be read. -/
def Left (c : Cursor β) (w : List β) : Prop :=
  ∃ before, c.buf = before ++ w ∧ c.pos = before.length

/-- The cursor stands in `bytes` and has read nothing outside of it. -/
def Within (bytes : List β) (c : Cursor β) : Prop :=
  c.buf = bytes ∧ c.pos ≤ bytes.length ∧ ∀ i ∈ c.touched, i < bytes.length

/-- Throw unless `n` elements are left. -/
def require (what : ε) (n : ℕ) : Prog ε (Cursor β) Unit := do
  let c ← get
  if c.pos + n > c.buf.length then throw what else return

/-- Read one element. Nothing is checked: past the end the result is arbitrary. -/
def next [Inhabited β] : Prog ε (Cursor β) β := do
  let c ← get
  modify fun c => { c with pos := c.pos + 1, touched := c.touched ++ [c.pos] }
  return c.buf.getD c.pos default

/-- Read the next `n` elements. Nothing is checked. -/
def slice (n : ℕ) : Prog ε (Cursor β) (List β) := do
  let c ← get
  modify fun c => { c with pos := c.pos + n, touched := c.touched ++ List.range' c.pos n }
  return (c.buf.drop c.pos).take n

/-! ## One reading step -/

variable {c : Cursor β} {w tail : List β}

theorem left_start (w : List β) : Left { buf := w } w := ⟨[], by simp⟩

theorem exec_require_ok (what : ε) (h : c.Left (w ++ tail)) :
    exec (require what w.length) c = (.ok (), c) := by
  obtain ⟨before, hbuf, hpos⟩ := h
  simp [require, hbuf, hpos]

theorem exec_require_short {what : ε} {n : ℕ} (h : c.Left w) (hn : w.length < n) :
    exec (require what n) c = (.error what, c) := by
  obtain ⟨before, hbuf, hpos⟩ := h
  simp [require, hbuf, hpos, hn]

theorem exec_next [Inhabited β] {b : β} (h : c.Left (b :: tail)) :
    ∃ c', exec (next : Prog ε (Cursor β) β) c = (.ok b, c') ∧ c'.Left tail := by
  obtain ⟨before, hbuf, hpos⟩ := h
  refine ⟨{ c with pos := c.pos + 1, touched := c.touched ++ [c.pos] }, ?_, before ++ [b], ?_, ?_⟩
  · have heq : exec (next : Prog ε (Cursor β) β) c = (.ok (c.buf.getD c.pos default), _) := rfl
    rw [heq]
    simp [hbuf, hpos]
  · simp [hbuf]
  · simp [hpos]

theorem exec_slice (h : c.Left (w ++ tail)) :
    ∃ c', exec (slice w.length : Prog ε (Cursor β) (List β)) c = (.ok w, c') ∧ c'.Left tail := by
  obtain ⟨before, hbuf, hpos⟩ := h
  refine ⟨{ c with pos := c.pos + w.length, touched := c.touched ++ List.range' c.pos w.length },
    ?_, before ++ w, ?_, ?_⟩
  · have heq : exec (slice w.length : Prog ε (Cursor β) (List β)) c =
        (.ok ((c.buf.drop c.pos).take w.length), _) := rfl
    rw [heq]
    simp [hbuf, hpos]
  · simp [hbuf]
  · simp [hpos]

/-! ## Words that are read, starts that are refused -/

/-- On a buffer that goes on with `w` the decoder returns `a` and moves past `w`. When the buffer
ends inside `w` it throws. -/
structure Reads (m : Prog ε (Cursor β) α) (w : List β) (a : α) : Prop where
  ok : ∀ c tail, Left c (w ++ tail) → ∃ c', exec m c = (.ok a, c') ∧ c'.Left tail
  short : ∀ c v, Left c v → v <+: w → v ≠ w → ∃ e, (exec m c).1 = .error e

theorem Reads.pure (a : α) : Reads (pure a : Prog ε (Cursor β) α) [] a where
  ok c _ h := ⟨c, rfl, h⟩
  short _ _ _ hpre hne := absurd (List.prefix_nil.mp hpre) hne

theorem Reads.bind {m : Prog ε (Cursor β) α} {f : α → Prog ε (Cursor β) γ} {w w' : List β} {a : α}
    {b : γ} (hm : Reads m w a) (hf : Reads (f a) w' b) : Reads (m >>= f) (w ++ w') b where
  ok c tail h := by
    rw [List.append_assoc] at h
    obtain ⟨c₁, hc₁, hleft⟩ := hm.ok c _ h
    obtain ⟨c₂, hc₂, htail⟩ := hf.ok c₁ tail hleft
    exact ⟨c₂, by rw [exec_bind_of_ok hc₁, hc₂], htail⟩
  short c v hleft hpre hne := by
    -- the buffer ends in the first word or in the second
    rcases List.prefix_or_prefix_of_prefix (List.prefix_append w w') hpre with ⟨u, rfl⟩ | hv
    · obtain ⟨c₁, hc₁, hleft₁⟩ := hm.ok c u hleft
      rw [List.prefix_append_right_inj] at hpre
      obtain ⟨e, he⟩ := hf.short c₁ u hleft₁ hpre (by rintro rfl; exact hne rfl)
      exact ⟨e, by rw [exec_bind_of_ok hc₁, he]⟩
    · by_cases heq : v = w
      · obtain ⟨c₁, hc₁, hleft₁⟩ := hm.ok c [] (by simpa [heq] using hleft)
        obtain ⟨e, he⟩ := hf.short c₁ [] hleft₁ List.nil_prefix (by rintro rfl; simp [heq] at hne)
        exact ⟨e, by rw [exec_bind_of_ok hc₁, he]⟩
      · obtain ⟨e, he⟩ := hm.short c v hleft hv heq
        exact ⟨e, by rw [exec_bind_of_error (Prod.ext he rfl)]⟩

theorem Reads.bind_pure {m : Prog ε (Cursor β) α} {w : List β} {a : α} (hm : Reads m w a)
    (g : α → γ) : Reads (do let a ← m; return g a) w (g a) := by
  rw [← List.append_nil w]
  apply hm.bind
  exact Reads.pure (g a)

/-- A check of the length and a step that reads what was checked make a decoder. -/
theorem Reads.require {what : ε} {m : Prog ε (Cursor β) α} {n : ℕ} {w : List β} {a : α}
    (hw : w.length = n)
    (hm : ∀ c tail, Left c (w ++ tail) → ∃ c', exec m c = (.ok a, c') ∧ c'.Left tail) :
    Reads (do require what n; m) w a where
  ok c tail h := by
    rw [← hw, exec_bind_of_ok (exec_require_ok what h)]
    exact hm c tail h
  short c v h hpre hne := by
    have hlt : v.length < w.length :=
      lt_of_le_of_ne hpre.length_le fun hlen => hne (hpre.eq_of_length hlen)
    exact ⟨what, by rw [exec_bind_of_error (exec_require_short h (hw ▸ hlt))]⟩

theorem Reads.slice (what : ε) {n : ℕ} {w : List β} (hw : w.length = n) :
    Reads (do Cursor.require what n; slice n : Prog ε (Cursor β) (List β)) w w :=
  Reads.require hw fun _ _ h => hw ▸ exec_slice h

/-- The outcome of a decoder on a whole buffer. -/
def run (m : Prog ε (Cursor β) α) (bytes : List β) : Except ε α := (exec m { buf := bytes }).1

theorem Reads.run_append {m : Prog ε (Cursor β) α} {w : List β} {a : α} (h : Reads m w a)
    (tail : List β) : Cursor.run m (w ++ tail) = .ok a := by
  obtain ⟨c, hc, -⟩ := h.ok _ tail (left_start (w ++ tail))
  rw [Cursor.run, hc]

theorem Reads.run {m : Prog ε (Cursor β) α} {w : List β} {a : α} (h : Reads m w a) :
    Cursor.run m w = .ok a := by
  simpa using h.run_append []

theorem Reads.run_short {m : Prog ε (Cursor β) α} {w : List β} {a : α} (h : Reads m w a) {p : List β}
    (hp : p <+: w) (hne : p ≠ w) : ∃ e, Cursor.run m p = .error e :=
  h.short _ p (left_start p) hp hne

/-- On the values in `dom`, `read` reads back as `value a` what `write a` wrote, and it reads no
proper start of an encoding. -/
structure Format (dom : α → Prop) (write : α → List β) (read : List β → Except ε γ)
    (value : α → γ) : Prop where
  roundTrip : ∀ a, dom a → read (write a) = .ok (value a)
  prefixFree : ∀ a, dom a → ∀ p, p <+: write a → p ≠ write a → ∃ e, read p = .error e

theorem Format.of_reads {dom : α → Prop} {write : α → List β} {m : Prog ε (Cursor β) γ}
    {value : α → γ} (h : ∀ a, dom a → Reads m (write a) (value a)) :
    Format dom write (Cursor.run m) value :=
  ⟨fun a ha => (h a ha).run, fun a ha _ hp hne => (h a ha).run_short hp hne⟩

/-! ## Words that are accepted -/

/-- Whatever the decoder returns, it has read off a word that `R` relates to the result. -/
def Accepts (m : Prog ε (Cursor β) α) (R : List β → α → Prop) : Prop :=
  ∀ c v a c', Left c v → exec m c = (.ok a, c') → ∃ w tail, v = w ++ tail ∧ R w a ∧ c'.Left tail

theorem Accepts.pure (a : α) :
    Accepts (pure a : Prog ε (Cursor β) α) (fun w b => w = [] ∧ b = a) := by
  intro c v b c' hleft h
  obtain ⟨hb, rfl⟩ := Prod.mk.inj h
  exact ⟨[], v, rfl, ⟨rfl, (Except.ok.inj hb).symm⟩, hleft⟩

theorem Accepts.bind {m : Prog ε (Cursor β) α} {f : α → Prog ε (Cursor β) γ}
    {R : List β → α → Prop} {S : α → List β → γ → Prop} (hm : Accepts m R)
    (hf : ∀ a, Accepts (f a) (S a)) :
    Accepts (m >>= f) (fun w b => ∃ a u u', w = u ++ u' ∧ R u a ∧ S a u' b) := by
  intro c v b c' hleft h
  rw [exec_bind] at h
  rcases hr : exec m c with ⟨e | a, c₁⟩
  · simp [hr] at h
  · rw [hr] at h
    obtain ⟨u, tail, rfl, hu, hleft₁⟩ := hm c v a c₁ hleft hr
    obtain ⟨u', tail', rfl, hu', hleft'⟩ := hf a c₁ tail b c' hleft₁ h
    exact ⟨u ++ u', tail', by simp, ⟨a, u, u', rfl, hu, hu'⟩, hleft'⟩

theorem Accepts.run {m : Prog ε (Cursor β) α} {R : List β → α → Prop} (hm : Accepts m R)
    {bytes : List β} {a : α} (h : Cursor.run m bytes = .ok a) :
    ∃ w tail, bytes = w ++ tail ∧ R w a := by
  obtain ⟨w, tail, hw, hR, -⟩ := hm { buf := bytes } bytes a _ (left_start bytes) (Prod.ext h rfl)
  exact ⟨w, tail, hw, hR⟩

theorem Accepts.mono {m : Prog ε (Cursor β) α} {R S : List β → α → Prop} (hm : Accepts m R)
    (h : ∀ w a, R w a → S w a) : Accepts m S := by
  intro c v a c' hleft hexec
  obtain ⟨w, tail, hv, hw, hleft'⟩ := hm c v a c' hleft hexec
  exact ⟨w, tail, hv, h w a hw, hleft'⟩

/-- A decoder of words of one length accepts only those words that it reads. -/
theorem Accepts.require {what : ε} {m : Prog ε (Cursor β) α} {n : ℕ} {R : List β → α → Prop}
    (hm : ∀ c w tail, w.length = n → Left c (w ++ tail) →
      ∃ a c', exec m c = (.ok a, c') ∧ R w a ∧ c'.Left tail) :
    Accepts (do require what n; m) (fun w a => w.length = n ∧ R w a) := by
  intro c v a c' hleft h
  by_cases hn : n ≤ v.length
  · have hw : (v.take n).length = n := List.length_take_of_le hn
    rw [← List.take_append_drop n v] at hleft
    have hreq : exec (Cursor.require what n) c = (.ok (), c) := by
      simpa [hw] using exec_require_ok what hleft
    obtain ⟨b, c₁, hb, hR, hleft'⟩ := hm c _ _ hw hleft
    rw [exec_bind_of_ok hreq, hb] at h
    obtain ⟨hab, rfl⟩ := Prod.mk.inj h
    exact ⟨v.take n, v.drop n, (List.take_append_drop n v).symm, ⟨hw, Except.ok.inj hab ▸ hR⟩, hleft'⟩
  · rw [exec_bind_of_error (exec_require_short hleft (Nat.lt_of_not_le hn))] at h
    simp at h

theorem Accepts.slice (what : ε) (n : ℕ) :
    Accepts (do Cursor.require what n; Cursor.slice n : Prog ε (Cursor β) (List β))
      (fun w a => w.length = n ∧ a = w) :=
  Accepts.require fun c w tail hw hleft => by
    subst hw
    obtain ⟨c', hc', hleft'⟩ := exec_slice (ε := ε) hleft
    exact ⟨w, c', hc', rfl, hleft'⟩

/-! ## Staying inside the buffer -/

variable {bytes : List β}

theorem within_start (bytes : List β) : Within bytes { buf := bytes } := ⟨rfl, by simp, by simp⟩

/-- A decoder that stays inside every buffer reads no other positions. -/
theorem touched_lt {m : Prog ε (Cursor β) α} (hm : ∀ bytes, Keeps (Within bytes) m)
    (bytes : List β) : ∀ i ∈ (exec m { buf := bytes }).2.touched, i < bytes.length :=
  (hm bytes _ (within_start bytes)).2.2

/-- After the check of the length, steps that stay inside what was checked stay inside. -/
theorem keeps_within_require {what : ε} {n : ℕ} {m : Prog ε (Cursor β) α}
    (hm : Triple (fun c => Within bytes c ∧ c.pos + n ≤ bytes.length) m fun _ => Within bytes) :
    Keeps (Within bytes) (do require what n; m) := by
  intro c hc
  by_cases hn : c.pos + n ≤ c.buf.length
  · have hreq : exec (require what n) c = (.ok (), c) := by
      simp [require, Nat.not_lt.mpr hn]
    rw [exec_bind_of_ok hreq]
    exact hm c ⟨hc, hc.1 ▸ hn⟩
  · have hreq : exec (require what n) c = (.error what, c) := by
      simp [require, Nat.lt_of_not_le hn]
    rw [exec_bind_of_error hreq]
    exact hc

theorem within_slice (n : ℕ) :
    Triple (fun c => Within bytes c ∧ c.pos + n ≤ bytes.length)
      (slice n : Prog ε (Cursor β) (List β)) fun _ => Within bytes := by
  rintro c ⟨⟨hbuf, hpos, htouched⟩, hn⟩
  refine ⟨hbuf, hn, ?_⟩
  intro i hi
  rcases List.mem_append.mp hi with hi | hi
  · exact htouched i hi
  · have := (List.mem_range'_1.mp hi).2
    omega

end Cursor

end WarpSim

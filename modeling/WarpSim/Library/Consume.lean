import Mathlib

/-! # Parsers that return the rest

`Yields p w value` says that the parser `p` reads the word `w` off its input and makes `value tail` of what
follows, and that it refuses an input that ends inside of `w`. -/

namespace WarpSim

variable {ε α β γ : Type}

structure Yields (p : List β → Except ε γ) (w : List β) (value : List β → γ) : Prop where
  ok : ∀ tail, p (w ++ tail) = .ok (value tail)
  short : ∀ v, v <+: w → v ≠ w → ∃ e, p v = .error e

/-- The parser reads the word as `a`, and returns the rest. -/
abbrev Consumes (p : List β → Except ε (α × List β)) (w : List β) (a : α) : Prop :=
  Yields p w fun tail => (a, tail)

/-- A parser that is done. -/
theorem Yields.done (value : List β → γ) :
    Yields (fun bytes => (.ok (value bytes) : Except ε γ)) [] value where
  ok _ := rfl
  short _ hpre hne := absurd (List.prefix_nil.mp hpre) hne

/-- Two words one after the other. -/
theorem Consumes.bind {p : List β → Except ε (α × List β)} {q : α → List β → Except ε γ} {w w' : List β}
    {a : α} {value : List β → γ} (hp : Consumes p w a) (hq : Yields (q a) w' value) :
    Yields (fun bytes => p bytes >>= fun r => q r.1 r.2) (w ++ w') value where
  ok tail := by
    rw [List.append_assoc, hp.ok]
    exact hq.ok tail
  short v hpre hne := by
    -- the input ends in the first word or in the second
    rcases List.prefix_or_prefix_of_prefix (List.prefix_append w w') hpre with ⟨u, rfl⟩ | hv
    · rw [List.prefix_append_right_inj] at hpre
      obtain ⟨e, he⟩ := hq.short u hpre (by rintro rfl; exact hne rfl)
      refine ⟨e, ?_⟩
      rw [hp.ok]
      exact he
    · by_cases heq : v = w
      · subst heq
        have hw' : ([] : List β) ≠ w' := by
          rintro rfl
          exact hne (List.append_nil v).symm
        obtain ⟨e, he⟩ := hq.short [] List.nil_prefix hw'
        refine ⟨e, ?_⟩
        have hv := hp.ok []
        rw [List.append_nil] at hv
        rw [hv]
        exact he
      · obtain ⟨e, he⟩ := hp.short v hv heq
        refine ⟨e, ?_⟩
        rw [he]
        rfl

/-- A parser of words of `n` elements. -/
theorem Consumes.take {what : ε} {n : ℕ} {f : List β → α} {w : List β} (hw : w.length = n) :
    Consumes (fun bytes => if bytes.length < n then .error what else .ok (f (bytes.take n), bytes.drop n)) w
      (f w) where
  ok tail := by
    subst hw
    simp
  short v hpre hne := by
    have hlt : v.length < w.length :=
      lt_of_le_of_ne hpre.length_le fun hlen => hne (hpre.eq_of_length hlen)
    exact ⟨what, if_pos (hw ▸ hlt)⟩

end WarpSim

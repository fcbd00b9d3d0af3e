import Mathlib

/-! # Programs with state and exceptions

A program that throws keeps the state it has reached. A triple therefore speaks about the
final state of both exits. -/

namespace WarpSim

/-- A program over a state `S` that may throw an `ε`. -/
abbrev Prog (ε S α : Type) := ExceptT ε (StateM S) α

namespace Prog

variable {ε S α β : Type}

/-- The exit of a run and the state it leaves behind. -/
def exec (m : Prog ε S α) (s : S) : Except ε α × S := (ExceptT.run m).run s

/-- Run `m` and hand its exception to the caller as a value. -/
def observe (m : Prog ε S α) : Prog ε S (Except ε α) :=
  ExceptT.mk do
    let r ← m.run
    return .ok r

@[simp] theorem exec_pure (a : α) (s : S) : exec (pure a : Prog ε S α) s = (.ok a, s) := rfl

@[simp] theorem exec_throw (e : ε) (s : S) :
    exec (throw e : Prog ε S α) s = (.error e, s) := rfl

@[simp] theorem exec_modify (f : S → S) (s : S) :
    exec (modify f : Prog ε S PUnit) s = (.ok ⟨⟩, f s) := rfl

@[simp] theorem exec_get (s : S) : exec (get : Prog ε S S) s = (.ok s, s) := rfl

@[simp] theorem exec_observe (m : Prog ε S α) (s : S) :
    exec (observe m) s = (.ok (exec m s).1, (exec m s).2) := rfl

theorem exec_bind (m : Prog ε S α) (f : α → Prog ε S β) (s : S) :
    exec (m >>= f) s =
      match exec m s with
      | (.ok a, s') => exec (f a) s'
      | (.error e, s') => (.error e, s') := by
  change (ExceptT.bindCont f (exec m s).1) (exec m s).2 = _
  rcases exec m s with ⟨_ | a, s'⟩ <;> rfl

theorem exec_bind_of_ok {m : Prog ε S α} {f : α → Prog ε S β} {s s' : S} {a : α}
    (h : exec m s = (.ok a, s')) : exec (m >>= f) s = exec (f a) s' := by
  rw [exec_bind, h]

theorem exec_bind_of_error {m : Prog ε S α} {f : α → Prog ε S β} {s s' : S} {e : ε}
    (h : exec m s = (.error e, s')) : exec (m >>= f) s = (.error e, s') := by
  rw [exec_bind, h]

/-- A program that comes to its end has come through its first part. -/
theorem exec_bind_ok {m : Prog ε S α} {f : α → Prog ε S β} {s : S} {b : β}
    (h : (exec (m >>= f) s).1 = .ok b) :
    ∃ a s', exec m s = (.ok a, s') ∧ (exec (f a) s').1 = .ok b := by
  rw [exec_bind] at h
  rcases hm : exec m s with ⟨e | a, s'⟩
  · rw [hm] at h
    cases h
  · rw [hm] at h
    exact ⟨a, s', rfl, h⟩

theorem exec_ite (c : Prop) [Decidable c] (m m' : Prog ε S α) (s : S) :
    exec (if c then m else m') s = if c then exec m s else exec m' s := by
  split <;> rfl

/-- What is known of the outcome of `m` and of each continuation is known of the whole. -/
theorem exec_bind_cases {m : Prog ε S α} {f : α → Prog ε S β} {s : S}
    {R : Except ε α → S → Prop} {T : Except ε β → S → Prop} (hm : R (exec m s).1 (exec m s).2)
    (hok : ∀ a s', R (.ok a) s' → T (exec (f a) s').1 (exec (f a) s').2)
    (herror : ∀ e s', R (.error e) s' → T (.error e) s') :
    T (exec (m >>= f) s).1 (exec (m >>= f) s).2 := by
  rw [exec_bind]
  generalize exec m s = res at hm ⊢
  obtain ⟨e | a, s'⟩ := res
  · exact herror e s' hm
  · exact hok a s' hm

@[simp] theorem exec_modify_bind (f : S → S) (k : PUnit → Prog ε S β) (s : S) :
    exec (modify f >>= k) s = exec (k ⟨⟩) (f s) := exec_bind_of_ok rfl

@[simp] theorem exec_get_bind (k : S → Prog ε S β) (s : S) :
    exec (get >>= k) s = exec (k s) s := exec_bind_of_ok rfl

@[simp] theorem exec_observe_bind (m : Prog ε S α) (k : Except ε α → Prog ε S β) (s : S) :
    exec (observe m >>= k) s = exec (k (exec m s).1) (exec m s).2 := exec_bind_of_ok rfl

@[simp] theorem exec_throw_bind (e : ε) (k : α → Prog ε S β) (s : S) :
    exec ((throw e : Prog ε S α) >>= k) s = (.error e, s) := exec_bind_of_error rfl

/-- Another result at the end leaves the same state behind. -/
theorem exec_bind_pure_state (m : Prog ε S α) (b : β) (s : S) :
    (exec (m >>= fun _ => pure b) s).2 = (exec m s).2 := by
  rw [exec_bind]
  generalize exec m s = res
  obtain ⟨e | _, t⟩ := res <;> rfl

/-! ## Triples -/

/-- From a state satisfying `P`, the exit and the final state satisfy `R`. -/
def Triple (P : S → Prop) (m : Prog ε S α) (R : Except ε α → S → Prop) : Prop :=
  ∀ s, P s → R (exec m s).1 (exec m s).2

/-- The program preserves `I`, whichever way it exits. -/
def Keeps (I : S → Prop) (m : Prog ε S α) : Prop := Triple I m (fun _ => I)

variable {P P' I : S → Prop} {R R' : Except ε α → S → Prop} {m : Prog ε S α}

theorem triple_bind {T : Except ε β → S → Prop} {f : α → Prog ε S β} {M : α → S → Prop}
    (hm : Triple P m (fun r s => match r with
      | .ok a => M a s
      | .error e => T (.error e) s))
    (hf : ∀ a, Triple (M a) (f a) T) : Triple P (m >>= f) T := by
  intro s hs
  have h := hm s hs
  rw [exec_bind]
  rcases hr : exec m s with ⟨e | a, s'⟩
  · simpa [hr] using h
  · exact hf a s' (by simpa [hr] using h)

theorem triple_get_bind {T : Except ε β → S → Prop} {f : S → Prog ε S β}
    (h : ∀ s₀, Triple (fun s => s = s₀ ∧ P s) (f s₀) T) : Triple P (get >>= f) T := by
  intro s hs
  rw [exec_get_bind]
  exact h s s ⟨rfl, hs⟩

theorem triple_observe_bind {T : Except ε β → S → Prop} {f : Except ε α → Prog ε S β}
    (hm : Triple P m R) (hf : ∀ r, Triple (R r) (f r) T) : Triple P (observe m >>= f) T := by
  intro s hs
  rw [exec_observe_bind]
  exact hf _ _ (hm s hs)

theorem triple_ite {c : Prop} [Decidable c] {m₁ m₂ : Prog ε S α}
    (h₁ : c → Triple P m₁ R) (h₂ : ¬ c → Triple P m₂ R) :
    Triple P (if c then m₁ else m₂) R := by
  split
  · exact h₁ ‹_›
  · exact h₂ ‹_›

/-- The state left behind satisfies `P` after a return and `E` after an exception. -/
def Exits (P E : S → Prop) (r : Except ε α) (s : S) : Prop :=
  match r with
  | .ok _ => P s
  | .error _ => E s

/-- The bind rule where the result of the first program does not matter. -/
theorem exits_bind_const {P E M : S → Prop} {m : Prog ε S α} {f : α → Prog ε S β} {s : S}
    (hm : Exits M E (exec m s).1 (exec m s).2)
    (hf : ∀ a t, M t → Exits P E (exec (f a) t).1 (exec (f a) t).2) :
    Exits P E (exec (m >>= f) s).1 (exec (m >>= f) s).2 :=
  exec_bind_cases (R := Exits M E) hm hf fun _ _ h => h

/-! ## Preserved predicates -/

theorem keeps_pure (a : α) : Keeps I (pure a : Prog ε S α) := fun _ h => h

theorem keeps_throw (e : ε) : Keeps I (throw e : Prog ε S α) := fun _ h => h

theorem keeps_modify {f : S → S} (h : ∀ s, I s → I (f s)) :
    Keeps I (modify f : Prog ε S PUnit) := h

theorem keeps_bind {f : α → Prog ε S β} (hm : Keeps I m) (hf : ∀ a, Keeps I (f a)) :
    Keeps I (m >>= f) := by
  apply triple_bind (M := fun _ => I) _ hf
  intro s hs
  have := hm s hs
  rcases hr : (exec m s).1 with e | a <;> simpa [hr] using this

theorem keeps_get_bind {f : S → Prog ε S β} (h : ∀ s, Keeps I (f s)) :
    Keeps I (get >>= f) :=
  triple_get_bind fun s₀ s hs => h s₀ s hs.2

theorem keeps_observe_bind {f : Except ε α → Prog ε S β} (hm : Keeps I m)
    (hf : ∀ r, Keeps I (f r)) : Keeps I (observe m >>= f) :=
  triple_observe_bind hm hf

theorem keeps_ite {c : Prop} [Decidable c] {m₁ m₂ : Prog ε S α}
    (h₁ : c → Keeps I m₁) (h₂ : ¬ c → Keeps I m₂) : Keeps I (if c then m₁ else m₂) :=
  triple_ite h₁ h₂

/-! ## Programs that agree -/

/-- From related states the programs exit in the same way, and they leave related states behind. -/
def Agrees (R : S → S → Prop) (m m' : Prog ε S α) : Prop :=
  ∀ s s', R s s' → (exec m s).1 = (exec m' s').1 ∧ R (exec m s).2 (exec m' s').2

variable {T : S → S → Prop}

theorem agrees_pure (a : α) : Agrees T (pure a : Prog ε S α) (pure a) := fun _ _ h => ⟨rfl, h⟩

theorem agrees_throw (e : ε) : Agrees T (throw e : Prog ε S α) (throw e) := fun _ _ h => ⟨rfl, h⟩

theorem agrees_modify {f f' : S → S} (h : ∀ s s', T s s' → T (f s) (f' s')) :
    Agrees T (modify f : Prog ε S PUnit) (modify f') := fun s s' hs => ⟨rfl, h s s' hs⟩

theorem agrees_bind {m m' : Prog ε S α} {f f' : α → Prog ε S β} (hm : Agrees T m m') (hf : ∀ a, Agrees T (f a) (f' a)) :
    Agrees T (m >>= f) (m' >>= f') := by
  intro s s' hs
  obtain ⟨hexit, hstate⟩ := hm s s' hs
  rw [exec_bind, exec_bind]
  generalize exec m s = res at hexit hstate
  generalize exec m' s' = res' at hexit hstate
  obtain ⟨e | a, t⟩ := res <;> obtain ⟨e' | a', t'⟩ := res' <;> cases hexit
  · exact ⟨rfl, hstate⟩
  · exact hf a t t' hstate

theorem agrees_get_bind {f f' : S → Prog ε S β} (h : ∀ s s', T s s' → Agrees T (f s) (f' s')) :
    Agrees T (get >>= f) (get >>= f') := by
  intro s s' hs
  rw [exec_get_bind, exec_get_bind]
  exact h s s' hs s s' hs

theorem agrees_observe_bind {m m' : Prog ε S α} {f f' : Except ε α → Prog ε S β} (hm : Agrees T m m')
    (hf : ∀ r, Agrees T (f r) (f' r)) : Agrees T (observe m >>= f) (observe m' >>= f') := by
  intro s s' hs
  obtain ⟨hexit, hstate⟩ := hm s s' hs
  rw [exec_observe_bind, exec_observe_bind, ← hexit]
  exact hf _ _ _ hstate

theorem agrees_ite {c c' : Prop} [Decidable c] [Decidable c'] (hc : c ↔ c') {m₁ m₂ m₁' m₂' : Prog ε S α}
    (h₁ : Agrees T m₁ m₁') (h₂ : Agrees T m₂ m₂') :
    Agrees T (if c then m₁ else m₂) (if c' then m₁' else m₂') := by
  by_cases h : c
  · rw [if_pos h, if_pos (hc.mp h)]
    exact h₁
  · rw [if_neg h, if_neg fun h' => h (hc.mpr h')]
    exact h₂

end Prog

end WarpSim

import Mathlib.Data.List.Basic
import Mathlib.Data.List.Induction
import Mathlib.Data.List.Perm.Basic
import Mathlib.Logic.Function.Basic

/-! # Undo logs

A log of saved parts of a state takes a state back to an earlier one if the first entry of each part was
saved while the part was as it is to be again. Logs of consecutive changes can be joined, and a run of
changes can be taken back from any point of it. -/

namespace WarpSim

/-- A state seen in parts, each of which can be saved and loaded on its own. Of states that are not valid nothing
is known. -/
structure Parts (σ ι β S : Type*) [DecidableEq ι] where
  Valid : σ → Prop
  view : σ → ι → β
  save : σ → ι → S
  load : σ → ι → S → σ
  view_injective : ∀ a b, Valid a → Valid b → view a = view b → a = b
  view_load : ∀ a b i, Valid a → Valid b → view (load a i (save b i)) = Function.update (view a) i (view b i)
  valid_load : ∀ a b i, Valid a → Valid b → Valid (load a i (save b i))

namespace Parts

variable {σ ι β S : Type*} [DecidableEq ι] (P : Parts σ ι β S)

/-- Load each part from its first entry in the log. -/
def restore : List (ι × S) → List ι → σ → σ
  | [], _, z => z
  | (i, saved) :: log, done, z =>
    if i ∈ done then restore log done z else restore log (i :: done) (P.load z i saved)

/-- The entry was saved while the part was as in `x`. -/
def SavedAt (x : σ) (i : ι) (saved : S) : Prop := ∃ b, P.Valid b ∧ saved = P.save b i ∧ P.view b i = P.view x i

/-- The log takes the part of the state `z` back to what it is in `x`. -/
def Mends (x : σ) (log : List (ι × S)) (z : σ) (i : ι) : Prop :=
  match log.lookup i with
  | some saved => P.SavedAt x i saved
  | none => P.view z i = P.view x i

/-- The log takes the state `z` back to `x`. -/
def TakesBack (x : σ) (log : List (ι × S)) (z : σ) : Prop := ∀ i, P.Mends x log z i

variable {P} {x y z : σ} {log log' : List (ι × S)} {i : ι}

theorem mends_of_some {saved : S} (h : log.lookup i = some saved) :
    P.Mends x log z i ↔ P.SavedAt x i saved := by
  unfold Mends
  rw [h]

theorem mends_of_none (h : log.lookup i = none) : P.Mends x log z i ↔ P.view z i = P.view x i := by
  unfold Mends
  rw [h]

theorem TakesBack.refl (x : σ) : P.TakesBack x [] x := fun _ => rfl

theorem SavedAt.of_view {saved : S} (h : P.SavedAt y i saved) (hview : P.view y i = P.view x i) :
    P.SavedAt x i saved := by
  obtain ⟨b, hvalid, hsaved, hb⟩ := h
  exact ⟨b, hvalid, hsaved, hb.trans hview⟩

/-- The logs of two consecutive changes take both of them back. -/
theorem TakesBack.append (h : P.TakesBack x log y) (h' : P.TakesBack y log' z) :
    P.TakesBack x (log ++ log') z := by
  intro i
  cases hlog : log.lookup i with
  | some saved =>
      have hsaved := (mends_of_some hlog).mp (h i)
      exact (mends_of_some (by simp [List.lookup_append, hlog])).mpr hsaved
  | none =>
      have hview := (mends_of_none hlog).mp (h i)
      cases hlog' : log'.lookup i with
      | some saved =>
          have hsaved := (mends_of_some hlog').mp (h' i)
          exact (mends_of_some (by simp [List.lookup_append, hlog, hlog'])).mpr (hsaved.of_view hview)
      | none =>
          have hview' := (mends_of_none hlog').mp (h' i)
          exact (mends_of_none (by simp [List.lookup_append, hlog, hlog'])).mpr (hview'.trans hview)

/-- Restoring gives every part that has not been restored before what the log has of it. -/
theorem view_restore (log : List (ι × S)) (done : List ι) {z : σ} (hz : P.Valid z)
    (hdone : ∀ i ∈ done, P.view z i = P.view x i) (hlog : ∀ i, i ∉ done → P.Mends x log z i) :
    P.Valid (P.restore log done z) ∧ P.view (P.restore log done z) = P.view x := by
  induction log generalizing done z with
  | nil =>
      refine ⟨hz, funext fun i => ?_⟩
      by_cases hi : i ∈ done
      · exact hdone i hi
      · exact hlog i hi
  | cons entry log ih =>
      obtain ⟨i, saved⟩ := entry
      have hrest : ∀ j, j ≠ i → ((i, saved) :: log).lookup j = log.lookup j := by
        intro j hj
        rw [List.lookup_cons, beq_false_of_ne hj]
      unfold restore
      split
      · next hi =>
        refine ih done hz hdone fun j hj => ?_
        have hne : j ≠ i := fun heq => hj (heq ▸ hi)
        have hmends := hlog j hj
        unfold Mends at hmends ⊢
        rwa [hrest j hne] at hmends
      · next hi =>
        have hfirst : ((i, saved) :: log).lookup i = some saved := by simp
        obtain ⟨b, hvalid, rfl, hb⟩ := (mends_of_some hfirst).mp (hlog i hi)
        have hload := P.view_load z b i hz hvalid
        refine ih (i :: done) (P.valid_load z b i hz hvalid) (fun j hj => ?_) fun j hj => ?_
        · rw [hload]
          by_cases hji : j = i
          · rw [hji, Function.update_self, hb]
          · rw [Function.update_of_ne hji]
            exact hdone j ((List.mem_cons.mp hj).resolve_left hji)
        · obtain ⟨hji, hj⟩ := not_or.mp (mt List.mem_cons.mpr hj)
          have hmends := hlog j hj
          unfold Mends at hmends ⊢
          rw [hrest j hji] at hmends
          rwa [hload, Function.update_of_ne hji]

/-- A log that takes a state back restores the earlier state. -/
theorem TakesBack.restore_eq (h : P.TakesBack x log z) (hx : P.Valid x) (hz : P.Valid z) :
    P.restore log [] z = x := by
  obtain ⟨hvalid, hview⟩ := view_restore log [] hz (by simp) fun i _ => h i
  exact P.view_injective _ _ hvalid hx hview

theorem lookup_eq_some_iff (hkeys : (log.map Prod.fst).Nodup) {saved : S} :
    log.lookup i = some saved ↔ (i, saved) ∈ log := by
  induction log with
  | nil => simp
  | cons entry log ih =>
      obtain ⟨j, saved'⟩ := entry
      simp only [List.map_cons, List.nodup_cons] at hkeys
      by_cases hij : i = j
      · subst hij
        have hnot : (i, saved) ∉ log := fun hmem => hkeys.1 (List.mem_map_of_mem hmem)
        simp [hnot, eq_comm]
      · rw [List.lookup_cons, beq_false_of_ne hij]
        simp [ih hkeys.2, hij]

/-- Only the entries of a log matter, not their order, if each part is in it once. -/
theorem TakesBack.perm (h : P.TakesBack x log z) (hkeys : (log.map Prod.fst).Nodup)
    (hperm : log'.Perm log) : P.TakesBack x log' z := by
  have hkeys' : (log'.map Prod.fst).Nodup := (hperm.map Prod.fst).nodup_iff.mpr hkeys
  have hlookup : ∀ i, log'.lookup i = log.lookup i := by
    intro i
    refine Option.ext fun saved => ?_
    rw [lookup_eq_some_iff hkeys', lookup_eq_some_iff hkeys]
    exact hperm.mem_iff
  intro i
  have hmends := h i
  unfold Mends at hmends ⊢
  rwa [hlookup i]

end Parts

/-! ## Runs of changes -/

/-- The changes lead from one state to another. -/
inductive Trail {ρ σ : Type*} (R : ρ → σ → σ → Prop) (x : σ) : List ρ → σ → Prop where
  | nil : Trail R x [] x
  | snoc {changes y z r} : Trail R x changes y → R r y z → Trail R x (changes ++ [r]) z

namespace Trail

variable {ρ σ : Type*} {R : ρ → σ → σ → Prop} {x y z : σ} {changes changes' : List ρ}

theorem nil_iff : Trail R x [] z ↔ z = x := by
  refine ⟨fun h => ?_, fun h => h ▸ .nil⟩
  generalize hnil : ([] : List ρ) = changes at h
  cases h with
  | nil => rfl
  | snoc => simp at hnil

theorem snoc_iff {r : ρ} : Trail R x (changes ++ [r]) z ↔ ∃ y, Trail R x changes y ∧ R r y z := by
  refine ⟨fun h => ?_, fun ⟨y, hy, hr⟩ => hy.snoc hr⟩
  generalize hall : changes ++ [r] = all at h
  cases h with
  | nil => simp at hall
  | @snoc changes' y z r' hy hr =>
      obtain ⟨rfl, hone⟩ := List.append_inj' hall rfl
      obtain rfl := List.singleton_inj.mp hone
      exact ⟨y, hy, hr⟩

theorem append_iff : Trail R x (changes ++ changes') z ↔ ∃ y, Trail R x changes y ∧ Trail R y changes' z := by
  induction changes' using List.reverseRecOn generalizing z with
  | nil =>
      rw [List.append_nil]
      refine ⟨fun h => ⟨z, h, .nil⟩, fun ⟨y, hy, hz⟩ => ?_⟩
      rwa [nil_iff.mp hz]
  | append_singleton changes' r ih =>
      rw [← List.append_assoc, snoc_iff]
      constructor
      · rintro ⟨y, hy, hr⟩
        obtain ⟨x', hx', hy'⟩ := ih.mp hy
        exact ⟨x', hx', hy'.snoc hr⟩
      · rintro ⟨x', hx', hz⟩
        obtain ⟨y, hy, hr⟩ := snoc_iff.mp hz
        exact ⟨y, ih.mpr ⟨x', hx', hy⟩, hr⟩

theorem cons_iff {r : ρ} : Trail R x (r :: changes) z ↔ ∃ y, R r x y ∧ Trail R y changes z := by
  have hone : ∀ y, Trail R x [r] y ↔ R r x y := by
    intro y
    rw [← List.nil_append [r], snoc_iff]
    simp [nil_iff]
  rw [← List.singleton_append, append_iff]
  simp only [hone]

/-- Each change can be seen as another one. -/
theorem forall₂ {ρ' : Type*} {R' : ρ' → σ → σ → Prop} {S : ρ → ρ' → Prop} {changes' : List ρ'}
    (hS : ∀ r r' y z, S r r' → R r y z → R' r' y z) (h : Trail R x changes z) (hall : List.Forall₂ S changes changes') :
    Trail R' x changes' z := by
  induction h generalizing changes' with
  | nil =>
      cases hall
      exact .nil
  | @snoc changes y z r _ hr ih =>
      have hlength := hall.length_eq
      rcases List.eq_nil_or_concat' changes' with rfl | ⟨init, r', rfl⟩
      · simp at hlength
      · have hinit : changes.length = init.length := by simpa using hlength
        have hboth : ∀ {a b}, (a, b) ∈ changes.zip init ++ [(r, r')] → S a b := by
          intro a b hmem
          refine (List.forall₂_iff_zip.mp hall).2 ?_
          rw [List.zip_append hinit]
          exact hmem
        refine (ih (List.forall₂_iff_zip.mpr ⟨hinit, fun hmem => ?_⟩)).snoc (hS r r' _ _ (hboth (by simp)) hr)
        exact hboth (List.mem_append_left _ hmem)

theorem mono {R' : ρ → σ → σ → Prop} (hR : ∀ r y z, R r y z → R' r y z) (h : Trail R x changes z) :
    Trail R' x changes z := by
  induction h with
  | nil => exact .nil
  | snoc _ hr ih => exact ih.snoc (hR _ _ _ hr)

/-- Each change is named by another. -/
theorem map {ρ' : Type*} {R' : ρ' → σ → σ → Prop} {f : ρ → ρ'} (hR : ∀ r y z, R r y z → R' (f r) y z)
    (h : Trail R x changes z) : Trail R' x (changes.map f) z := by
  induction h with
  | nil => exact .nil
  | snoc _ hr ih =>
      rw [List.map_append]
      exact ih.snoc (hR _ _ _ hr)

/-- What each change preserves holds at the end. -/
theorem preserves {I : σ → Prop} (hR : ∀ r y z, R r y z → I y → I z) (h : Trail R x changes z) (hx : I x) : I z := by
  induction h with
  | nil => exact hx
  | snoc _ hr ih => exact hR _ _ _ hr ih

theorem exists_of_mem {r : ρ} (h : Trail R x changes z) (hr : r ∈ changes) : ∃ y y', R r y y' := by
  obtain ⟨before, after, rfl⟩ := List.append_of_mem hr
  obtain ⟨y, -, hrest⟩ := append_iff.mp h
  obtain ⟨y', hr, -⟩ := cons_iff.mp hrest
  exact ⟨y, y', hr⟩

/-- Changes that do nothing can be left out. -/
theorem filter {R' : ρ → σ → σ → Prop} {p : ρ → Prop} [DecidablePred p] (h : Trail R x changes z)
    (hR : ∀ r ∈ changes, ∀ y z, p r → R r y z → R' r y z) (hskip : ∀ r y z, ¬ p r → R r y z → z = y) :
    Trail R' x (changes.filter (p ·)) z := by
  induction h with
  | nil => exact .nil
  | @snoc changes y z r _ hr ih =>
      have hrest := ih fun q hq => hR q (List.mem_append_left _ hq)
      rw [List.filter_append]
      by_cases hp : p r
      · simpa [hp] using hrest.snoc (hR r (by simp) _ _ hp hr)
      · simpa [hp, hskip _ _ _ hp hr] using hrest

/-- If each change is taken back by its log, all of them are by the logs one after the other. -/
theorem takesBack {ι β S : Type*} [DecidableEq ι] {P : Parts σ ι β S} {log : ρ → List (ι × S)}
    (hlog : ∀ r y z, R r y z → P.TakesBack y (log r) z) (h : Trail R x changes z) :
    P.TakesBack x (changes.flatMap log) z := by
  induction h with
  | nil => exact .refl x
  | snoc _ hr ih => simpa using ih.append (hlog _ _ _ hr)

end Trail

end WarpSim

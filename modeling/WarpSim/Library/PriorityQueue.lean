import Mathlib

/-! # Priority queues

A priority queue is specified by the bag of its elements. Which of several minimal
elements is served first is left to the implementation. -/

namespace WarpSim

universe u

/-- A queue of `α` serving first an element that no other element is `before`. -/
structure PriorityQueue (α : Type u) (before : α → α → Prop) where
  Carrier : Type u
  empty : Carrier
  push : Carrier → α → Carrier
  top? : Carrier → Option α
  pop : Carrier → Carrier
  size : Carrier → ℕ
  elems : Carrier → Multiset α
  elems_empty : elems empty = 0
  elems_push : ∀ q a, elems (push q a) = a ::ₘ elems q
  elems_pop : ∀ q a, top? q = some a → elems q = a ::ₘ elems (pop q)
  top?_minimal : ∀ q a, top? q = some a → ∀ b ∈ elems q, ¬ before b a
  elems_eq_zero_of_top? : ∀ q, top? q = none → elems q = 0
  size_eq : ∀ q, size q = (elems q).card

namespace PriorityQueue

variable {α : Type u} {before : α → α → Prop} (Q : PriorityQueue α before)

theorem size_pop {q : Q.Carrier} {a : α} (h : Q.top? q = some a) :
    Q.size q = Q.size (Q.pop q) + 1 := by
  rw [Q.size_eq, Q.size_eq, Q.elems_pop q a h, Multiset.card_cons]

theorem elems_foldl_push (as : List α) (q : Q.Carrier) : Q.elems (as.foldl Q.push q) = Q.elems q + as := by
  induction as generalizing q with
  | nil => simp
  | cons a as ih =>
      rw [List.foldl_cons, ih, Q.elems_push, ← Multiset.cons_coe, Multiset.cons_add, Multiset.add_cons]

/-! ## Discarding from the front -/

/-- Pop while the front satisfies `skip`, for at most `n` pops. The discarded elements are
returned in the order in which they were popped. -/
def discardWhile (skip : α → Bool) : ℕ → Q.Carrier → List α × Q.Carrier
  | 0, q => ([], q)
  | n + 1, q =>
    match Q.top? q with
    | none => ([], q)
    | some a =>
      if skip a then
        let (discarded, rest) := discardWhile skip n (Q.pop q)
        (a :: discarded, rest)
      else ([], q)

theorem elems_discardWhile (skip : α → Bool) (n : ℕ) (q : Q.Carrier) :
    Q.elems q = (Q.discardWhile skip n q).1 + Q.elems (Q.discardWhile skip n q).2 := by
  induction n generalizing q with
  | zero => simp [discardWhile]
  | succ n ih =>
      cases htop : Q.top? q with
      | none => simp [discardWhile, htop]
      | some a =>
          by_cases hs : skip a
          · rw [Q.elems_pop q a htop, ih (Q.pop q)]
            simp [discardWhile, htop, hs, ← Multiset.cons_coe]
          · simp [discardWhile, htop, hs]

theorem skip_of_mem_discardWhile (skip : α → Bool) (n : ℕ) (q : Q.Carrier) :
    ∀ a ∈ (Q.discardWhile skip n q).1, skip a := by
  induction n generalizing q with
  | zero => simp [discardWhile]
  | succ n ih =>
      cases htop : Q.top? q with
      | none => simp [discardWhile, htop]
      | some a =>
          by_cases hs : skip a
          · simpa [discardWhile, htop, hs] using ih (Q.pop q)
          · simp [discardWhile, htop, hs]

/-- With one pop available for each element, the front left behind is not skippable. -/
theorem not_skip_top_discardWhile (skip : α → Bool) (n : ℕ) (q : Q.Carrier)
    (hn : Q.size q ≤ n) {a : α} (h : Q.top? (Q.discardWhile skip n q).2 = some a) :
    skip a = false := by
  induction n generalizing q with
  | zero =>
      have hsize := Q.size_pop (q := q) (a := a) (by simpa [discardWhile] using h)
      omega
  | succ n ih =>
      cases htop : Q.top? q with
      | none => simp [discardWhile, htop] at h
      | some b =>
          by_cases hs : skip b
          · have hsize := Q.size_pop htop
            apply ih (Q.pop q) (by omega)
            simpa [discardWhile, htop, hs] using h
          · have hb : b = a := by simpa [discardWhile, htop, hs] using h
            subst hb
            simpa using hs

/-! ## Draining -/

/-- The elements in the order in which `n` pops serve them. -/
def drain : ℕ → Q.Carrier → List α
  | 0, _ => []
  | n + 1, q =>
    match Q.top? q with
    | none => []
    | some a => a :: drain n (Q.pop q)

theorem mem_of_mem_drain (n : ℕ) (q : Q.Carrier) {a : α} (h : a ∈ Q.drain n q) :
    a ∈ Q.elems q := by
  induction n generalizing q with
  | zero => simp [drain] at h
  | succ n ih =>
      cases htop : Q.top? q with
      | none => simp [drain, htop] at h
      | some b =>
          rw [Q.elems_pop q b htop]
          simp only [drain, htop, List.mem_cons] at h
          rcases h with rfl | h
          · exact Multiset.mem_cons_self _ _
          · exact Multiset.mem_cons_of_mem (ih _ h)

/-- A later element of a drain is never before an earlier one. -/
theorem pairwise_drain (n : ℕ) (q : Q.Carrier) :
    (Q.drain n q).Pairwise (fun a b => ¬ before b a) := by
  induction n generalizing q with
  | zero => simp [drain]
  | succ n ih =>
      cases htop : Q.top? q with
      | none => simp [drain, htop]
      | some a =>
          simp only [drain, htop, List.pairwise_cons]
          refine ⟨fun b hb => ?_, ih _⟩
          apply Q.top?_minimal q a htop
          rw [Q.elems_pop q a htop]
          exact Multiset.mem_cons_of_mem (Q.mem_of_mem_drain n _ hb)

/-- What is discarded is the start of the drain that is to be skipped. -/
theorem discardWhile_fst (skip : α → Bool) (n : ℕ) (q : Q.Carrier) :
    (Q.discardWhile skip n q).1 = (Q.drain n q).takeWhile skip := by
  induction n generalizing q with
  | zero => rfl
  | succ n ih =>
      cases htop : Q.top? q with
      | none => simp [discardWhile, drain, htop]
      | some a =>
          by_cases hs : skip a
          · simp [discardWhile, drain, htop, hs, ih]
          · simp [discardWhile, drain, htop, hs]

/-- A wider condition discards nothing more unless it holds of the front that is left behind. -/
theorem discardWhile_congr {skip skip' : α → Bool} (hwider : ∀ a, skip a → skip' a) (n : ℕ)
    (q : Q.Carrier) (h : ∀ a, (Q.drain n q).find? (fun a => !skip a) = some a → skip' a = false) :
    Q.discardWhile skip' n q = Q.discardWhile skip n q := by
  induction n generalizing q with
  | zero => rfl
  | succ n ih =>
      cases htop : Q.top? q with
      | none => simp [discardWhile, htop]
      | some a =>
          by_cases hs : skip a
          · have hpop := ih (Q.pop q) fun b hb => h b (by simpa [drain, htop, hs] using hb)
            simp [discardWhile, htop, hs, hwider a hs, hpop]
          · have hs' : skip' a = false := h a (by simp [drain, htop, hs])
            simp [discardWhile, htop, hs, hs']

/-! ## Sorted lists -/

/-- Lists sorted by a key, a new element being served before the ones of equal key. -/
def sortedList {κ : Type*} [LinearOrder κ] (key : α → κ)
    (hkey : ∀ a b, before a b → key a < key b) : PriorityQueue α before where
  Carrier := {l : List α // l.Pairwise (fun a b => key a ≤ key b)}
  empty := ⟨[], List.Pairwise.nil⟩
  push q a :=
    haveI : IsTrans α (fun a b => key a ≤ key b) := ⟨fun _ _ _ => le_trans⟩
    haveI : Std.Total (fun a b : α => key a ≤ key b) := ⟨fun _ _ => le_total _ _⟩
    ⟨List.orderedInsert (fun a b => key a ≤ key b) a q.1,
      List.Pairwise.orderedInsert (r := fun a b => key a ≤ key b) a q.1 q.2⟩
  top? q := q.1.head?
  pop q := ⟨q.1.tail, q.2.tail⟩
  size q := q.1.length
  elems q := q.1
  elems_empty := rfl
  elems_push q a := Quot.sound (List.perm_orderedInsert _ a q.1)
  elems_pop := by
    rintro ⟨l, hl⟩ a h
    cases l with
    | nil => simp at h
    | cons b l => simp_all
  top?_minimal := by
    rintro ⟨l, hl⟩ a h b hb hba
    cases l with
    | nil => simp at h
    | cons c l =>
        obtain rfl : c = a := by simpa using h
        simp only [Multiset.mem_coe, List.mem_cons] at hb
        rcases hb with rfl | hb
        · exact lt_irrefl _ (hkey _ _ hba)
        · exact not_lt.mpr ((List.pairwise_cons.mp hl).1 b hb) (hkey _ _ hba)
  elems_eq_zero_of_top? := by
    rintro ⟨l, hl⟩ h
    cases l with
    | nil => rfl
    | cons c l => simp at h
  size_eq _ := rfl

end PriorityQueue

end WarpSim

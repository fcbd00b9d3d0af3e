import Mathlib

/-! # Ordered maps

A map is the list of its entries in strictly increasing order of their keys. -/

namespace WarpSim

/-- `std::map`, with the order of its keys as an invariant. -/
structure OrderedMap (κ ν : Type) [LinearOrder κ] where
  entries : List (κ × ν)
  sorted : entries.Pairwise fun a b => a.1 < b.1

namespace OrderedMap

variable {κ ν : Type} [LinearOrder κ]

@[ext] theorem ext {m m' : OrderedMap κ ν} (h : m.entries = m'.entries) : m = m' := by
  cases m
  cases m'
  simpa using h

/-- The map without entries. -/
def empty : OrderedMap κ ν := ⟨[], List.Pairwise.nil⟩

/-- Part of a map. -/
def restrict (m : OrderedMap κ ν) (l : List (κ × ν)) (h : l.Sublist m.entries) : OrderedMap κ ν :=
  ⟨l, m.sorted.sublist h⟩

/-! ## Insertion -/

def insertEntry (k : κ) (v : ν) : List (κ × ν) → List (κ × ν)
  | [] => [(k, v)]
  | e :: rest =>
    if k < e.1 then (k, v) :: e :: rest
    else if e.1 < k then e :: insertEntry k v rest
    else (k, v) :: rest

theorem key_mem_insertEntry {k : κ} {v : ν} {l : List (κ × ν)} {e : κ × ν}
    (h : e ∈ insertEntry k v l) : e = (k, v) ∨ e ∈ l := by
  induction l with
  | nil => simpa [insertEntry] using h
  | cons d rest ih =>
      simp only [insertEntry] at h
      split at h
      · simpa using h
      · split at h
        · rcases List.mem_cons.mp h with rfl | h
          · exact Or.inr List.mem_cons_self
          · exact (ih h).imp_right (List.mem_cons_of_mem _)
        · rcases List.mem_cons.mp h with rfl | h
          · exact Or.inl rfl
          · exact Or.inr (List.mem_cons_of_mem _ h)

theorem sorted_insertEntry {k : κ} {v : ν} {l : List (κ × ν)}
    (h : l.Pairwise fun a b => a.1 < b.1) : (insertEntry k v l).Pairwise fun a b => a.1 < b.1 := by
  induction l with
  | nil => simp [insertEntry]
  | cons d rest ih =>
      obtain ⟨hd, hrest⟩ := List.pairwise_cons.mp h
      simp only [insertEntry]
      split
      · next hk =>
        refine List.pairwise_cons.mpr ⟨fun e he => ?_, h⟩
        rcases List.mem_cons.mp he with rfl | he
        · exact hk
        · exact hk.trans (hd e he)
      · next hk =>
        split
        · next hd' =>
          refine List.pairwise_cons.mpr ⟨fun e he => ?_, ih hrest⟩
          rcases key_mem_insertEntry he with rfl | he
          · exact hd'
          · exact hd e he
        · next hd' =>
          have heq : d.1 = k := le_antisymm (not_lt.mp hk) (not_lt.mp hd')
          exact List.pairwise_cons.mpr ⟨fun e he => heq ▸ hd e he, hrest⟩

/-- `m[k] = v`. -/
def insert (m : OrderedMap κ ν) (k : κ) (v : ν) : OrderedMap κ ν :=
  ⟨insertEntry k v m.entries, sorted_insertEntry m.sorted⟩

theorem entries_insert (m : OrderedMap κ ν) (k : κ) (v : ν) :
    (m.insert k v).entries = insertEntry k v m.entries := rfl

/-! ## Look-up -/

/-- `find`. -/
def find? (m : OrderedMap κ ν) (k : κ) : Option ν := m.entries.lookup k

theorem lookup_cons (x : κ) (e : κ × ν) (l : List (κ × ν)) :
    (e :: l).lookup x = if x = e.1 then some e.2 else l.lookup x := by
  obtain ⟨k, v⟩ := e
  rw [List.lookup_cons]
  by_cases h : x = k
  · simp [h]
  · simp [h, beq_eq_false_iff_ne.mpr h]

theorem lookup_insertEntry (k : κ) (v : ν) (l : List (κ × ν)) (x : κ)
    (h : l.Pairwise fun a b => a.1 < b.1) :
    (insertEntry k v l).lookup x = if x = k then some v else l.lookup x := by
  induction l with
  | nil => rw [insertEntry, lookup_cons]
  | cons d rest ih =>
      obtain ⟨hd, hrest⟩ := List.pairwise_cons.mp h
      simp only [insertEntry]
      split
      · rw [lookup_cons]
      · next hk =>
        split
        · next hd' =>
          rw [lookup_cons, lookup_cons, ih hrest]
          by_cases hxd : x = d.1
          · simp [hxd, ne_of_lt hd']
          · simp [hxd]
        · next hd' =>
          have heq : d.1 = k := le_antisymm (not_lt.mp hk) (not_lt.mp hd')
          rw [lookup_cons, lookup_cons]
          by_cases hx : x = k
          · simp [hx]
          · simp [hx, heq]

theorem find?_insert (m : OrderedMap κ ν) (k : κ) (v : ν) (x : κ) :
    (m.insert k v).find? x = if x = k then some v else m.find? x :=
  lookup_insertEntry k v m.entries x m.sorted

theorem length_le_card {m : OrderedMap κ ν} {keys : Finset κ} (h : ∀ e ∈ m.entries, e.1 ∈ keys) :
    m.entries.length ≤ keys.card := by
  have hnodup : (m.entries.map Prod.fst).Nodup := List.pairwise_map.mpr (m.sorted.imp fun h => ne_of_lt h)
  have hsub : (m.entries.map Prod.fst).toFinset ⊆ keys := by
    intro k hk
    obtain ⟨e, he, rfl⟩ := List.mem_map.mp (List.mem_toFinset.mp hk)
    exact h e he
  have hcard := Finset.card_le_card hsub
  rwa [List.toFinset_card_of_nodup hnodup, List.length_map] at hcard

/-- Replace or erase the value of each entry. -/
def filterMapValues (f : ν → Option ν) (m : OrderedMap κ ν) : OrderedMap κ ν where
  entries := m.entries.filterMap fun e => (f e.2).map (e.1, ·)
  sorted := by
    rw [List.pairwise_filterMap]
    refine m.sorted.imp fun {a b} hab x hx y hy => ?_
    obtain ⟨v, -, rfl⟩ := Option.map_eq_some_iff.mp hx
    obtain ⟨w, -, rfl⟩ := Option.map_eq_some_iff.mp hy
    exact hab

theorem lookup_eq_none_of_lt {l : List (κ × ν)} {k : κ} (h : ∀ e ∈ l, k < e.1) :
    l.lookup k = none := by
  rw [List.lookup_eq_none_iff]
  intro e he
  simpa using ne_of_lt (h e he)

theorem find?_filterMapValues (f : ν → Option ν) (m : OrderedMap κ ν) (k : κ) :
    (m.filterMapValues f).find? k = (m.find? k).bind f := by
  obtain ⟨l, hl⟩ := m
  simp only [find?, filterMapValues]
  induction l with
  | nil => rfl
  | cons d rest ih =>
      obtain ⟨hd, hrest⟩ := List.pairwise_cons.mp hl
      by_cases hk : k = d.1
      · subst hk
        have hnone : (rest.filterMap fun e => (f e.2).map (e.1, ·)).lookup d.1 = none := by
          refine lookup_eq_none_of_lt fun e he => ?_
          obtain ⟨e', he', heq⟩ := List.mem_filterMap.mp he
          obtain ⟨v, -, rfl⟩ := Option.map_eq_some_iff.mp heq
          exact hd e' he'
        rw [lookup_cons, if_pos rfl, Option.bind_some, List.filterMap_cons]
        cases hf : f d.2 with
        | none => exact hnone
        | some v => simp [lookup_cons]
      · rw [lookup_cons, if_neg hk, ← ih hrest, List.filterMap_cons]
        cases hf : f d.2 with
        | none => rfl
        | some v => simp [lookup_cons, hk]

/-! ## Floors -/

/-- The last entry not above `k`: the one before `upper_bound(k)`. -/
def floor? (m : OrderedMap κ ν) (k : κ) : Option (κ × ν) :=
  (m.entries.takeWhile fun e => e.1 ≤ k).getLast?

theorem floor?_le {m : OrderedMap κ ν} {k : κ} {e : κ × ν} (h : m.floor? k = some e) : e.1 ≤ k := by
  have hmem := List.mem_takeWhile_imp (List.mem_of_getLast? h)
  simpa using hmem

/-- A part of the map that starts at or below `k` has the same floor at `k`. -/
theorem getLast?_takeWhile_append {p c : List (κ × ν)} {e : κ × ν} {k : κ}
    (hsorted : (p ++ c).Pairwise fun a b => a.1 < b.1) (hhead : c.head? = some e) (hk : e.1 ≤ k) :
    ((p ++ c).takeWhile fun e => e.1 ≤ k).getLast? = (c.takeWhile fun e => e.1 ≤ k).getLast? := by
  obtain ⟨rest, rfl⟩ : ∃ rest, c = e :: rest := by
    cases c with
    | nil => simp at hhead
    | cons d rest => exact ⟨rest, by simpa using hhead⟩
  have hbefore : ∀ a ∈ p, a.1 ≤ k := fun a ha =>
    ((List.pairwise_append.mp hsorted).2.2 a ha e List.mem_cons_self).le.trans hk
  rw [List.takeWhile_append_of_pos fun a ha => by simpa using hbefore a ha]
  rw [List.takeWhile_cons_of_pos (by simpa using hk), List.getLast?_append]
  exact Option.or_of_isSome (by simp)

/-- The maps share all entries from one that is not above `g` on, or they are equal. -/
def AgreeFrom (g : κ) (m m' : OrderedMap κ ν) : Prop :=
  ∃ p p' c, m.entries = p ++ c ∧ m'.entries = p' ++ c ∧
    ((p = [] ∧ p' = []) ∨ ∃ e, c.head? = some e ∧ e.1 ≤ g)

theorem AgreeFrom.refl (g : κ) (m : OrderedMap κ ν) : AgreeFrom g m m :=
  ⟨[], [], m.entries, rfl, rfl, Or.inl ⟨rfl, rfl⟩⟩

theorem AgreeFrom.mono {g g' : κ} {m m' : OrderedMap κ ν} (h : AgreeFrom g m m') (hg : g ≤ g') :
    AgreeFrom g' m m' := by
  obtain ⟨p, p', c, hm, hm', hc⟩ := h
  exact ⟨p, p', c, hm, hm', hc.imp_right fun ⟨e, he, hle⟩ => ⟨e, he, hle.trans hg⟩⟩

theorem AgreeFrom.floor?_eq {g k : κ} {m m' : OrderedMap κ ν} (h : AgreeFrom g m m')
    (hk : g ≤ k) : m.floor? k = m'.floor? k := by
  obtain ⟨p, p', c, hm, hm', ⟨rfl, rfl⟩ | ⟨e, he, hle⟩⟩ := h
  · rw [floor?, floor?, hm, hm', List.nil_append]
  · have hs := m.sorted
    have hs' := m'.sorted
    rw [hm] at hs
    rw [hm'] at hs'
    rw [floor?, floor?, hm, hm', getLast?_takeWhile_append hs he (hle.trans hk),
      getLast?_takeWhile_append hs' he (hle.trans hk)]

theorem insertEntry_append_of_lt {k : κ} {v : ν} {p c : List (κ × ν)} {e : κ × ν}
    (hhead : c.head? = some e) (hk : k < e.1) :
    insertEntry k v (p ++ c) = insertEntry k v p ++ c := by
  induction p with
  | nil =>
      cases c with
      | nil => simp at hhead
      | cons d rest =>
          obtain rfl : d = e := by simpa using hhead
          simp [insertEntry, hk]
  | cons d p ih =>
      simp only [List.cons_append, insertEntry]
      split
      · rfl
      · split
        · rw [ih, List.cons_append]
        · rfl

theorem insertEntry_append_of_le {k : κ} {v : ν} {p c : List (κ × ν)} {e : κ × ν}
    (hsorted : (p ++ c).Pairwise fun a b => a.1 < b.1) (hhead : c.head? = some e) (hk : e.1 ≤ k) :
    insertEntry k v (p ++ c) = p ++ insertEntry k v c := by
  induction p with
  | nil => rfl
  | cons d p ih =>
      have hmem : e ∈ p ++ c := List.mem_append_right _ (List.mem_of_mem_head? hhead)
      obtain ⟨hd, hrest⟩ := List.pairwise_cons.mp hsorted
      have hdk : d.1 < k := (hd e hmem).trans_le hk
      rw [List.cons_append, insertEntry, if_neg (not_lt.mpr hdk.le), if_pos hdk, ih hrest,
        List.cons_append]

theorem head?_insertEntry_of_le {k : κ} {v : ν} {c : List (κ × ν)} {e : κ × ν}
    (hhead : c.head? = some e) (hk : e.1 ≤ k) :
    ∃ e', (insertEntry k v c).head? = some e' ∧ e'.1 = e.1 := by
  cases c with
  | nil => simp at hhead
  | cons d rest =>
      obtain rfl : d = e := by simpa using hhead
      rw [insertEntry, if_neg (not_lt.mpr hk)]
      split
      · exact ⟨d, rfl, rfl⟩
      · next hd => exact ⟨(k, v), rfl, le_antisymm (not_lt.mp hd) hk⟩

/-- Maps that agree from `g` on still do after the same insertion, wherever it is made. -/
theorem AgreeFrom.insert {g : κ} {m m' : OrderedMap κ ν} (h : AgreeFrom g m m') (k : κ) (v : ν) :
    AgreeFrom g (m.insert k v) (m'.insert k v) := by
  obtain ⟨p, p', c, hm, hm', ⟨rfl, rfl⟩ | ⟨e, he, hle⟩⟩ := h
  · refine ⟨[], [], insertEntry k v c, ?_, ?_, Or.inl ⟨rfl, rfl⟩⟩
    · rw [entries_insert, hm, List.nil_append, List.nil_append]
    · rw [entries_insert, hm', List.nil_append, List.nil_append]
  · have hs := m.sorted
    have hs' := m'.sorted
    rw [hm] at hs
    rw [hm'] at hs'
    rcases lt_or_ge k e.1 with hk | hk
    · refine ⟨insertEntry k v p, insertEntry k v p', c, ?_, ?_, Or.inr ⟨e, he, hle⟩⟩
      · rw [entries_insert, hm, insertEntry_append_of_lt he hk]
      · rw [entries_insert, hm', insertEntry_append_of_lt he hk]
    · obtain ⟨e', he', hkey⟩ := head?_insertEntry_of_le (v := v) he hk
      refine ⟨p, p', insertEntry k v c, ?_, ?_, Or.inr ⟨e', he', hkey ▸ hle⟩⟩
      · rw [entries_insert, hm, insertEntry_append_of_le hs he hk]
      · rw [entries_insert, hm', insertEntry_append_of_le hs' he hk]

/-- Forgetting what lies before an entry not above `g` keeps the agreement. -/
theorem AgreeFrom.drop {g : κ} {m m' m'' : OrderedMap κ ν} (h : AgreeFrom g m m')
    {p : List (κ × ν)} {e : κ × ν} (hm'' : m'.entries = p ++ m''.entries)
    (hhead : m''.entries.head? = some e) (he : e.1 ≤ g) : AgreeFrom g m m'' := by
  obtain ⟨q, q', c, hm, hm', hc⟩ := h
  rcases List.append_eq_append_iff.mp (hm'.symm.trans hm'') with ⟨r, rfl, hcr⟩ | ⟨r, rfl, hr⟩
  · -- the cut lies within the common part
    refine ⟨q ++ r, [], m''.entries, ?_, rfl, Or.inr ⟨e, hhead, he⟩⟩
    rw [hm, hcr, List.append_assoc]
  · refine ⟨q, r, c, hm, hr, ?_⟩
    rcases hc with ⟨rfl, hnil⟩ | hc
    · rw [List.append_eq_nil_iff] at hnil
      exact Or.inl ⟨rfl, hnil.2⟩
    · exact Or.inr hc

/-! ## Membership -/

theorem mem_insertEntry {k : κ} {v : ν} {l : List (κ × ν)} (hl : l.Pairwise fun a b => a.1 < b.1)
    {e : κ × ν} : e ∈ insertEntry k v l ↔ e = (k, v) ∨ (e ∈ l ∧ e.1 ≠ k) := by
  induction l with
  | nil => simp [insertEntry]
  | cons d rest ih =>
      obtain ⟨hd, hrest⟩ := List.pairwise_cons.mp hl
      simp only [insertEntry]
      split
      · next hk =>
        have hne : ∀ e ∈ d :: rest, e.1 ≠ k := by
          intro e he
          rcases List.mem_cons.mp he with rfl | he
          · exact ne_of_gt hk
          · exact ne_of_gt (hk.trans (hd e he))
        rw [List.mem_cons]
        exact or_congr_right ⟨fun he => ⟨he, hne e he⟩, And.left⟩
      · next hk =>
        split
        · next hdk =>
          rw [List.mem_cons, List.mem_cons, ih hrest]
          constructor
          · rintro (rfl | rfl | ⟨he, hne⟩)
            · exact Or.inr ⟨Or.inl rfl, ne_of_lt hdk⟩
            · exact Or.inl rfl
            · exact Or.inr ⟨Or.inr he, hne⟩
          · rintro (rfl | ⟨rfl | he, hne⟩)
            · exact Or.inr (Or.inl rfl)
            · exact Or.inl rfl
            · exact Or.inr (Or.inr ⟨he, hne⟩)
        · next hdk =>
          have heq : d.1 = k := le_antisymm (not_lt.mp hk) (not_lt.mp hdk)
          rw [List.mem_cons, List.mem_cons]
          constructor
          · rintro (rfl | he)
            · exact Or.inl rfl
            · exact Or.inr ⟨Or.inr he, heq ▸ ne_of_gt (hd e he)⟩
          · rintro (rfl | ⟨rfl | he, hne⟩)
            · exact Or.inl rfl
            · exact absurd heq hne
            · exact Or.inr he

theorem find?_eq_none_iff {m : OrderedMap κ ν} {k : κ} : m.find? k = none ↔ ∀ e ∈ m.entries, e.1 ≠ k := by
  unfold find?
  rw [List.lookup_eq_none_iff]
  refine forall₂_congr fun e _ => ?_
  rw [bne_iff_ne, ne_comm]

theorem find?_eq_some_iff {m : OrderedMap κ ν} {k : κ} {v : ν} : m.find? k = some v ↔ (k, v) ∈ m.entries := by
  obtain ⟨l, hl⟩ := m
  simp only [find?]
  induction l with
  | nil => simp
  | cons d rest ih =>
      obtain ⟨hd, hrest⟩ := List.pairwise_cons.mp hl
      obtain ⟨k', v'⟩ := d
      rw [lookup_cons, List.mem_cons]
      by_cases hk : k = k'
      · have hnot : (k, v) ∉ rest := fun hmem => absurd hk (ne_of_gt (hd _ hmem))
        simp [hk, eq_comm, hk ▸ hnot]
      · simp [hk, ih hrest]

/-- `emplace`: an entry that is there is left alone. -/
def emplace (m : OrderedMap κ ν) (k : κ) (v : ν) : OrderedMap κ ν :=
  match m.find? k with
  | some _ => m
  | none => m.insert k v

theorem mem_emplace {m : OrderedMap κ ν} {k : κ} {v : ν} {e : κ × ν} : e ∈ (m.emplace k v).entries ↔
    e ∈ m.entries ∨ (e = (k, v) ∧ ∀ e' ∈ m.entries, e'.1 ≠ k) := by
  unfold emplace
  rw [← find?_eq_none_iff]
  cases hfind : m.find? k with
  | some w => simp
  | none =>
      have hne := find?_eq_none_iff.mp hfind
      rw [entries_insert, mem_insertEntry m.sorted]
      constructor
      · exact fun h => h.elim (fun he => Or.inr ⟨he, rfl⟩) fun he => Or.inl he.1
      · exact fun h => h.elim (fun he => Or.inr ⟨he, hne e he⟩) fun he => Or.inl he.1

/-- An entry above all others goes to the end. -/
theorem insertEntry_last {k : κ} {v : ν} {l : List (κ × ν)} (h : ∀ e ∈ l, e.1 < k) :
    insertEntry k v l = l ++ [(k, v)] := by
  induction l with
  | nil => rfl
  | cons d rest ih =>
      have hd := h d List.mem_cons_self
      rw [insertEntry, if_neg (not_lt.mpr hd.le), if_pos hd, ih fun e he => h e (List.mem_cons_of_mem _ he)]
      rfl

theorem insert_last {m : OrderedMap κ ν} {k : κ} (v : ν) (h : ∀ e ∈ m.entries, e.1 < k) :
    (m.insert k v).entries = m.entries ++ [(k, v)] :=
  insertEntry_last h

theorem emplace_last {m : OrderedMap κ ν} {k : κ} (v : ν) (h : ∀ e ∈ m.entries, e.1 < k) :
    (m.emplace k v).entries = m.entries ++ [(k, v)] := by
  have hnone : m.find? k = none := find?_eq_none_iff.mpr fun e he => ne_of_lt (h e he)
  unfold emplace
  rw [hnone]
  exact insert_last v h

/-! ## Cutting -/

theorem mem_takeWhile_le {l : List (κ × ν)} (hl : l.Pairwise fun a b => a.1 < b.1) {k : κ} {e : κ × ν} :
    e ∈ l.takeWhile (fun e => e.1 ≤ k) ↔ e ∈ l ∧ e.1 ≤ k := by
  induction l with
  | nil => simp
  | cons d rest ih =>
      obtain ⟨hd, hrest⟩ := List.pairwise_cons.mp hl
      by_cases hk : d.1 ≤ k
      · rw [List.takeWhile_cons_of_pos (by simpa using hk), List.mem_cons, List.mem_cons, ih hrest]
        constructor
        · rintro (rfl | ⟨he, hle⟩)
          · exact ⟨Or.inl rfl, hk⟩
          · exact ⟨Or.inr he, hle⟩
        · rintro ⟨rfl | he, hle⟩
          · exact Or.inl rfl
          · exact Or.inr ⟨he, hle⟩
      · rw [List.takeWhile_cons_of_neg (by simpa using hk)]
        have habove : ∀ e ∈ d :: rest, ¬ e.1 ≤ k := by
          intro e he
          rcases List.mem_cons.mp he with rfl | he
          · exact hk
          · exact fun hle => hk ((hd e he).le.trans hle)
        simpa using fun he => habove e (by simpa using he)

/-- Erase the entries above `k`. -/
def dropAbove (m : OrderedMap κ ν) (k : κ) : OrderedMap κ ν :=
  m.restrict (m.entries.takeWhile fun e => e.1 ≤ k) (List.takeWhile_sublist _)

theorem mem_dropAbove {m : OrderedMap κ ν} {k : κ} {e : κ × ν} :
    e ∈ (m.dropAbove k).entries ↔ e ∈ m.entries ∧ e.1 ≤ k :=
  mem_takeWhile_le m.sorted

theorem floor?_eq_none_iff {m : OrderedMap κ ν} {k : κ} : m.floor? k = none ↔ ∀ e ∈ m.entries, ¬ e.1 ≤ k := by
  unfold floor?
  rw [List.getLast?_eq_none_iff, List.eq_nil_iff_forall_not_mem]
  simp only [mem_takeWhile_le m.sorted, not_and]

/-- The floor is the greatest entry that is not above `k`. -/
theorem floor?_eq_some {m : OrderedMap κ ν} {k : κ} {e : κ × ν} (h : m.floor? k = some e) :
    e ∈ m.entries ∧ e.1 ≤ k ∧ ∀ e' ∈ m.entries, e'.1 ≤ k → e'.1 ≤ e.1 := by
  obtain ⟨hmem, hle⟩ := (mem_takeWhile_le m.sorted).mp (List.mem_of_getLast? h)
  refine ⟨hmem, hle, fun e' he' hle' => ?_⟩
  obtain ⟨before, hsplit⟩ := List.getLast?_eq_some_iff.mp h
  have hsorted := m.sorted.sublist (List.takeWhile_sublist fun e => e.1 ≤ k)
  have hin := (mem_takeWhile_le m.sorted).mpr ⟨he', hle'⟩
  rw [hsplit] at hsorted hin
  rcases List.mem_append.mp hin with hin | hin
  · exact ((List.pairwise_append.mp hsorted).2.2 e' hin e (List.mem_singleton_self e)).le
  · rw [List.mem_singleton.mp hin]

/-- Erase the first entry as long as there are more than `n`. -/
def trimEntries (n : ℕ) : List (κ × ν) → List (κ × ν)
  | [] => []
  | e :: rest => if n < rest.length + 1 then trimEntries n rest else e :: rest

omit [LinearOrder κ] in
theorem trimEntries_sublist (n : ℕ) (l : List (κ × ν)) : (trimEntries n l).Sublist l := by
  induction l with
  | nil => exact List.Sublist.refl _
  | cons e rest ih =>
      unfold trimEntries
      split
      · exact ih.cons e
      · exact List.Sublist.refl _

omit [LinearOrder κ] in
theorem length_trimEntries_le (n : ℕ) (l : List (κ × ν)) : (trimEntries n l).length ≤ n := by
  induction l with
  | nil => exact Nat.zero_le n
  | cons e rest ih =>
      unfold trimEntries
      split
      · exact ih
      · next h => exact Nat.not_lt.mp h

def trim (n : ℕ) (m : OrderedMap κ ν) : OrderedMap κ ν :=
  m.restrict (trimEntries n m.entries) (trimEntries_sublist n m.entries)

theorem mem_trimEntries {n : ℕ} {l : List (κ × ν)} (hl : l.Pairwise fun a b => a.1 < b.1) {e : κ × ν} :
    e ∈ trimEntries n l ↔ e ∈ l ∧ (l.filter fun e' => e.1 < e'.1).length < n := by
  induction l with
  | nil => simp [trimEntries]
  | cons d rest ih =>
      obtain ⟨hd, hrest⟩ := List.pairwise_cons.mp hl
      have hfirst : ((d :: rest).filter fun e' => d.1 < e'.1) = rest := by
        rw [List.filter_cons_of_neg (by simp)]
        exact List.filter_eq_self.mpr fun e' he' => by simpa using hd e' he'
      unfold trimEntries
      split
      · next hn =>
        rw [ih hrest, List.mem_cons]
        constructor
        · rintro ⟨he, hlater⟩
          refine ⟨Or.inr he, ?_⟩
          rw [List.filter_cons_of_neg (by simpa using (hd e he).le)]
          exact hlater
        · rintro ⟨rfl | he, hlater⟩
          · rw [hfirst] at hlater
            omega
          · rw [List.filter_cons_of_neg (by simpa using (hd e he).le)] at hlater
            exact ⟨he, hlater⟩
      · next hn =>
        refine ⟨fun he => ⟨he, ?_⟩, And.left⟩
        rcases List.mem_cons.mp he with rfl | he
        · rw [hfirst]
          omega
        · rw [List.filter_cons_of_neg (by simpa using (hd e he).le)]
          have hle := List.length_filter_le (fun e' : κ × ν => decide (e.1 < e'.1)) rest
          omega

theorem mem_trim {n : ℕ} {m : OrderedMap κ ν} {e : κ × ν} :
    e ∈ (m.trim n).entries ↔ e ∈ m.entries ∧ (m.entries.filter fun e' => e.1 < e'.1).length < n :=
  mem_trimEntries m.sorted

end OrderedMap

end WarpSim

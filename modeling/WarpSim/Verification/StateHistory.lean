import WarpSim.Model.StateHistory

/-! # Recorded snapshots

A history is to answer with the latest snapshot that was recorded at a stamp it still has. It answers with the
first one that was recorded there since the stamp came in. -/

namespace WarpSim

namespace StateHistory

/-! ## What a sequence of operations records -/

inductive Op where
  | push (ts : TimeStamp) (snapshot : ByteBuffer)
  | dropAfter (ts : TimeStamp)
  | clear

def perform : Op → StateHistory → StateHistory
  | .push ts snapshot => push ts snapshot
  | .dropAfter ts => dropAfter ts
  | .clear => clear

/-- A new history after the operations. -/
def after (maxSnapshots : ℕ) (ops : List Op) : StateHistory :=
  ops.foldl (fun h op => perform op h) { maxSnapshots }

/-- Trimming leaves the latest `n` stamps. -/
def latest (n : ℕ) (stamps : Finset TimeStamp) : Finset TimeStamp :=
  stamps.filter fun t => (stamps.filter fun t' => t < t').card < n

/-- The stamps that were pushed and have since been neither dropped, cleared nor trimmed as oldest. -/
def retain (n : ℕ) (stamps : Finset TimeStamp) : Op → Finset TimeStamp
  | .push ts _ => latest n (insert ts stamps)
  | .dropAfter ts => stamps.filter fun t => t ≤ ts
  | .clear => ∅

def retained (n : ℕ) (ops : List Op) : Finset TimeStamp := ops.foldl (retain n) ∅

def pushedAt (ts : TimeStamp) : Op → Option ByteBuffer
  | .push t snapshot => if t = ts then some snapshot else none
  | _ => none

/-- The bytes of the last push at the stamp. -/
def lastPush (ts : TimeStamp) (ops : List Op) : Option ByteBuffer := ops.reverse.findSome? (pushedAt ts)

/-- The stamp came in with these bytes, and has been retained from then on. -/
inductive Entered (n : ℕ) : List Op → TimeStamp → ByteBuffer → Prop where
  | push {ops ts snapshot} : ts ∉ retained n ops → ts ∈ retained n (ops ++ [.push ts snapshot]) →
      Entered n (ops ++ [.push ts snapshot]) ts snapshot
  | stay {ops op ts snapshot} : Entered n ops ts snapshot → ts ∈ retained n (ops ++ [op]) →
      Entered n (ops ++ [op]) ts snapshot

/-- Every retained stamp came in with the bytes of the last push at it. -/
def Settled (n : ℕ) (ops : List Op) : Prop :=
  ∀ ts snapshot, Entered n ops ts snapshot → lastPush ts ops = some snapshot

/-- The answer is the greatest retained stamp that is not after `ts`, with the bytes of the last push at it. -/
structure Answers (n : ℕ) (ops : List Op) (ts : TimeStamp) (answer : Option (TimeStamp × ByteBuffer)) :
    Prop where
  none : answer = none → ∀ t ∈ retained n ops, ¬ t ≤ ts
  some : ∀ t snapshot, answer = some (t, snapshot) →
    IsGreatest {t | t ∈ retained n ops ∧ t ≤ ts} t ∧ lastPush t ops = some snapshot

theorem after_append (n : ℕ) (ops : List Op) (op : Op) :
    after n (ops ++ [op]) = perform op (after n ops) := by
  rw [after, List.foldl_append]
  rfl

theorem retained_append (n : ℕ) (ops : List Op) (op : Op) :
    retained n (ops ++ [op]) = retain n (retained n ops) op := by
  rw [retained, List.foldl_append]
  rfl

theorem maxSnapshots_after (n : ℕ) (ops : List Op) : (after n ops).maxSnapshots = n := by
  induction ops using List.reverseRecOn with
  | nil => rfl
  | append_singleton ops op ih =>
      rw [after_append]
      cases op <;> exact ih

/-! ## The entries -/

theorem Entered.retained {n : ℕ} {ops : List Op} {ts : TimeStamp} {snapshot : ByteBuffer}
    (h : Entered n ops ts snapshot) : ts ∈ retained n ops := by
  cases h with
  | push _ hin => exact hin
  | stay _ hin => exact hin

theorem entered_append_iff {n : ℕ} {ops : List Op} {op : Op} {ts : TimeStamp} {snapshot : ByteBuffer} :
    Entered n (ops ++ [op]) ts snapshot ↔ ts ∈ StateHistory.retained n (ops ++ [op]) ∧
      ((ts ∉ StateHistory.retained n ops ∧ op = .push ts snapshot) ∨ Entered n ops ts snapshot) := by
  constructor
  · intro h
    refine ⟨h.retained, ?_⟩
    generalize hops : ops ++ [op] = all at h
    cases h with
    | push hout =>
        obtain ⟨rfl, hop⟩ := List.append_inj' hops rfl
        exact Or.inl ⟨hout, List.singleton_injective hop⟩
    | stay hbefore =>
        obtain ⟨rfl, -⟩ := List.append_inj' hops rfl
        exact Or.inr hbefore
  · rintro ⟨hin, ⟨hout, rfl⟩ | hbefore⟩
    · exact .push hout hin
    · exact .stay hbefore hin

theorem not_entered_nil {n : ℕ} {ts : TimeStamp} {snapshot : ByteBuffer} : ¬ Entered n [] ts snapshot := by
  intro h
  have hmem := h.retained
  simp [StateHistory.retained] at hmem

theorem Entered.unique {n : ℕ} {ops : List Op} {ts : TimeStamp} {b b' : ByteBuffer}
    (h : Entered n ops ts b) (h' : Entered n ops ts b') : b = b' := by
  induction ops using List.reverseRecOn with
  | nil => exact absurd h not_entered_nil
  | append_singleton ops op ih =>
      rcases (entered_append_iff.mp h).2 with ⟨hout, rfl⟩ | hbefore
      · rcases (entered_append_iff.mp h').2 with ⟨-, hop⟩ | hbefore'
        · cases hop
          rfl
        · exact absurd hbefore'.retained hout
      · rcases (entered_append_iff.mp h').2 with ⟨hout, -⟩ | hbefore'
        · exact absurd hbefore.retained hout
        · exact ih hbefore hbefore'

/-- The history has an entry for each retained stamp, with the bytes it came in with. -/
structure Holds (n : ℕ) (ops : List Op) (m : OrderedMap TimeStamp ByteBuffer) : Prop where
  stamps : ∀ t, t ∈ retained n ops ↔ ∃ e ∈ m.entries, e.1 = t
  entered : ∀ e ∈ m.entries, Entered n ops e.1 e.2

/-- The stamps of a map that are later than `t`. -/
theorem card_later {m : OrderedMap TimeStamp ByteBuffer} {stamps : Finset TimeStamp}
    (h : ∀ t, t ∈ stamps ↔ ∃ e ∈ m.entries, e.1 = t) (t : TimeStamp) :
    (stamps.filter fun t' => t < t').card = (m.entries.filter fun e => t < e.1).length := by
  have hnodup : ((m.entries.filter fun e => t < e.1).map Prod.fst).Nodup := by
    rw [List.Nodup, List.pairwise_map]
    exact (m.sorted.filter _).imp fun hlt => ne_of_lt hlt
  rw [← List.length_map (f := Prod.fst), ← List.toFinset_card_of_nodup hnodup]
  congr 1
  ext t'
  simp only [Finset.mem_filter, h, List.mem_toFinset, List.mem_map, List.mem_filter, decide_eq_true_eq]
  constructor
  · rintro ⟨⟨e, he, rfl⟩, hlt⟩
    exact ⟨e, ⟨he, hlt⟩, rfl⟩
  · rintro ⟨e, ⟨he, hlt⟩, rfl⟩
    exact ⟨⟨e, he, rfl⟩, hlt⟩

theorem mem_latest {m : OrderedMap TimeStamp ByteBuffer} {stamps : Finset TimeStamp} {n : ℕ}
    (h : ∀ t, t ∈ stamps ↔ ∃ e ∈ m.entries, e.1 = t) (t : TimeStamp) :
    t ∈ latest n stamps ↔ ∃ e ∈ (m.trim n).entries, e.1 = t := by
  unfold latest
  rw [Finset.mem_filter, card_later h, h]
  simp only [OrderedMap.mem_trim]
  constructor
  · rintro ⟨⟨e, he, rfl⟩, hlater⟩
    exact ⟨e, ⟨he, hlater⟩, rfl⟩
  · rintro ⟨e, ⟨he, hlater⟩, rfl⟩
    exact ⟨⟨e, he, rfl⟩, hlater⟩

/-- A push keeps the entry that is there. -/
theorem Holds.push {n : ℕ} {ops : List Op} {m : OrderedMap TimeStamp ByteBuffer} (h : Holds n ops m)
    (ts : TimeStamp) (snapshot : ByteBuffer) :
    Holds n (ops ++ [.push ts snapshot]) ((m.emplace ts snapshot).trim n) := by
  have hstamps : ∀ t, t ∈ insert ts (retained n ops) ↔ ∃ e ∈ (m.emplace ts snapshot).entries, e.1 = t := by
    intro t
    rw [Finset.mem_insert, h.stamps]
    simp only [OrderedMap.mem_emplace]
    constructor
    · rintro (rfl | ⟨e, he, rfl⟩)
      · by_cases hthere : ∃ e ∈ m.entries, e.1 = t
        · obtain ⟨e, he, het⟩ := hthere
          exact ⟨e, Or.inl he, het⟩
        · exact ⟨(t, snapshot), Or.inr ⟨rfl, fun e he het => hthere ⟨e, he, het⟩⟩, rfl⟩
      · exact ⟨e, Or.inl he, rfl⟩
    · rintro ⟨e, he | ⟨rfl, -⟩, rfl⟩
      · exact Or.inr ⟨e, he, rfl⟩
      · exact Or.inl rfl
  have hafter : ∀ t, t ∈ retained n (ops ++ [.push ts snapshot]) ↔
      ∃ e ∈ ((m.emplace ts snapshot).trim n).entries, e.1 = t := by
    intro t
    rw [retained_append]
    exact mem_latest hstamps t
  refine ⟨hafter, fun e he => ?_⟩
  have hin := (hafter e.1).mpr ⟨e, he, rfl⟩
  rcases OrderedMap.mem_emplace.mp (OrderedMap.mem_trim.mp he).1 with hold | ⟨rfl, hnew⟩
  · exact .stay (h.entered e hold) hin
  · refine .push (fun hmem => ?_) hin
    obtain ⟨e, he, het⟩ := (h.stamps ts).mp hmem
    exact hnew e he het

theorem Holds.dropAfter {n : ℕ} {ops : List Op} {m : OrderedMap TimeStamp ByteBuffer} (h : Holds n ops m)
    (ts : TimeStamp) : Holds n (ops ++ [.dropAfter ts]) (m.dropAbove ts) := by
  have hafter : ∀ t, t ∈ retained n (ops ++ [.dropAfter ts]) ↔ ∃ e ∈ (m.dropAbove ts).entries, e.1 = t := by
    intro t
    rw [retained_append, retain, Finset.mem_filter, h.stamps]
    simp only [OrderedMap.mem_dropAbove]
    constructor
    · rintro ⟨⟨e, he, rfl⟩, hle⟩
      exact ⟨e, ⟨he, hle⟩, rfl⟩
    · rintro ⟨e, ⟨he, hle⟩, rfl⟩
      exact ⟨⟨e, he, rfl⟩, hle⟩
  exact ⟨hafter, fun e he => .stay (h.entered e (OrderedMap.mem_dropAbove.mp he).1)
    ((hafter e.1).mpr ⟨e, he, rfl⟩)⟩

theorem holds_after (n : ℕ) (ops : List Op) : Holds n ops (after n ops).history := by
  induction ops using List.reverseRecOn with
  | nil => exact ⟨fun t => by simp [retained, after, OrderedMap.empty], by rintro _ ⟨⟩⟩
  | append_singleton ops op ih =>
      rw [after_append]
      cases op with
      | push ts snapshot =>
          have hpush : Holds n (ops ++ [.push ts snapshot])
              (((after n ops).history.emplace ts snapshot).trim n) := ih.push ts snapshot
          have hmax := maxSnapshots_after n ops
          change Holds n _ (((after n ops).history.emplace ts snapshot).trim (after n ops).maxSnapshots)
          rw [hmax]
          exact hpush
      | dropAfter ts => exact ih.dropAfter ts
      | clear =>
          refine ⟨fun t => ?_, by rintro _ ⟨⟩⟩
          rw [retained_append]
          simp [retain, perform, StateHistory.clear, OrderedMap.empty]

/-! ## The answers -/

theorem length_after (n : ℕ) (ops : List Op) : (after n ops).history.entries.length ≤ n := by
  induction ops using List.reverseRecOn with
  | nil => exact Nat.zero_le n
  | append_singleton ops op ih =>
      rw [after_append]
      cases op with
      | push ts snapshot =>
          conv_rhs => rw [← maxSnapshots_after n ops]
          exact OrderedMap.length_trimEntries_le _ _
      | dropAfter ts => exact (List.takeWhile_sublist _).length_le.trans ih
      | clear => exact Nat.zero_le n

/-- The history never has more entries than it may have, and it answers as it should if and only if every
retained stamp came in with the bytes of the last push at it. -/
theorem latestAtOrBefore_answers_iff (n : ℕ) (ops : List Op) :
    (after n ops).history.entries.length ≤ n ∧
      ((∀ ts, Answers n ops ts ((after n ops).latestAtOrBefore ts)) ↔ Settled n ops) := by
  have hholds := holds_after n ops
  refine ⟨length_after n ops, fun hanswers ts snapshot hentered => ?_, fun hsettled ts => ⟨?_, ?_⟩⟩
  · obtain ⟨e, he, rfl⟩ := (hholds.stamps ts).mp hentered.retained
    cases hfloor : (after n ops).latestAtOrBefore e.1 with
    | none => exact absurd le_rfl (OrderedMap.floor?_eq_none_iff.mp hfloor e he)
    | some answer =>
        obtain ⟨t, bytes⟩ := answer
        obtain ⟨hmem, hle, hmax⟩ := OrderedMap.floor?_eq_some hfloor
        obtain rfl : t = e.1 := le_antisymm hle (hmax e he le_rfl)
        have hbytes : bytes = snapshot := (hholds.entered _ hmem).unique hentered
        rw [← hbytes]
        exact ((hanswers e.1).some e.1 bytes hfloor).2
  · intro hnone t ht
    obtain ⟨e, he, rfl⟩ := (hholds.stamps t).mp ht
    exact OrderedMap.floor?_eq_none_iff.mp hnone e he
  · intro t snapshot hsome
    obtain ⟨hmem, hle, hmax⟩ := OrderedMap.floor?_eq_some hsome
    refine ⟨⟨⟨(hholds.stamps t).mpr ⟨_, hmem, rfl⟩, hle⟩, ?_⟩, hsettled t snapshot (hholds.entered _ hmem)⟩
    rintro t' ⟨ht', hle'⟩
    obtain ⟨e, he, rfl⟩ := (hholds.stamps t').mp ht'
    exact hmax e he hle'

/-- A push at a stamp that the history has is lost. -/
theorem repeated_push_lost :
    (after 4 [.push ⟨5, 0⟩ [1], .push ⟨5, 0⟩ [2]]).latestAtOrBefore ⟨5, 0⟩ = some (⟨5, 0⟩, [1]) ∧
      retained 4 [.push ⟨5, 0⟩ [1], .push ⟨5, 0⟩ [2]] = {⟨5, 0⟩} ∧
      lastPush ⟨5, 0⟩ [.push ⟨5, 0⟩ [1], .push ⟨5, 0⟩ [2]] = some [2] := by
  decide

end StateHistory

end WarpSim

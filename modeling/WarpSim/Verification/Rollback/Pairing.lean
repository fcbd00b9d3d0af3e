import WarpSim.Verification.Counters
import WarpSim.Verification.Rollback.Antis

/-! # Events and their anti-messages

Events that are left to the kernel to number get different uids, and the anti-messages of rollbacks are
for different ones of them. What is outstanding of an LP carries the argument: an anti-message is for the
last event that is, and no event comes back once it has been taken off. -/

namespace WarpSim

variable {Q : EventQueue} {σ : Type} {sound final : Prop} {model : Model σ} {cfg : SimulationConfig}

open Simulation

/-! ## The sends of a run -/

def SendRecord.Positive (r : SendRecord) : Prop := r.ev.isAnti = false

instance : DecidablePred SendRecord.Positive := fun r => inferInstanceAs (Decidable (r.ev.isAnti = false))

/-- A positive event in the name of the LP. -/
def SendRecord.Mine (i : LPId) (r : SendRecord) : Prop := r.ev.src = i ∧ r.ev.isAnti = false

instance (i : LPId) : DecidablePred (SendRecord.Mine i) := fun r =>
  inferInstanceAs (Decidable (r.ev.src = i ∧ r.ev.isAnti = false))

/-- The event was sent by a rollback. -/
def SendRecord.Undoes (r : SendRecord) : Prop := ∃ i, r.cause = .rollback i

instance : DecidablePred SendRecord.Undoes := fun r =>
  match h : r.cause with
  | .rollback i => .isTrue ⟨i, h⟩
  | .host => .isFalse (by simp [SendRecord.Undoes, h])
  | .start _ => .isFalse (by simp [SendRecord.Undoes, h])
  | .handler _ _ => .isFalse (by simp [SendRecord.Undoes, h])
  | .notification => .isFalse (by simp [SendRecord.Undoes, h])

/-- The events have different sources or uids. -/
def SendRecord.Apart (a b : SendRecord) : Prop := a.ev.uidKey ≠ b.ev.uidKey

instance (a b : SendRecord) : Decidable (a.Apart b) := inferInstanceAs (Decidable (a.ev.uidKey ≠ b.ev.uidKey))

/-- An anti-message for the positive event, sent to where the event went. -/
structure SendRecord.Cancels (anti r : SendRecord) : Prop where
  negative : anti.ev.isAnti = true
  positive : r.Positive
  key : anti.ev.uidKey = r.ev.uidKey
  dst : anti.ev.dst = r.ev.dst
  ts : anti.ev.ts = r.ev.ts
  rank : anti.rank = r.rank

/-- Every anti-message of a rollback is for an earlier event, and no two are for the same one. -/
structure Paired (sends : List SendRecord) : Prop where
  distinct : (sends.filter (·.Positive)).Pairwise SendRecord.Apart
  own : ∀ anti ∈ sends, ∀ i, anti.cause = .rollback i → anti.ev.src = i
  matched : ∀ before anti, before ++ [anti] <+: sends → anti.Undoes → ∃ r ∈ before, anti.Cancels r
  once : (sends.filter (·.Undoes)).Pairwise SendRecord.Apart
  kept : ∀ i, (outstanding i sends).Sublist (sends.filter (·.Mine i))
  spent : ∀ i, ∀ r ∈ outstanding i sends, ∀ anti ∈ sends, anti.cause = .rollback i → anti.Apart r

theorem Paired.nil : Paired [] :=
  ⟨.nil, by simp, by simp, .nil, fun _ => .slnil, by simp [outstanding]⟩

theorem SendRecord.Mine.positive {i : LPId} {r : SendRecord} (h : r.Mine i) : r.Positive := h.2

/-- A rollback's anti-message is for one of the events sent before it. -/
theorem Paired.partner {sends : List SendRecord} (h : Paired sends) {anti : SendRecord} (hanti : anti ∈ sends)
    {i : LPId} (hcause : anti.cause = .rollback i) : ∃ r ∈ sends, anti.Cancels r := by
  obtain ⟨before, after, rfl⟩ := List.append_of_mem hanti
  obtain ⟨r, hr, hcancels⟩ := h.matched before anti ⟨after, by simp⟩ ⟨i, hcause⟩
  exact ⟨r, List.mem_append_left _ hr, hcancels⟩

theorem Paired.outstanding_mine {sends : List SendRecord} (h : Paired sends) {i : LPId} {r : SendRecord}
    (hr : r ∈ outstanding i sends) : r ∈ sends ∧ r.Mine i := by
  have hmem := (h.kept i).subset hr
  simpa using hmem

/-- The positive events of one LP are part of all positive events. -/
theorem filter_mine_sublist (i : LPId) (sends : List SendRecord) :
    (sends.filter (·.Mine i)).Sublist (sends.filter (·.Positive)) := by
  refine List.monotone_filter_right _ fun r hr => ?_
  simpa using (of_decide_eq_true hr).positive

/-- What is outstanding of an LP has different uids. -/
theorem Paired.outstanding_apart {sends : List SendRecord} (h : Paired sends) (i : LPId) :
    (outstanding i sends).Pairwise SendRecord.Apart :=
  h.distinct.sublist ((h.kept i).trans (filter_mine_sublist i sends))

/-! ## One more send -/

section

variable {sends : List SendRecord} {r : SendRecord}

theorem matched_append (h : Paired sends) (hr : r.Undoes → ∃ p ∈ sends, r.Cancels p) :
    ∀ before anti, before ++ [anti] <+: sends ++ [r] → anti.Undoes → ∃ p ∈ before, anti.Cancels p := by
  intro before anti hpre hanti
  rcases List.prefix_concat_iff.mp hpre with heq | hpre
  · obtain ⟨rfl, hone⟩ := List.append_inj' heq rfl
    obtain rfl := List.singleton_inj.mp hone
    exact hr hanti
  · exact h.matched before anti hpre hanti

/-- A filtered list stays pairwise apart if the new element, where it counts, is apart from all others. -/
theorem pairwise_filter_append {p : SendRecord → Prop} [DecidablePred p]
    (h : (sends.filter (p ·)).Pairwise SendRecord.Apart) (hr : p r → ∀ r' ∈ sends, p r' → r'.Apart r) :
    ((sends ++ [r]).filter (p ·)).Pairwise SendRecord.Apart := by
  rw [List.filter_append]
  by_cases hp : p r
  · simp only [List.filter_cons, hp, decide_true, if_true, List.filter_nil]
    refine List.pairwise_append.mpr ⟨h, by simp, fun a ha b hb => ?_⟩
    rw [List.mem_singleton.mp hb]
    have ha := List.mem_filter.mp ha
    exact hr hp a ha.1 (of_decide_eq_true ha.2)
  · simpa [hp] using h

/-- The send of an anti-message that is not for a rollback. -/
theorem Paired.other (h : Paired sends) (hcause : ¬ r.Undoes) (hanti : r.ev.isAnti = true) :
    Paired (sends ++ [r]) := by
  have hcause' : ∀ i, r.cause ≠ .rollback i := fun i heq => hcause ⟨i, heq⟩
  have hout : ∀ i, outstanding i (sends ++ [r]) = outstanding i sends := by
    intro i
    rw [outstanding_append, account, if_neg (hcause' i), if_neg (by simp [hanti])]
  refine ⟨pairwise_filter_append h.distinct fun hpos => ?_, fun anti hmem i heq => ?_,
    matched_append h fun h => absurd h hcause, pairwise_filter_append h.once fun h => absurd h hcause,
    fun i => ?_, fun i p hp anti hmem heq => ?_⟩
  · exact absurd (hanti.symm.trans hpos) (by simp)
  · rcases List.mem_append.mp hmem with hmem | hmem
    · exact h.own anti hmem i heq
    · exact absurd (List.mem_singleton.mp hmem ▸ heq) (hcause' i)
  · rw [hout, List.filter_append]
    exact (h.kept i).trans (List.sublist_append_left _ _)
  · rw [hout] at hp
    rcases List.mem_append.mp hmem with hmem | hmem
    · exact h.spent i p hp anti hmem heq
    · exact absurd (List.mem_singleton.mp hmem ▸ heq) (hcause' i)

/-- The send of a positive event with a uid of its own. -/
theorem Paired.sent (h : Paired sends) (hcause : ¬ r.Undoes) (hpos : r.Positive)
    (hnew : ∀ r' ∈ sends, r'.Positive → r'.Apart r) : Paired (sends ++ [r]) := by
  have hcause' : ∀ i, r.cause ≠ .rollback i := fun i heq => hcause ⟨i, heq⟩
  have hout : ∀ i, outstanding i (sends ++ [r]) =
      if r.Mine i then outstanding i sends ++ [r] else outstanding i sends := by
    intro i
    rw [outstanding_append, account, if_neg (hcause' i)]
    rfl
  refine ⟨pairwise_filter_append h.distinct fun _ => hnew, fun anti hmem i heq => ?_,
    matched_append h fun h => absurd h hcause, pairwise_filter_append h.once fun h => absurd h hcause,
    fun i => ?_, fun i p hp anti hmem heq => ?_⟩
  · rcases List.mem_append.mp hmem with hmem | hmem
    · exact h.own anti hmem i heq
    · exact absurd (List.mem_singleton.mp hmem ▸ heq) (hcause' i)
  · rw [hout, List.filter_append]
    split
    · next hmine => simpa [hmine] using h.kept i
    · exact (h.kept i).trans (List.sublist_append_left _ _)
  · rcases List.mem_append.mp hmem with hin | hin
    · have hold : p ∈ outstanding i sends ∨ p = r := by
        rw [hout] at hp
        split at hp
        · simpa using hp
        · exact Or.inl hp
      rcases hold with hp | rfl
      · exact h.spent i p hp anti hin heq
      · obtain ⟨q, hq, hcancels⟩ := h.partner hin heq
        intro hkey
        exact hnew q hq hcancels.positive (hcancels.key.symm.trans hkey)
    · exact absurd (List.mem_singleton.mp hin ▸ heq) (hcause' i)

/-- The send of an anti-message for the last event that is outstanding. -/
theorem Paired.annulled (h : Paired sends) {i : LPId} {rest : List SendRecord} {p : SendRecord}
    (hcause : r.cause = .rollback i) (hout : outstanding i sends = rest ++ [p])
    (hasked : r.asked = antiOf i (p.entry i)) (hsrc : r.ev.src = i) (hcancels : r.Cancels p) :
    Paired (sends ++ [r]) := by
  have hp : p ∈ outstanding i sends := by simp [hout]
  have hleft : outstanding i (sends ++ [r]) = rest := by
    rw [outstanding_append, account, if_pos hcause, hasked, hout, withdraw_last]
  have hother : ∀ j, j ≠ i → outstanding j (sends ++ [r]) = outstanding j sends := by
    intro j hj
    have hne : r.cause ≠ .rollback j := by simp [hcause, Ne.symm hj]
    rw [outstanding_append, account, if_neg hne, if_neg (by simp [hcancels.negative])]
  refine ⟨pairwise_filter_append h.distinct fun hpos => ?_, fun anti hmem j heq => ?_,
    matched_append h fun _ => ⟨p, (h.outstanding_mine hp).1, hcancels⟩,
    pairwise_filter_append h.once fun _ anti hmem hundoes => ?_, fun j => ?_, fun j q hq anti hmem heq => ?_⟩
  · exact absurd (hcancels.negative.symm.trans hpos) (by simp)
  · rcases List.mem_append.mp hmem with hmem | hmem
    · exact h.own anti hmem j heq
    · obtain rfl := List.mem_singleton.mp hmem
      rw [hcause] at heq
      exact hsrc.trans (SendCause.rollback.inj heq)
  · obtain ⟨j, heq⟩ := hundoes
    by_cases hj : j = i
    · subst hj
      intro hkey
      exact h.spent j p hp anti hmem heq (hkey.trans hcancels.key)
    · intro hkey
      have hsame : anti.ev.src = r.ev.src := congrArg UidKey.src hkey
      rw [h.own anti hmem j heq, hsrc] at hsame
      exact hj hsame
  · by_cases hj : j = i
    · subst hj
      have hkept := h.kept j
      rw [hout] at hkept
      rw [hleft, List.filter_append]
      exact ((List.sublist_append_left _ _).trans hkept).trans (List.sublist_append_left _ _)
    · rw [hother j hj, List.filter_append]
      exact (h.kept j).trans (List.sublist_append_left _ _)
  · by_cases hj : j = i
    · subst hj
      rw [hleft] at hq
      rcases List.mem_append.mp hmem with hmem | hmem
      · exact h.spent j q (by simp [hout, hq]) anti hmem heq
      · obtain rfl := List.mem_singleton.mp hmem
        have hapart := h.outstanding_apart j
        rw [hout, List.pairwise_append] at hapart
        intro hkey
        exact hapart.2.2 q hq p (by simp) (hkey.symm.trans hcancels.key)
    · rw [hother j hj] at hq
      rcases List.mem_append.mp hmem with hmem | hmem
      · exact h.spent j q hq anti hmem heq
      · obtain rfl := List.mem_singleton.mp hmem
        rw [hcause] at heq
        exact absurd (SendCause.rollback.inj heq).symm hj

end

/-! ## Numbers -/

/-- The positive events have uids that have been given out, and sequence numbers; everything went to where
its destination is. -/
structure Numbered (cfg : SimulationConfig) (s : Simulation Q σ) : Prop where
  below : ∀ r ∈ s.hist.sends, r.Positive → r.ev.src ∈ s.lpIds ∧ r.ev.uid < (s.ctx r.ev.src).nextUid
  sequence : ∀ r ∈ s.hist.sends, r.Positive → r.ev.ts.sequence ≠ 0
  routed : ∀ r ∈ s.hist.sends, r.rank = cfg.rankOf r.ev.dst

/-- The senders leave the uids of positive events to the kernel. -/
def UidsOpen (sends : List SendRecord) : Prop := ∀ r ∈ sends, r.Positive → r.asked.uid = 0

theorem Stamped.uid_le {s : Simulation Q σ} {asked ev : Event} {u n k : UInt64} {w : Bool}
    (h : Stamped cfg s asked ev u n k w) (hw : w = false) : (s.ctx asked.src).nextUid ≤ u := by
  by_cases huid : asked.uid = 0
  · have hne := h.uid_wraps hw huid
    rw [(h.uid_auto huid).2] at hne ⊢
    exact le_succ_of_ne_zero hne
  · exact UInt64.le_of_eq (h.uid_given huid).2.symm

/-- Uids that have been given out stay so. -/
theorem CounterStep.uid_mono {i : LPId} {x y : Situation Q σ} (h : CounterStep model cfg i x y)
    (hw : y.state.hist.wrapped = false) (hi : i ∈ x.state.lpIds) :
    (x.state.ctx i).nextUid ≤ (y.state.ctx i).nextUid := by
  have hsame : (y.state.ctx i).numbers = (x.state.ctx i).numbers →
      (x.state.ctx i).nextUid ≤ (y.state.ctx i).nextUid :=
    fun hn => UInt64.le_of_eq (congrArg Prod.fst hn).symm
  cases h with
  | same _ hn => exact hsame hn
  | registered _ hi' => exact absurd hi hi'
  | rewound target _ hy =>
      rw [hy, LPContext.rewind_eq]
      exact UInt64.le_refl _
  | sent r ev u n k w hst _ _ _ hwraps hn =>
      rw [hwraps, Bool.or_eq_false_iff] at hw
      split at hn
      · next hsrc =>
        have heq : (y.state.ctx i).nextUid = u := congrArg Prod.fst hn
        rw [heq, hsrc]
        exact hst.uid_le hw.2
      · exact hsame hn
  | refused asked u n k w _ hkeep hwraps hn =>
      rw [hwraps, Bool.or_eq_false_iff] at hw
      split at hn
      · next hsrc =>
        have heq : (y.state.ctx i).nextUid = u := congrArg Prod.fst hn
        rw [heq, hsrc]
        exact (hkeep hw.2).1
      · exact hsame hn

/-- What is known of an event that a move sends. -/
structure NewSend (cfg : SimulationConfig) (x y : Situation Q σ) (r : SendRecord) : Prop where
  sends : y.state.hist.sends = x.state.hist.sends ++ [r]
  rank : r.rank = cfg.rankOf r.ev.dst
  src : r.ev.src = r.asked.src
  isAnti : r.ev.isAnti = r.asked.isAnti
  auto : r.asked.uid = 0 → r.asked.src ∈ x.state.lpIds ∧ r.ev.uid = (x.state.ctx r.asked.src).nextUid ∧
    r.ev.uid < (y.state.ctx r.asked.src).nextUid
  given : r.asked.uid ≠ 0 → r.ev.uid = r.asked.uid
  sequence : r.ev.ts.sequence ≠ 0
  ts : r.asked.ts.sequence ≠ 0 → r.ev.ts = r.asked.ts
  dst : r.asked.target = 0 → r.ev.dst = r.asked.dst

/-- A move sends at most one event. -/
theorem CounterStep.sends_cases {i : LPId} {x y : Situation Q σ} (h : CounterStep model cfg i x y) :
    y.state.hist.sends = x.state.hist.sends ∨ ∃ r, y.state.hist.sends = x.state.hist.sends ++ [r] := by
  cases h with
  | same hsends => exact Or.inl hsends
  | registered hsends => exact Or.inl hsends
  | rewound _ hsends => exact Or.inl hsends
  | refused _ _ _ _ _ hsends => exact Or.inl hsends
  | sent r _ _ _ _ _ _ _ _ hsends => exact Or.inr ⟨r, hsends⟩

theorem Move.newSend {x y : Situation Q σ} (h : Move model cfg x y) (hx : SeedInv x)
    (hw : y.state.hist.wrapped = false) {r : SendRecord}
    (hr : y.state.hist.sends = x.state.hist.sends ++ [r]) : NewSend cfg x y r := by
  have hother : y.state.hist.sends ≠ x.state.hist.sends := by simp [hr]
  cases h.counterStep r.asked.src with
  | same hsends => exact absurd hsends hother
  | registered hsends => exact absurd hsends hother
  | rewound _ hsends => exact absurd hsends hother
  | refused _ _ _ _ _ hsends => exact absurd hsends hother
  | sent r' ev u n k w hst hev hrank hsends hwraps hn =>
      rw [hr, List.append_cancel_left_eq, List.singleton_inj] at hsends
      subst hsends
      rw [hwraps, Bool.or_eq_false_iff] at hw
      rw [if_pos rfl] at hn
      have hnext : (y.state.ctx r.asked.src).nextUid = u := congrArg Prod.fst hn
      refine ⟨hr, hrank, ?_, ?_, fun huid => ?_, fun huid => ?_, ?_, fun hseq => ?_, fun htarget => ?_⟩
      · rw [hev, stampColor_src, hst.frame]
      · rw [hev, stampColor_isAnti, hst.frame]
      · have hne := hst.uid_wraps hw.2 huid
        obtain ⟨huid', hu⟩ := hst.uid_auto huid
        rw [hnext, hev, stampColor_eq]
        exact ⟨hst.registered (Or.inl huid), huid', by grind⟩
      · rw [hev, stampColor_eq]
        exact (hst.uid_given huid).1
      · rw [hev, stampColor_ts]
        exact hst.sequence_ne_zero (hx.ctx _).normal
      · rw [hev, stampColor_ts]
        exact (hst.sequence_given hseq).1
      · rw [hev, stampColor_dst]
        exact hst.untargeted htarget

theorem Move.numbered {x y : Situation Q σ} (h : Move model cfg x y) (hseed : SeedInv x)
    (hx : Numbered cfg x.state) (hw : y.state.hist.wrapped = false) (huids : UidsOpen y.state.hist.sends) :
    Numbered cfg y.state := by
  have hold : ∀ r ∈ x.state.hist.sends, r.Positive →
      r.ev.src ∈ y.state.lpIds ∧ r.ev.uid < (y.state.ctx r.ev.src).nextUid := by
    intro r hr hpos
    obtain ⟨hsrc, hlt⟩ := hx.below r hr hpos
    exact ⟨h.lpIds_subset hsrc, UInt64.lt_of_lt_of_le hlt ((h.counterStep _).uid_mono hw hsrc)⟩
  rcases (h.counterStep 0).sends_cases with hsends | ⟨new, hsends⟩
  · exact ⟨by rwa [hsends], by rw [hsends]; exact hx.sequence, by rw [hsends]; exact hx.routed⟩
  · have hnew := h.newSend hseed hw hsends
    rw [hsends] at huids
    refine ⟨fun r hr hpos => ?_, fun r hr hpos => ?_, fun r hr => ?_⟩
    · rw [hsends] at hr
      rcases List.mem_append.mp hr with hr | hr
      · exact hold r hr hpos
      · obtain rfl := List.mem_singleton.mp hr
        obtain ⟨hsrc, -, hlt⟩ := hnew.auto (huids r (by simp) hpos)
        rw [hnew.src]
        exact ⟨h.lpIds_subset hsrc, hlt⟩
    · rw [hsends] at hr
      rcases List.mem_append.mp hr with hr | hr
      · exact hx.sequence r hr hpos
      · rw [List.mem_singleton.mp hr]
        exact hnew.sequence
    · rw [hsends] at hr
      rcases List.mem_append.mp hr with hr | hr
      · exact hx.routed r hr
      · rw [List.mem_singleton.mp hr]
        exact hnew.rank

/-! ## Anti-messages -/

/-- What a rollback still owes an anti-message for is the last event that is outstanding. -/
theorem SentLogInv.last_outstanding {x : Situation Q σ} (h : SentLogInv cfg x) {i : LPId} {sent : SentRecord}
    {owed : List (LPId × SentRecord)} (howed : x.owed = (i, sent) :: owed) :
    ∃ rest p, outstanding i x.state.hist.sends = rest ++ [p] ∧ p.entry i = sent ∧ sent.Annullable cfg := by
  obtain ⟨id, log, howes, pre, hpre⟩ := h.owes
  rw [howed] at howes
  cases log with
  | nil => cases howes
  | cons head tail =>
      cases (List.cons.inj howes).1
      have hlogged := h.logged i
      rw [List.reverse_cons, ← List.append_assoc] at hpre
      obtain ⟨gone, hgone⟩ := hlogged
      rw [← hpre, ← List.append_assoc] at hgone
      obtain ⟨rest, last, hsplit, -, hlast⟩ := List.map_eq_append_iff.mp hgone.symm
      obtain ⟨p, rfl, hp⟩ := List.map_eq_singleton_iff.mp hlast
      exact ⟨rest, p, hsplit, hp, h.loggable i sent (by simp [← hpre])⟩

/-- The anti-message of a rollback is for the last event that is outstanding. -/
theorem NewSend.cancels {x y : Situation Q σ} {r p : SendRecord} (h : NewSend cfg x y r)
    (hnum : Numbered cfg x.state) (hp : p ∈ x.state.hist.sends) {i : LPId} (hmine : p.Mine i)
    (hannul : (p.entry i).Annullable cfg) (hasked : r.asked = antiOf i (p.entry i)) : r.Cancels p := by
  have huid : r.asked.uid ≠ 0 := by
    rw [hasked]
    exact hannul.1
  have hseq : r.asked.ts.sequence ≠ 0 := by
    rw [hasked]
    exact hnum.sequence p hp hmine.positive
  have hdst : r.ev.dst = p.ev.dst := by
    have hroute := h.dst (by rw [hasked]; rfl)
    rw [hroute, hasked]
    rfl
  refine ⟨?_, hmine.positive, ?_, hdst, ?_, ?_⟩
  · rw [h.isAnti, hasked]
    rfl
  · simp only [Event.uidKey, UidKey.mk.injEq]
    rw [h.src, h.given huid, hasked]
    exact ⟨hmine.1.symm, rfl⟩
  · rw [h.ts hseq, hasked]
    rfl
  · rw [h.rank, hnum.routed p hp, hdst]

theorem Move.paired {x y : Situation Q σ} (h : Move model cfg x y) (hb : BooksInv x) (hlog : SentLogInv cfg x)
    (hseed : SeedInv x) (hnum : Numbered cfg x.state) (hx : Paired x.state.hist.sends)
    (hw : y.state.hist.wrapped = false) (huids : UidsOpen y.state.hist.sends) : Paired y.state.hist.sends := by
  rcases (h.counterStep 0).sends_cases with hsends | ⟨r, hsends⟩
  · rwa [hsends]
  have hnew := h.newSend hseed hw hsends
  have hother : y.state.hist.sends ≠ x.state.hist.sends := by simp [hsends]
  by_cases hcause : r.Undoes
  · obtain ⟨i, hi⟩ := hcause
    cases h.logStep hb i with
    | same heq => exact absurd heq hother
    | registered heq => exact absurd heq hother
    | sent r' heq hne =>
        rw [hsends, List.append_cancel_left_eq, List.singleton_inj] at heq
        exact absurd (heq ▸ hi) hne
    | other r' heq hne =>
        rw [hsends, List.append_cancel_left_eq, List.singleton_inj] at heq
        exact absurd (heq ▸ hi) hne
    | annulled r' sent owed heq _ hasked howed =>
        rw [hsends, List.append_cancel_left_eq, List.singleton_inj] at heq
        subst heq
        obtain ⟨rest, p, hout, rfl, hannul⟩ := hlog.last_outstanding howed
        obtain ⟨hp, hmine⟩ := hx.outstanding_mine (i := i) (r := p) (by simp [hout])
        rw [hsends]
        refine hx.annulled hi hout hasked ?_ (hnew.cancels hnum hp hmine hannul hasked)
        rw [hnew.src, hasked]
        rfl
  · rw [hsends] at huids ⊢
    by_cases hpos : r.Positive
    · refine hx.sent hcause hpos fun r' hr' hpos' hkey => ?_
      obtain ⟨hsrc, huid⟩ : r'.ev.src = r.ev.src ∧ r'.ev.uid = r.ev.uid := UidKey.mk.inj hkey
      have hlt := (hnum.below r' hr' hpos').2
      rw [hsrc, huid, hnew.src, (hnew.auto (huids r (by simp) hpos)).2.1] at hlt
      exact UInt64.lt_irrefl _ hlt
    · exact hx.other hcause (by simpa [SendRecord.Positive] using hpos)

/-- What holds of a run without wrapped counters, if its senders leave the uids to the kernel. -/
structure PairingInv (cfg : SimulationConfig) (x : Situation Q σ) : Prop where
  numbered : Numbered cfg x.state
  paired : Paired x.state.hist.sends

theorem GvtMove.numbered {x y : Situation Q σ} (h : GvtMove sound final cfg x y) (hx : Numbered cfg x.state) :
    Numbered cfg y.state := by
  obtain ⟨-, hids, hsends, -⟩ := h.logStep
  refine ⟨fun r hr hpos => ?_, by rw [hsends]; exact hx.sequence, by rw [hsends]; exact hx.routed⟩
  obtain ⟨hsrc, hlt⟩ := hx.below r (hsends ▸ hr) hpos
  refine ⟨hids ▸ hsrc, ?_⟩
  rcases h.ctx_cases r.ev.src with hctx | ⟨gvt, hctx⟩
  · rwa [hctx]
  · rwa [hctx]

theorem AllMoves.pairingInv {x y : Situation Q σ} (h : AllMoves sound final model cfg x y) (hb : BooksInv x)
    (hlog : SentLogInv cfg x) (hseed : SeedInv x) (hx : PairingInv cfg x) (hw : y.state.hist.wrapped = false)
    (huids : UidsOpen y.state.hist.sends) : PairingInv cfg y := by
  induction h with
  | refl => exact hx
  | @tail y z hmoves hm ih =>
      have hext : y.state.hist.Extends z.state.hist := hm.elim Move.extends GvtMove.extends
      have hw' := hext.wrapped hw
      have hy := ih hw' fun r hr => huids r (hext.sends.subset hr)
      rcases hm with hm | hm
      · have hseed' := AllMoves.seedInv hmoves hseed hw'
        exact ⟨hm.numbered hseed' hy.numbered hw huids, hm.paired (AllMoves.booksInv hmoves hb)
          (AllMoves.sentLogInv hmoves hb hlog) hseed' hy.numbered hy.paired hw huids⟩
      · refine ⟨hm.numbered hy.numbered, ?_⟩
        rw [hm.logStep.2.2.1]
        exact hy.paired

theorem pairingInv_create : PairingInv cfg (Simulation.create Q model).atRest :=
  ⟨⟨by simp [Simulation.create, Simulation.atRest], by simp [Simulation.create, Simulation.atRest],
    by simp [Simulation.create, Simulation.atRest]⟩, .nil⟩

/-- In a run without wrapped counters whose senders leave the uids of positive events to the kernel, no
two positive events share source and uid, every anti-message of a rollback is for an event sent before it,
and no two of them are for the same event. -/
theorem antis_match_one_to_one {s : Simulation Q σ} (hs : OnRun model cfg s) (hw : s.hist.wrapped = false)
    (huids : ∀ r ∈ s.hist.sends, r.Positive → r.asked.uid = 0) :
    (s.hist.sends.filter (·.Positive)).Pairwise SendRecord.Apart ∧
      (∀ before anti, before ++ [anti] <+: s.hist.sends → anti.Undoes → ∃ r ∈ before, anti.Cancels r) ∧
      (s.hist.sends.filter (·.Undoes)).Pairwise SendRecord.Apart := by
  have hinv := AllMoves.pairingInv (hs.moves baseInv_create) booksInv_create sentLogInv_create seedInv_create
    pairingInv_create hw huids
  exact ⟨hinv.paired.distinct, hinv.paired.matched, hinv.paired.once⟩

/-- The LP 1 sends an event while it executes one at 5; one at 4 rolls it back, and it sends another event
once the first is cancelled. -/
theorem antis_match_caller :
    (callerRun [.schedule { ts := ⟨4, 1⟩, src := 9, dst := 1, uid := 2 }, .runOne {} false,
        .runOne {} false]).hist.sends.map (fun r => (r.ev.uid, r.ev.isAnti)) =
          [(1, false), (1, true), (2, false)] ∧
      ((callerRun [.schedule { ts := ⟨4, 1⟩, src := 9, dst := 1, uid := 2 }, .runOne {} false,
        .runOne {} false]).hist.sends.filter (·.Positive)).Pairwise SendRecord.Apart :=
  ⟨by decide +kernel, (antis_match_one_to_one (callerRun_onRun _) (by decide +kernel) (by decide +kernel)).1⟩

end WarpSim

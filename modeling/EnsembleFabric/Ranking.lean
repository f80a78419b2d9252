import EnsembleFabric.Arbitration

/-!
# The ranking as a whole

Arbitration reads its candidates in the order of a list, and says nothing
that depends on that order. When the identities are distinct, the eligible
candidates have one sorted order, and everything in the report can be read
off it (`arbitrate_eq`): the ranks count through it, and the selected
candidate is its first, or its second where a tie-break prefers it.

The proof follows the passes of `arbitrate`:

* `foldl_place_zipIdx`: giving out the ranks one after the other is counting
  through the sorted order, since a rank is not touched by later ones.
* `orderRanking_eq`: the pass that reorders puts the eligible candidates in
  front, and leaves the others as they stand.
* `order_of_perm`: the sorted order of comparable candidates is one, since
  what precedes is `Ahead` and candidates neither of which is ahead have one
  identity. This is the step that needs exact scores: on rounded ones a tie
  within a factor is not transitive.

`arbitration_of_candidate_set` then says that the report is a function of
the set of candidates, up to the order of the rankings that are not
eligible, and that it is `WellRanked`.
-/

namespace EnsembleFabric

open Precedence
open Arithmetic (less)

/-! ## Updates in place -/

section Update

variable {α β : Type}

/-- An update of the element a key names, in a list without two of a key. -/
theorem updateFirst_map {g : α → β} {test : β → Bool} {named : α → Prop} [DecidablePred named]
    {change : β → β} {xs : List α} (htest : ∀ x ∈ xs, (test (g x) = true ↔ named x))
    (honce : xs.Pairwise fun x y => named x → ¬ named y) :
    updateFirst test change (xs.map g) = xs.map fun x => if named x then change (g x) else g x := by
  induction xs with
  | nil => rfl
  | cons x xs ih =>
    obtain ⟨hlater, honce⟩ := List.pairwise_cons.mp honce
    rw [List.map_cons, updateFirst, List.map_cons]
    by_cases hx : named x
    · rw [if_pos ((htest x List.mem_cons_self).mpr hx), if_pos hx, List.cons.injEq]
      refine ⟨rfl, List.map_congr_left fun y hy => ?_⟩
      rw [if_neg (hlater y hy hx)]
    · have hnot : ¬ test (g x) = true := fun h => hx ((htest x List.mem_cons_self).mp h)
      rw [if_neg hnot, if_neg hx, ih (fun y hy => htest y (List.mem_cons_of_mem _ hy)) honce]

end Update

variable {ν : Type} [Arithmetic ν]

/-! ## Ranks -/

/-- The candidates have distinct identities. -/
def Distinct (cs : List (ArbitrationCandidateInput ν)) : Prop := (cs.map (·.candidate)).Nodup

theorem Distinct.eq {ν : Type} {cs : List (ArbitrationCandidateInput ν)} (h : Distinct cs)
    {a b : ArbitrationCandidateInput ν} (ha : a ∈ cs) (hb : b ∈ cs)
    (hid : a.candidate = b.candidate) : a = b :=
  List.inj_on_of_nodup_map h ha hb hid

/-- The ranking with a rank for everybody. -/
def rankedBy (inputs : ArbitrationInputs ν) (rank : ArbitrationCandidateInput ν → Int)
    (c : ArbitrationCandidateInput ν) : CandidateRanking ν :=
  { rankCandidate inputs c with rank := rank c }

/-- One rank is given out. -/
def place (rank : ArbitrationCandidateInput ν → Int) (entry : ArbitrationCandidateInput ν × Nat) :
    ArbitrationCandidateInput ν → Int :=
  fun c => if c.candidate = entry.1.candidate then entry.2 + 1 else rank c

theorem foldl_place {inputs : ArbitrationInputs ν} {cs : List (ArbitrationCandidateInput ν)}
    (h : Distinct cs) (order : List (ArbitrationCandidateInput ν × Nat))
    (rank : ArbitrationCandidateInput ν → Int) :
    order.foldl (fun ranking (c, index) =>
        updateFirst (·.candidate == c.candidate) (fun r => { r with rank := index + 1 }) ranking)
      (cs.map (rankedBy inputs rank))
      = cs.map (rankedBy inputs (order.foldl place rank)) := by
  induction order generalizing rank with
  | nil => rfl
  | cons entry order ih =>
    rw [List.foldl_cons, List.foldl_cons, ← ih]
    congr 1
    have honce : cs.Pairwise fun x y => x.candidate = entry.1.candidate →
        ¬ y.candidate = entry.1.candidate :=
      (List.pairwise_map.mp h).imp fun hne hx hy => hne (hx.trans hy.symm)
    have htest : ∀ c ∈ cs, ((rankedBy inputs rank c).candidate == entry.1.candidate) = true
        ↔ c.candidate = entry.1.candidate := fun c _ => beq_iff_eq
    have hupdate : updateFirst (·.candidate == entry.1.candidate)
        (fun r => { r with rank := entry.2 + 1 }) (cs.map (rankedBy inputs rank))
        = cs.map fun c => if c.candidate = entry.1.candidate then
            { rankedBy inputs rank c with rank := entry.2 + 1 } else rankedBy inputs rank c :=
      updateFirst_map htest honce
    refine hupdate.trans (List.map_congr_left fun c _ => ?_)
    unfold rankedBy place
    split <;> rfl

/-- A rank is not touched by places for others. -/
theorem foldl_place_of_not_mem {ν : Type} {order : List (ArbitrationCandidateInput ν × Nat)}
    {rank : ArbitrationCandidateInput ν → Int} {c : ArbitrationCandidateInput ν}
    (h : ∀ entry ∈ order, entry.1.candidate ≠ c.candidate) :
    order.foldl place rank c = rank c := by
  induction order generalizing rank with
  | nil => rfl
  | cons entry order ih =>
    rw [List.foldl_cons, ih fun e he => h e (List.mem_cons_of_mem _ he), place,
      if_neg fun heq => h entry List.mem_cons_self heq.symm]

/-- The ranks count through the order. -/
theorem foldl_place_zipIdx {ν : Type} {cs : List (ArbitrationCandidateInput ν)}
    (h : Distinct cs) (start : Nat)
    (rank : ArbitrationCandidateInput ν → Int) :
    ∀ entry ∈ cs.zipIdx start,
      (cs.zipIdx start).foldl place rank entry.1 = entry.2 + 1 := by
  induction cs generalizing start rank with
  | nil => simp
  | cons c cs ih =>
    obtain ⟨hnew, hrest⟩ := List.nodup_cons.mp h
    intro entry hentry
    rw [List.zipIdx_cons] at hentry ⊢
    rw [List.foldl_cons]
    rcases List.mem_cons.mp hentry with rfl | hentry
    · rw [foldl_place_of_not_mem, place, if_pos rfl]
      intro later hlater heq
      have hmem := List.fst_mem_of_mem_zipIdx hlater
      exact hnew (List.mem_map.mpr ⟨later.1, hmem, heq⟩)
    · exact ih hrest _ _ entry hentry

/-! ## The sorted order -/

theorem Distinct.order {inputs : ArbitrationInputs ν} (h : Distinct inputs.candidates) :
    Distinct inputs.order := by
  have hfilter : Distinct inputs.eligibles :=
    h.sublist (List.Sublist.map _ List.filter_sublist)
  exact ((perm_sortBy _ _).map _).nodup_iff.mpr hfilter

/-- The ranking of the eligible candidates, ranked from 1 on. -/
def rankedOrder (inputs : ArbitrationInputs ν) : List (CandidateRanking ν) :=
  inputs.order.zipIdx.map fun (c, index) => { rankCandidate inputs c with rank := index + 1 }

/-- The ranking of the others. -/
def unranked (inputs : ArbitrationInputs ν) : List (CandidateRanking ν) :=
  (inputs.candidates.filter fun c => !(inputs.eligibility c).eligible).map (rankCandidate inputs)

/-- The reordering pass: the eligible candidates in order, then the others. -/
theorem orderRanking_eq {inputs : ArbitrationInputs ν} (h : Distinct inputs.candidates) :
    orderRanking inputs.order (inputs.candidates.map (rankCandidate inputs))
      = rankedOrder inputs ++ unranked inputs := by
  let rank := inputs.order.zipIdx.foldl place fun _ => -1
  have hranked : inputs.order.zipIdx.foldl (fun ranking (c, index) =>
        updateFirst (·.candidate == c.candidate) (fun r => { r with rank := index + 1 }) ranking)
      (inputs.candidates.map (rankCandidate inputs))
      = inputs.candidates.map (rankedBy inputs rank) :=
    foldl_place h inputs.order.zipIdx fun _ => -1
  have heligible : ∀ c, (rankedBy inputs rank c).eligible = (inputs.eligibility c).eligible :=
    fun _ => rfl
  rw [orderRanking, hranked]
  congr 1
  · -- every eligible candidate is found under its own identity
    have hfind : ∀ c ∈ inputs.order, (inputs.candidates.map (rankedBy inputs rank)).find?
        (fun r => r.candidate == c.candidate && r.eligible) = some (rankedBy inputs rank c) := by
      intro c hc
      obtain ⟨hmem, hc⟩ := mem_order.mp hc
      rw [List.find?_map]
      have hself : inputs.candidates.find? ((fun r : CandidateRanking ν =>
          r.candidate == c.candidate && r.eligible) ∘ rankedBy inputs rank) = some c := by
        cases hfound : inputs.candidates.find? ((fun r : CandidateRanking ν =>
            r.candidate == c.candidate && r.eligible) ∘ rankedBy inputs rank) with
        | none =>
          have hnone := List.find?_eq_none.mp hfound c hmem
          simp [hc, rankedBy, rankCandidate] at hnone
        | some d =>
          have hd := List.find?_some hfound
          simp only [Function.comp, Bool.and_eq_true, beq_iff_eq] at hd
          rw [h.eq (List.mem_of_find?_eq_some hfound) hmem hd.1]
      rw [hself, Option.map_some]
    have hplaced := foldl_place_zipIdx h.order 0 fun _ => -1
    have hnames : inputs.order.map (rankedBy inputs rank)
        = inputs.order.zipIdx.map (rankedBy inputs rank ∘ Prod.fst) := by
      rw [← List.map_map, List.zipIdx_map_fst]
    rw [rankedOrder, List.filterMap_congr hfind, List.filterMap_eq_map', hnames]
    refine List.map_congr_left fun entry hentry => ?_
    rw [Function.comp, rankedBy, show rank entry.1 = entry.2 + 1 from hplaced entry hentry]
  · -- the others keep their place, and have no rank
    rw [unranked, List.filter_map]
    refine List.map_congr_left fun c hc => ?_
    obtain ⟨hmem, hc⟩ := List.mem_filter.mp hc
    rw [rankedBy, show rank c = -1 from foldl_place_of_not_mem fun entry hentry heq => ?_]
    · rfl
    · have horder := mem_order.mp (List.fst_mem_of_mem_zipIdx hentry)
      rw [h.eq horder.1 hmem heq] at horder
      simp [heligible, horder.2] at hc

/-! ## The selected candidate -/

/-- Who is selected from an order: its first, or its second where the two tie
and the tie-break prefers it. -/
def chosen (policy : ArbitrationPolicy) :
    List (ArbitrationCandidateInput ν) → Option (ArbitrationCandidateInput ν)
  | [] => none
  | [winner] => some winner
  | winner :: second :: others =>
      if topTie policy.factors (winner :: second :: others) then
        if policy.tieBreak = .reportTie then none
        else if prefersSecond policy.tieBreak winner second then some second
        else some winner
      else some winner

/-- The ranking of the selected candidate is marked. -/
def mark (selected : Option (ArbitrationCandidateInput ν)) (r : CandidateRanking ν) :
    CandidateRanking ν :=
  if selected.map (·.candidate) = some r.candidate then { r with selected := true } else r

/-- The rankings before anybody is selected. -/
def rankings (inputs : ArbitrationInputs ν) : List (CandidateRanking ν) :=
  rankedOrder inputs ++ unranked inputs

theorem rankedOrder_candidates (inputs : ArbitrationInputs ν) :
    (rankedOrder inputs).map (·.candidate) = inputs.order.map (·.candidate) := by
  have hnames : inputs.order.map (·.candidate)
      = inputs.order.zipIdx.map ((·.candidate) ∘ Prod.fst) := by
    rw [← List.map_map, List.zipIdx_map_fst]
  rw [rankedOrder, hnames, List.map_map]
  rfl

theorem unranked_candidates (inputs : ArbitrationInputs ν) :
    (unranked inputs).map (·.candidate)
      = (inputs.candidates.filter fun c => !(inputs.eligibility c).eligible).map (·.candidate) := by
  rw [unranked, List.map_map]
  rfl

theorem rankings_candidates (inputs : ArbitrationInputs ν) :
    ((rankings inputs).map (·.candidate)).Perm (inputs.candidates.map (·.candidate)) := by
  have hsplit : (inputs.order ++ inputs.candidates.filter fun c =>
      !(inputs.eligibility c).eligible).Perm inputs.candidates :=
    ((perm_sortBy _ _).append_right _).trans (List.filter_append_perm _ _)
  rw [rankings, List.map_append, rankedOrder_candidates, unranked_candidates, ← List.map_append]
  exact hsplit.map _

theorem mem_rankedOrder {inputs : ArbitrationInputs ν} {r : CandidateRanking ν}
    (h : r ∈ rankedOrder inputs) : r.eligible = true := by
  obtain ⟨⟨c, index⟩, hmem, rfl⟩ := List.mem_map.mp h
  exact (mem_order.mp (List.fst_mem_of_mem_zipIdx hmem)).2

theorem mem_unranked {inputs : ArbitrationInputs ν} {r : CandidateRanking ν}
    (h : r ∈ unranked inputs) : r.eligible = false := by
  obtain ⟨c, hmem, rfl⟩ := List.mem_map.mp h
  have hout : (inputs.eligibility c).eligible = false := by simpa using (List.mem_filter.mp hmem).2
  exact hout

/-- A ranking under the identity of an eligible candidate is eligible. -/
theorem rankings_eligible {inputs : ArbitrationInputs ν} (h : Distinct inputs.candidates)
    {c : ArbitrationCandidateInput ν} (hc : c ∈ inputs.order) {r : CandidateRanking ν}
    (hr : r ∈ rankings inputs) (hid : r.candidate = c.candidate) : r.eligible = true := by
  rcases List.mem_append.mp hr with hranked | hunranked
  · exact mem_rankedOrder hranked
  · obtain ⟨d, hmem, rfl⟩ := List.mem_map.mp hunranked
    obtain ⟨hd, hd'⟩ := List.mem_filter.mp hmem
    have hc' := mem_order.mp hc
    rw [h.eq hd hc'.1 hid, hc'.2] at hd'
    cases hd'

theorem rankings_distinct {inputs : ArbitrationInputs ν} (h : Distinct inputs.candidates) :
    (rankings inputs).Pairwise fun r r' => r.candidate ≠ r'.candidate :=
  List.pairwise_map.mp ((rankings_candidates inputs).nodup_iff.mpr h)

theorem selectFirst_marks {inputs : ArbitrationInputs ν} (h : Distinct inputs.candidates)
    {c : ArbitrationCandidateInput ν} (hc : c ∈ inputs.order) :
    updateFirst (fun r => r.candidate == c.candidate && r.eligible)
        (fun r => { r with selected := true }) (rankings inputs)
      = (rankings inputs).map (mark (some c)) := by
  have htest : ∀ r ∈ rankings inputs, (r.candidate == c.candidate && r.eligible) = true
      ↔ c.candidate = r.candidate := by
    intro r hr
    simp only [Bool.and_eq_true, beq_iff_eq]
    exact ⟨fun hboth => hboth.1.symm, fun hid => ⟨hid.symm, rankings_eligible h hc hr hid.symm⟩⟩
  have honce : (rankings inputs).Pairwise fun r r' => c.candidate = r.candidate →
      ¬ c.candidate = r'.candidate :=
    (rankings_distinct h).imp fun hne hr hr' => hne (hr.symm.trans hr')
  have hupdate : updateFirst (fun r => r.candidate == c.candidate && r.eligible)
      (fun r => { r with selected := true }) ((rankings inputs).map id)
      = (rankings inputs).map fun r => if c.candidate = r.candidate then
          { r with selected := true } else r :=
    updateFirst_map htest honce
  rw [List.map_id] at hupdate
  refine hupdate.trans (List.map_congr_left fun r _ => ?_)
  simp [mark]

theorem selectSecond_marks {ν : Type} {ranking : List (CandidateRanking ν)}
    (c : ArbitrationCandidateInput ν) :
    ranking.map (fun r => if r.candidate == c.candidate then { r with selected := true } else r)
      = ranking.map (mark (some c)) := by
  refine List.map_congr_left fun r _ => ?_
  unfold mark
  by_cases hid : r.candidate = c.candidate
  · have hsame : (some c).map (·.candidate) = some r.candidate := congrArg some hid.symm
    rw [if_pos (beq_iff_eq.mpr hid), if_pos hsame]
  · have hother : ¬ (some c).map (·.candidate) = some r.candidate :=
      fun heq => hid (Option.some.inj heq).symm
    rw [if_neg (fun heq => hid (beq_iff_eq.mp heq)), if_neg hother]

/-- The report before anybody is ranked or selected. -/
def unselected (inputs : ArbitrationInputs ν) (ranking : List (CandidateRanking ν)) :
    ArbitrationReport ν where
  ensembleGeneration := inputs.ensembleGeneration
  coordinatorEpoch := inputs.coordinatorEpoch
  computedSequence := inputs.sequence
  tieBreak := inputs.policy.tieBreak
  factorOrder := inputs.policy.factors
  ranking
  considered := inputs.candidates.length
  eliminated := ((inputs.candidates.map (rankCandidate inputs)).filter (!·.eligible)).length

theorem arbitrate_of_order (inputs : ArbitrationInputs ν) :
    arbitrate inputs = match inputs.order with
      | [] =>
          { unselected inputs (inputs.candidates.map (rankCandidate inputs)) with
            noEligibleCandidate := true
            notes := ["no candidate satisfied hard eligibility"] }
      | winner :: others =>
          selectWinner inputs.policy
            (unselected inputs (orderRanking (winner :: others)
              (inputs.candidates.map (rankCandidate inputs)))) winner others :=
  rfl

/-- The report, read off the sorted order. -/
theorem arbitrate_eq {inputs : ArbitrationInputs ν} (h : Distinct inputs.candidates) :
    (arbitrate inputs).ranking
        = (rankings inputs).map (mark (chosen inputs.policy inputs.order))
      ∧ (arbitrate inputs).selected
        = ((chosen inputs.policy inputs.order).map (·.candidate)).getD {}
      ∧ (arbitrate inputs).noEligibleCandidate = inputs.order.isEmpty
      ∧ (arbitrate inputs).tieUnresolved
        = (!inputs.order.isEmpty && (chosen inputs.policy inputs.order).isNone) := by
  have hranking := orderRanking_eq h
  have hmarked : ∀ {c}, c ∈ inputs.order → _ := selectFirst_marks h
  have hunmarked : (rankings inputs).map (mark none) = rankings inputs :=
    (List.map_congr_left fun r _ => by simp [mark]).trans (List.map_id _)
  rw [arbitrate_of_order]
  cases horder : inputs.order with
  | nil =>
    have hnone : ∀ c ∈ inputs.candidates, (inputs.eligibility c).eligible = false := by
      intro c hc
      by_contra heligible
      have hmem := mem_order.mpr ⟨hc, by simpa using heligible⟩
      rw [horder] at hmem
      cases hmem
    refine ⟨?_, rfl, rfl, rfl⟩
    rw [chosen, hunmarked, rankings, rankedOrder, horder, unranked, List.filter_eq_self.mpr]
    · rfl
    · intro c hc
      rw [hnone c hc]
      rfl
  | cons winner others =>
    rw [horder] at hranking hmarked
    simp only [hranking]
    have hwinner := hmarked List.mem_cons_self
    cases others with
    | nil => exact ⟨hwinner, rfl, rfl, rfl⟩
    | cons second rest =>
      by_cases htie : topTie inputs.policy.factors (winner :: second :: rest) = true
      · cases hbreak : inputs.policy.tieBreak with
        | reportTie =>
          simp only [selectWinner, chosen, htie, hbreak, if_true]
          exact ⟨hunmarked.symm, rfl, rfl, rfl⟩
        | lowestCandidateId =>
          simp only [selectWinner, chosen, htie, hbreak, if_true, prefersSecond, if_false,
            reduceCtorEq, Bool.false_eq_true]
          exact ⟨hwinner, rfl, rfl, rfl⟩
        | highestScoreThenId =>
          simp only [selectWinner, chosen, htie, hbreak, if_true, prefersSecond, if_false,
            reduceCtorEq]
          split
          · exact ⟨selectSecond_marks second, rfl, rfl, rfl⟩
          · exact ⟨hwinner, rfl, rfl, rfl⟩
        | preferRequiredParticipant =>
          simp only [selectWinner, chosen, htie, hbreak, if_true, prefersSecond, if_false,
            reduceCtorEq]
          split
          · exact ⟨selectSecond_marks second, rfl, rfl, rfl⟩
          · exact ⟨hwinner, rfl, rfl, rfl⟩
      · simp only [selectWinner, chosen, htie, if_false, Bool.false_eq_true]
        exact ⟨hwinner, rfl, rfl, rfl⟩

/-! ## Independence of the input order -/

/-- A factor is better. -/
def Better (factor : ArbitrationFactor) (a b : ArbitrationCandidateInput ν) : Prop :=
  if higherIsBetter factor then less (factorValue factor b) (factorValue factor a) = true
  else less (factorValue factor a) (factorValue factor b) = true

/-- The lexicographic order: the first factor on which two candidates differ
decides, and the identity where they differ on none. -/
def Ahead (factors : List ArbitrationFactor) (a b : ArbitrationCandidateInput ν) : Prop :=
  (∃ before factor after, factors = before ++ factor :: after
      ∧ (∀ f ∈ before, factorTies f a b = true) ∧ Better factor a b)
    ∨ ((∀ f ∈ factors, factorTies f a b = true) ∧ a.candidate.value < b.candidate.value)

theorem factorPrecedes_better {factor : ArbitrationFactor} {a b : ArbitrationCandidateInput ν}
    (h : factorPrecedes factor a b = true) : Better factor a b := by
  simp only [factorPrecedes] at h
  unfold Better
  split at h
  · cases h
  · split at h
    · rename_i hhigher
      rw [if_pos hhigher]
      exact h
    · rename_i hhigher
      rw [if_neg hhigher]
      exact h

/-- What precedes in the sort is ahead. -/
theorem ahead_of_precedes {factors : List ArbitrationFactor} {a b : ArbitrationCandidateInput ν}
    (h : rankPrecedes factors a b = true) : Ahead factors a b := by
  induction factors with
  | nil => exact .inr ⟨List.forall_mem_nil _, of_decide_eq_true h⟩
  | cons factor rest ih =>
    rw [rankPrecedes] at h
    by_cases hties : factorTies factor a b = true
    · rw [if_pos hties] at h
      rcases ih h with ⟨before, decisive, after, rfl, hbefore, hbetter⟩ | ⟨hrest, hid⟩
      · refine .inl ⟨factor :: before, decisive, after, rfl, fun f hf => ?_, hbetter⟩
        rcases List.mem_cons.mp hf with rfl | hf
        · exact hties
        · exact hbefore f hf
      · refine .inr ⟨fun f hf => ?_, hid⟩
        rcases List.mem_cons.mp hf with rfl | hf
        · exact hties
        · exact hrest f hf
    · rw [if_neg hties] at h
      exact .inl ⟨[], factor, rest, rfl, List.forall_mem_nil _, factorPrecedes_better h⟩

/-- Candidates that neither order puts first have one identity. -/
theorem eq_of_not_lex {factors : List ArbitrationFactor} {a b : ArbitrationCandidateInput ν}
    (hab : lexPrecedes rankKey (fun c => (c.candidate.value.toNat : Rat)) factors a b = false)
    (hba : lexPrecedes rankKey (fun c => (c.candidate.value.toNat : Rat)) factors b a = false) :
    a.candidate = b.candidate := by
  induction factors with
  | nil =>
    simp only [lexPrecedes, decide_eq_false_iff_not, not_lt, Nat.cast_le] at hab hba
    have hvalue : a.candidate.value = b.candidate.value :=
      UInt64.toNat_inj.mp (le_antisymm hba hab)
    exact congrArg StrongId.mk hvalue
  | cons factor rest ih =>
    unfold lexPrecedes at hab hba
    by_cases hkey : rankKey factor a = rankKey factor b
    · rw [if_pos hkey] at hab
      rw [if_pos hkey.symm] at hba
      exact ih hab hba
    · rw [if_neg hkey, decide_eq_false_iff_not, not_lt] at hab
      rw [if_neg (Ne.symm hkey), decide_eq_false_iff_not, not_lt] at hba
      exact absurd (le_antisymm hba hab) hkey

theorem order_pairwise {inputs : ArbitrationInputs ν} (h : Distinct inputs.candidates)
    (hcomparable : Comparable inputs) :
    inputs.order.Pairwise (Ahead inputs.policy.factors) := by
  have hsorted : inputs.order.Pairwise fun a b =>
      lexPrecedes rankKey (fun c => (c.candidate.value.toNat : Rat)) inputs.policy.factors b a
        = false := by
    rw [order_eq_lex hcomparable]
    exact sortBy_pairwise (lexPrecedes_strictWeak _ _ _) _
  refine (hsorted.and (List.pairwise_map.mp h.order)).imp_of_mem fun ha hb ⟨hnot, hne⟩ => ?_
  have hmeasured := hcomparable _ (mem_eligibles.mpr (mem_order.mp ha))
  have hmeasured' := hcomparable _ (mem_eligibles.mpr (mem_order.mp hb))
  refine ahead_of_precedes ?_
  rw [rankPrecedes_eq_lex hmeasured hmeasured']
  by_contra hprecedes
  exact hne (eq_of_not_lex (by simpa using hprecedes) hnot)

/-- Comparable candidates have one order, however they are listed. -/
theorem order_of_perm {inputs : ArbitrationInputs ν} (h : Distinct inputs.candidates)
    (hcomparable : Comparable inputs) {candidates : List (ArbitrationCandidateInput ν)}
    (hperm : candidates.Perm inputs.candidates) :
    ArbitrationInputs.order { inputs with candidates } = inputs.order := by
  have hdistinct : Distinct candidates := (hperm.map _).nodup_iff.mpr h
  have hcomparable' : Comparable { inputs with candidates } :=
    fun c hc => hcomparable c ((hperm.filter _).mem_iff.mp hc)
  rw [order_eq_lex hcomparable, order_eq_lex hcomparable']
  refine sortBy_eq_of_perm (lexPrecedes_strictWeak _ _ _) (hperm.filter _) ?_
  intro a ha b hb hab hba
  exact hdistinct.eq (List.mem_filter.mp ha).1 (List.mem_filter.mp hb).1 (eq_of_not_lex hab hba)

theorem selectWinner_unranked (policy : ArbitrationPolicy) (report : ArbitrationReport ν)
    (winner : ArbitrationCandidateInput ν) (others : List (ArbitrationCandidateInput ν)) :
    ({ selectWinner policy report winner others with ranking := [] } : ArbitrationReport ν)
      = { selectWinner policy { report with ranking := [] } winner others with ranking := [] } := by
  unfold selectWinner
  cases others with
  | nil => rfl
  | cons second rest =>
    simp only
    split
    · cases policy.tieBreak with
      | reportTie | lowestCandidateId => rfl
      | highestScoreThenId | preferRequiredParticipant =>
        simp only
        split <;> rfl
    · rfl

/-- The report is well ranked: the eligible candidates carry the ranks from 1
on, each ahead of those behind it, one candidate at most is selected, and
every candidate is counted. -/
structure WellRanked (inputs : ArbitrationInputs ν) (report : ArbitrationReport ν) : Prop where
  ranks : ∃ order : List (ArbitrationCandidateInput ν), order.Perm inputs.eligibles
    ∧ order.Pairwise (Ahead inputs.policy.factors)
    ∧ (report.ranking.filter (·.eligible)).map (fun r => (r.candidate, r.rank))
      = order.zipIdx.map fun (c, index) => (c.candidate, (index : Int) + 1)
  once : (report.ranking.filter (·.selected)).length ≤ 1
  selected : ∀ r ∈ report.ranking, r.selected = true →
    r.eligible = true ∧ r.candidate = report.selected
  counted : report.considered = (report.ranking.filter (·.eligible)).length + report.eliminated

theorem filter_rankings_eligible (inputs : ArbitrationInputs ν) :
    (rankings inputs).filter (·.eligible) = rankedOrder inputs := by
  rw [rankings, List.filter_append, List.filter_eq_self.mpr fun r hr => mem_rankedOrder hr,
    List.filter_eq_nil_iff.mpr fun r hr => by simp [mem_unranked hr], List.append_nil]

@[simp] theorem mark_candidate {ν : Type} (w : Option (ArbitrationCandidateInput ν))
    (r : CandidateRanking ν) :
    (mark w r).candidate = r.candidate := by
  unfold mark
  split <;> rfl

@[simp] theorem mark_eligible {ν : Type} (w : Option (ArbitrationCandidateInput ν))
    (r : CandidateRanking ν) :
    (mark w r).eligible = r.eligible := by
  unfold mark
  split <;> rfl

@[simp] theorem mark_rank {ν : Type} (w : Option (ArbitrationCandidateInput ν))
    (r : CandidateRanking ν) :
    (mark w r).rank = r.rank := by
  unfold mark
  split <;> rfl

/-- Nobody is selected before the selection. -/
theorem rankings_unselected {inputs : ArbitrationInputs ν} {r : CandidateRanking ν}
    (h : r ∈ rankings inputs) : r.selected = false := by
  rcases List.mem_append.mp h with hranked | hunranked
  · obtain ⟨⟨c, index⟩, -, rfl⟩ := List.mem_map.mp hranked
    rfl
  · obtain ⟨c, -, rfl⟩ := List.mem_map.mp hunranked
    rfl

/-- A marked ranking is the one of the selected candidate. -/
theorem mark_selected {inputs : ArbitrationInputs ν} {w : Option (ArbitrationCandidateInput ν)}
    {r : CandidateRanking ν} (h : r ∈ rankings inputs) (hmark : (mark w r).selected = true) :
    ∃ c, w = some c ∧ r.candidate = c.candidate := by
  unfold mark at hmark
  split at hmark
  · rename_i hid
    obtain ⟨c, rfl, hc⟩ := Option.map_eq_some_iff.mp hid
    exact ⟨c, rfl, hc.symm⟩
  · rw [rankings_unselected h] at hmark
    cases hmark

theorem chosen_mem {policy : ArbitrationPolicy} {order : List (ArbitrationCandidateInput ν)}
    {c : ArbitrationCandidateInput ν} (h : chosen policy order = some c) : c ∈ order := by
  match order with
  | [] => cases h
  | [winner] => exact List.mem_singleton.mpr (Option.some.inj h).symm
  | winner :: second :: others =>
    have hfirst : ∀ {c}, some winner = some c → c ∈ winner :: second :: others :=
      fun h => Option.some.inj h ▸ List.mem_cons_self
    have hsecond : ∀ {c}, some second = some c → c ∈ winner :: second :: others :=
      fun h => Option.some.inj h ▸ List.mem_cons_of_mem _ List.mem_cons_self
    rw [chosen] at h
    split at h
    · split at h
      · cases h
      · split at h
        · exact hsecond h
        · exact hfirst h
    · exact hfirst h

theorem arbitrate_wellRanked {inputs : ArbitrationInputs ν} (h : Distinct inputs.candidates)
    (hcomparable : Comparable inputs) : WellRanked inputs (arbitrate inputs) := by
  obtain ⟨hranking, hselected, -, -⟩ := arbitrate_eq h
  have hmarked : ∀ w, ((rankings inputs).map (mark w)).filter (·.eligible)
      = (rankedOrder inputs).map (mark w) := by
    intro w
    rw [List.filter_map, ← filter_rankings_eligible]
    congr 2
    funext r
    exact mark_eligible w r
  have hbase : (arbitrate inputs).considered = inputs.candidates.length
      ∧ (arbitrate inputs).eliminated
        = ((inputs.candidates.map (rankCandidate inputs)).filter (!·.eligible)).length := by
    rw [arbitrate_of_order]
    split
    · exact ⟨rfl, rfl⟩
    · unfold selectWinner
      repeat' split
      all_goals exact ⟨rfl, rfl⟩
  refine ⟨⟨inputs.order, perm_sortBy _ _, order_pairwise h hcomparable, ?_⟩, ?_, ?_, ?_⟩
  · rw [hranking, hmarked, List.map_map, rankedOrder, List.map_map]
    refine List.map_congr_left fun entry _ => ?_
    simp only [Function.comp, mark_candidate, mark_rank]
    rfl
  · -- two marked rankings would be of one identity
    rw [hranking]
    have honce : (((rankings inputs).map (mark (chosen inputs.policy inputs.order))).filter
        (·.selected)).Pairwise fun _ _ => False := by
      rw [List.filter_map, List.pairwise_map]
      refine List.Pairwise.imp_of_mem ?_
        (List.Pairwise.sublist List.filter_sublist (rankings_distinct h))
      intro r r' hr hr' hne
      obtain ⟨hmem, hsel⟩ := List.mem_filter.mp hr
      obtain ⟨hmem', hsel'⟩ := List.mem_filter.mp hr'
      obtain ⟨c, hc, hid⟩ := mark_selected hmem hsel
      obtain ⟨c', hc', hid'⟩ := mark_selected hmem' hsel'
      obtain rfl := Option.some.inj (hc.symm.trans hc')
      exact hne (hid.trans hid'.symm)
    generalize ((rankings inputs).map (mark (chosen inputs.policy inputs.order))).filter
      (·.selected) = marked at honce ⊢
    match marked, honce with
    | [], _ => exact Nat.zero_le 1
    | [r], _ => exact le_refl 1
    | r :: r' :: rest, honce =>
      exact ((List.pairwise_cons.mp honce).1 r' List.mem_cons_self).elim
  · intro r hr hsel
    rw [hranking] at hr
    obtain ⟨r, hmem, rfl⟩ := List.mem_map.mp hr
    obtain ⟨c, hc, hid⟩ := mark_selected hmem hsel
    rw [mark_eligible, mark_candidate, hselected, hc]
    exact ⟨rankings_eligible h (chosen_mem hc) hmem hid, hid⟩
  · have hranked : (rankedOrder inputs).length = inputs.eligibles.length := by
      rw [rankedOrder, List.length_map, List.length_zipIdx, ArbitrationInputs.order,
        (perm_sortBy _ _).length_eq]
    have heliminated : ((inputs.candidates.map (rankCandidate inputs)).filter
        (!·.eligible)).length
        = (inputs.candidates.filter fun c => !(inputs.eligibility c).eligible).length := by
      rw [List.filter_map, List.length_map]
      rfl
    have hsplit := (List.filter_append_perm (fun c => (inputs.eligibility c).eligible)
      inputs.candidates).length_eq
    rw [List.length_append] at hsplit
    rw [hbase.1, hbase.2, hranking, hmarked, List.length_map, hranked, heliminated,
      ArbitrationInputs.eligibles, hsplit]

/-- Under a permutation of the input only the order of the rankings changes. -/
theorem arbitrate_of_perm {inputs : ArbitrationInputs ν} (h : Distinct inputs.candidates)
    (hcomparable : Comparable inputs) {candidates : List (ArbitrationCandidateInput ν)}
    (hperm : candidates.Perm inputs.candidates) :
    (arbitrate { inputs with candidates }).ranking.Perm (arbitrate inputs).ranking
      ∧ ({ arbitrate { inputs with candidates } with ranking := [] } : ArbitrationReport ν)
        = { arbitrate inputs with ranking := [] } := by
  have hdistinct : Distinct candidates := (hperm.map _).nodup_iff.mpr h
  have horder := order_of_perm h hcomparable hperm
  constructor
  · have hreordered : (arbitrate { inputs with candidates }).ranking = _ :=
      (arbitrate_eq hdistinct).1
    rw [hreordered, (arbitrate_eq h).1, horder]
    refine List.Perm.map _ (List.Perm.append ?_ ((hperm.filter _).map _))
    rw [rankedOrder, rankedOrder, horder]
    exact List.Perm.refl _
  · have hbase : ∀ ranking ranking', ({ unselected { inputs with candidates } ranking with
        ranking := [] } : ArbitrationReport ν) = { unselected inputs ranking' with
          ranking := [] } := by
      intro ranking ranking'
      have hcount := ((hperm.map (rankCandidate inputs)).filter (!·.eligible)).length_eq
      simp only [unselected, ArbitrationReport.mk.injEq, hperm.length_eq, true_and, and_true]
      exact hcount
    rw [arbitrate_of_order, arbitrate_of_order, horder]
    cases inputs.order with
    | nil =>
      have hsame := hbase (candidates.map (rankCandidate { inputs with candidates }))
        (inputs.candidates.map (rankCandidate inputs))
      exact congrArg (fun r : ArbitrationReport ν => { r with
        noEligibleCandidate := true
        notes := ["no candidate satisfied hard eligibility"] }) hsame
    | cons winner others =>
      simp only
      rw [selectWinner_unranked, selectWinner_unranked inputs.policy (unselected inputs _), hbase]

/-- With exact scores, arbitration is a function of the set of candidates:
under a permutation of the input only the order of the rankings can change, and
only among the candidates that are not eligible. And its report is well
ranked. -/
theorem arbitration_of_candidate_set (inputs : ArbitrationInputs Rat)
    (h : (inputs.candidates.map (·.candidate)).Nodup) :
    WellRanked inputs (arbitrate inputs)
      ∧ ∀ candidates : List (ArbitrationCandidateInput Rat), candidates.Perm inputs.candidates →
        (arbitrate { inputs with candidates }).ranking.Perm (arbitrate inputs).ranking
          ∧ ({ arbitrate { inputs with candidates } with ranking := [] } : ArbitrationReport Rat)
            = { arbitrate inputs with ranking := [] } :=
  ⟨arbitrate_wellRanked h (comparable_exact inputs),
    fun _ hperm => arbitrate_of_perm h (comparable_exact inputs) hperm⟩

namespace Sample

/-- A valid candidate of a participant, with one accepted score. -/
def entrant (id : UInt64) (required : Bool) (score : ν) : ArbitrationCandidateInput ν where
  candidate := ⟨id⟩
  generation := ⟨1⟩
  participant := ⟨id⟩
  participantGeneration := ⟨1⟩
  role := .candidate
  state := .valid
  generationCurrent := true
  participantAuthoritative := true
  compatible := true
  requiredParticipant := required
  fallback := false
  roleSelectable := true
  participantPriority := 0
  executionCost := 0
  latency := 0
  specialistMatches := 0
  payloadBytes := 1
  evaluation :=
    { candidate := ⟨id⟩, generation := ⟨1⟩, evaluations := 1, accepts := 1
      weightedScoreSum := score, weightSum := Arithmetic.read .one, minScore := score
      maxScore := score }

/-- Candidates that are compared by the number of accepting votes. -/
def contest (tieBreak : TieBreakPolicy) (candidates : List (ArbitrationCandidateInput ν)) :
    ArbitrationInputs ν where
  candidates
  policy := { factors := [.voteCount], tieBreak }
  aggregation := {}
  evidence := {}
  quorumSatisfied := true
  ensembleGeneration := ⟨1⟩
  coordinatorEpoch := ⟨1⟩
  sequence := ⟨1⟩

/-- The required participant is the second. -/
def requiredSecond (score : ν) : ArbitrationInputs ν :=
  contest .preferRequiredParticipant
    [entrant 3 false score, entrant 2 true score, entrant 1 false score]

end Sample

/-- Three tied candidates, listed against their order: the required one, which
is the second of the order, is selected however they are listed. -/
theorem requiredSecond_ranked :
    WellRanked (Sample.requiredSecond (1 : Rat)) (arbitrate (Sample.requiredSecond (1 : Rat)))
      ∧ ∀ candidates : List (ArbitrationCandidateInput Rat),
        candidates.Perm (Sample.requiredSecond (1 : Rat)).candidates →
        (arbitrate { Sample.requiredSecond (1 : Rat) with candidates }).ranking.Perm
            (arbitrate (Sample.requiredSecond (1 : Rat))).ranking
          ∧ ({ arbitrate { Sample.requiredSecond (1 : Rat) with candidates } with ranking := [] }
              : ArbitrationReport Rat)
            = { arbitrate (Sample.requiredSecond (1 : Rat)) with ranking := [] } :=
  arbitration_of_candidate_set (Sample.requiredSecond (1 : Rat)) (by decide)

end EnsembleFabric

import EnsembleFabric.Ranking

/-!
# Tie-breaks

When several eligible candidates equal the best one on every configured
factor, the tie-break is to choose among all of them. The code looks at the
first two of the order only, the two of lowest identity. That decides for
the whole group exactly when nobody behind them would be preferred over
both (`tie_break_whole_group_iff`).

The group (`tied`) is made of the eligible candidates that equal a best one
in the arithmetic of the runtime, that is, as doubles. `Best` asks that every
other eligible candidate equals the best one or is outranked by it. Where a
factor is a NaN there may be no such candidate, and the sort may put anything
first; where there is one, its group is the front of the order
(`Best.order`), in the order of the identities, whatever the comparison does
to the rest.

What the tie-break prefers of the group is a pool (`preferred`), and the
candidate it is to choose is the one of lowest identity in it. The code
chooses the second of the first two where the tie-break prefers it over the
first, and the first otherwise; `prefersSecond_lowest_iff` says when that is
the same candidate.
-/

namespace EnsembleFabric

open Precedence

/-! ## The tied group -/

/-- The two are equal on every configured factor. -/
def ties (factors : List ArbitrationFactor) (a b : ArbitrationCandidateInput) : Bool :=
  factors.all fun factor => factorTies factor a b

theorem ties_iff {factors : List ArbitrationFactor} {a b : ArbitrationCandidateInput} :
    ties factors a b = true ↔ ∀ f ∈ factors, factorTies f a b = true := List.all_eq_true

theorem ties_comm (factors : List ArbitrationFactor) (a b : ArbitrationCandidateInput) :
    ties factors a b = ties factors b a :=
  congrArg factors.all (funext fun _ => factorTies_symm)

/-- The first factor on which the two differ decides for `a`. -/
def Outranks (factors : List ArbitrationFactor) (a b : ArbitrationCandidateInput) : Prop :=
  ∃ before factor after, factors = before ++ factor :: after
    ∧ (∀ f ∈ before, factorTies f a b = true) ∧ Better factor a b

/-- A best candidate: every other eligible one equals it on every configured
factor, or is outranked. Two that a NaN keeps from being compared have no
best one. -/
structure Best (inputs : ArbitrationInputs) (best : ArbitrationCandidateInput) : Prop where
  eligible : best ∈ inputs.eligibles
  best : ∀ c ∈ inputs.eligibles,
    ties inputs.policy.factors best c = true ∨ Outranks inputs.policy.factors best c

def lowerIdentity (a b : ArbitrationCandidateInput) : Bool :=
  decide (a.candidate.value < b.candidate.value)

/-- The eligible candidates that equal `best` on every configured factor, in
the order of their identities. -/
def tied (inputs : ArbitrationInputs) (best : ArbitrationCandidateInput) :
    List ArbitrationCandidateInput :=
  sortBy lowerIdentity (inputs.eligibles.filter (ties inputs.policy.factors best))

/-- Those of the group the tie-break prefers. The highest score is one that
no other of the group exceeds. -/
def preferred (tieBreak : TieBreakPolicy) (group : List ArbitrationCandidateInput) :
    List ArbitrationCandidateInput :=
  match tieBreak with
  | .preferRequiredParticipant =>
      if group.any (·.requiredParticipant) then group.filter (·.requiredParticipant) else group
  | .highestScoreThenId =>
      group.filter fun c =>
        group.all fun d => !c.evaluation.meanScore.less d.evaluation.meanScore
  | .lowestCandidateId | .reportTie => group

/-- The candidate of the lowest identity. -/
structure Lowest (pool : List ArbitrationCandidateInput) (c : ArbitrationCandidateInput) :
    Prop where
  mem : c ∈ pool
  least : ∀ d ∈ pool, c.candidate.value ≤ d.candidate.value

/-- The tie-break has considered the whole group: nobody is selected where a
tie is to be reported, and otherwise the preferred candidate of the lowest
identity is. -/
def ConsidersGroup (tieBreak : TieBreakPolicy) (group : List ArbitrationCandidateInput)
    (report : ArbitrationReport) : Prop :=
  if tieBreak = .reportTie then
    report.tieUnresolved = true ∧ report.selected = {} ∧ ∀ r ∈ report.ranking, r.selected = false
  else ∃ c, Lowest (preferred tieBreak group) c ∧ report.selected = c.candidate

/-- Nobody behind the first two is preferred over both of them: over the second
where it exceeds the first, and over the first otherwise. -/
def FirstTwoDecide (tieBreak : TieBreakPolicy) : List ArbitrationCandidateInput → Prop
  | first :: second :: others =>
      match tieBreak with
      | .preferRequiredParticipant =>
          first.requiredParticipant = true ∨ second.requiredParticipant = true
            ∨ ∀ c ∈ others, c.requiredParticipant = false
      | .highestScoreThenId =>
          ∀ c ∈ others, (Arithmetic.greater first.evaluation.meanScore
            second.evaluation.meanScore).less c.evaluation.meanScore = false
      | .lowestCandidateId | .reportTie => True
  | _ => True

/-! ## The group at the front of the order -/

theorem factorTies_congr {factor : ArbitrationFactor} {a a' : ArbitrationCandidateInput}
    (h : factorTies factor a a' = true) (b : ArbitrationCandidateInput) :
    factorTies factor a b = factorTies factor a' b := Arithmetic.equal_congr h _

theorem better_congr {factor : ArbitrationFactor} {a a' : ArbitrationCandidateInput}
    (h : factorTies factor a a' = true) (b : ArbitrationCandidateInput) :
    Better factor a b ↔ Better factor a' b := by
  rw [Better, Better, Arithmetic.less_congr h, Arithmetic.less_congr_right h]

theorem ties_congr {factors : List ArbitrationFactor} {a a' : ArbitrationCandidateInput}
    (h : ties factors a a' = true) (b : ArbitrationCandidateInput) :
    ties factors a b = ties factors a' b := by
  rw [Bool.eq_iff_iff, ties_iff, ties_iff]
  exact forall₂_congr fun f hf => by rw [factorTies_congr (ties_iff.mp h f hf)]

/-- Whoever equals a candidate outranks whom it outranks. -/
theorem Outranks.of_ties {factors : List ArbitrationFactor} {a a' b : ArbitrationCandidateInput}
    (h : Outranks factors a b) (hties : ties factors a a' = true) : Outranks factors a' b := by
  obtain ⟨before, factor, after, rfl, hbefore, hbetter⟩ := h
  rw [ties_iff] at hties
  refine ⟨before, factor, after, rfl, fun f hf => ?_, ?_⟩
  · rw [← factorTies_congr (hties f (List.mem_append_left _ hf))]
    exact hbefore f hf
  · exact (better_congr (hties factor (by simp)) b).mp hbetter

theorem Better.precedes {factor : ArbitrationFactor} {a b : ArbitrationCandidateInput}
    (h : Better factor a b) :
    factorTies factor a b = false ∧ factorPrecedes factor a b = true
      ∧ factorPrecedes factor b a = false := by
  unfold Better at h
  by_cases hhigher : higherIsBetter factor = true
  · rw [if_pos hhigher] at h
    have hdiffer := Arithmetic.not_equal_of_less h
    have hback := Arithmetic.less_asymm h
    rw [factorTies, factorPrecedes, factorPrecedes, Arithmetic.equal_comm, hdiffer, hhigher]
    exact ⟨rfl, h, hback⟩
  · rw [if_neg hhigher] at h
    have hdiffer := Arithmetic.not_equal_of_less h
    have hback := Arithmetic.less_asymm h
    rw [factorTies, factorPrecedes, factorPrecedes,
      Arithmetic.equal_comm (factorValue factor b), hdiffer, if_neg hhigher, if_neg hhigher]
    exact ⟨rfl, h, hback⟩

theorem Outranks.precedes {factors : List ArbitrationFactor} {a b : ArbitrationCandidateInput}
    (h : Outranks factors a b) :
    rankPrecedes factors a b = true ∧ rankPrecedes factors b a = false := by
  obtain ⟨before, factor, after, rfl, hbefore, hbetter⟩ := h
  induction before with
  | nil =>
    obtain ⟨hdiffer, hprecedes, hback⟩ := hbetter.precedes
    rw [List.nil_append, rankPrecedes, rankPrecedes, hdiffer, factorTies_symm.trans hdiffer]
    exact ⟨hprecedes, hback⟩
  | cons f before ih =>
    have hties := hbefore f List.mem_cons_self
    rw [List.cons_append, rankPrecedes, rankPrecedes, if_pos hties,
      if_pos (factorTies_symm.trans hties)]
    exact ih fun g hg => hbefore g (List.mem_cons_of_mem _ hg)

theorem rankPrecedes_of_ties {factors : List ArbitrationFactor}
    {a b : ArbitrationCandidateInput} (h : ties factors a b = true) :
    rankPrecedes factors a b = lowerIdentity a b := by
  induction factors with
  | nil => rfl
  | cons factor rest ih =>
    rw [ties, List.all_cons, Bool.and_eq_true] at h
    rw [rankPrecedes, if_pos h.1]
    exact ih h.2

theorem mem_tied {inputs : ArbitrationInputs} {best c : ArbitrationCandidateInput} :
    c ∈ tied inputs best
      ↔ c ∈ inputs.eligibles ∧ ties inputs.policy.factors best c = true := by
  rw [tied, mem_sortBy, List.mem_filter]

/-- The group of a best candidate is the front of the order. -/
theorem Best.order {inputs : ArbitrationInputs} {best : ArbitrationCandidateInput}
    (h : Best inputs best) :
    ∃ behind, inputs.order = tied inputs best ++ behind := by
  have hfront : ∀ a ∈ inputs.eligibles, ∀ b ∈ inputs.eligibles,
      ties inputs.policy.factors best a = true → ties inputs.policy.factors best b = false →
      rankPrecedes inputs.policy.factors a b = true
        ∧ rankPrecedes inputs.policy.factors b a = false := by
    intro a _ b hb hties hdiffer
    rcases h.best b hb with hties' | houtranks
    · rw [hties'] at hdiffer
      cases hdiffer
    · exact (houtranks.of_ties hties).precedes
  have hgroup : sortBy (rankPrecedes inputs.policy.factors)
      (inputs.eligibles.filter (ties inputs.policy.factors best)) = tied inputs best := by
    refine sortBy_congr fun a ha b hb => rankPrecedes_of_ties ?_
    rw [← ties_congr (List.mem_filter.mp ha).2]
    exact (List.mem_filter.mp hb).2
  exact ⟨_, (sortBy_split hfront).trans (congrArg (· ++ _) hgroup)⟩

theorem tied_distinct {inputs : ArbitrationInputs} (h : Distinct inputs.candidates)
    (best : ArbitrationCandidateInput) : Distinct (tied inputs best) :=
  ((perm_sortBy _ _).map _).nodup_iff.mpr
    (h.sublist ((List.filter_sublist.trans List.filter_sublist).map _))

/-- The group is in the order of its identities. -/
theorem tied_ordered {inputs : ArbitrationInputs} (h : Distinct inputs.candidates)
    (best : ArbitrationCandidateInput) :
    (tied inputs best).Pairwise fun a b => a.candidate.value < b.candidate.value := by
  have hlower : ∀ a b : ArbitrationCandidateInput,
      a.candidate.value.toNat < b.candidate.value.toNat →
        lowerIdentity a b = true ∧ lowerIdentity b a = false := by
    intro a b hlt
    simp [lowerIdentity, UInt64.lt_iff_toNat_lt, hlt, hlt.le]
  have hle := sortBy_monotone hlower (inputs.eligibles.filter (ties inputs.policy.factors best))
  refine (hle.and (List.pairwise_map.mp (tied_distinct h best))).imp fun ⟨hle, hne⟩ => ?_
  refine UInt64.lt_iff_toNat_lt.mpr (lt_of_le_of_ne hle fun heq => hne ?_)
  exact congrArg StrongId.mk (UInt64.toNat_inj.mp heq)

/-- Where two candidates equal the best one, the order begins with the first two
of the group, and they tie. -/
theorem Best.front {inputs : ArbitrationInputs} {best : ArbitrationCandidateInput}
    (h : Best inputs best) (htwo : 2 ≤ (tied inputs best).length) :
    ∃ first second others more, inputs.order = first :: second :: others
      ∧ ties inputs.policy.factors first second = true
      ∧ tied inputs best = first :: second :: more := by
  obtain ⟨behind, horder⟩ := h.order
  match hgroup : tied inputs best, htwo with
  | first :: second :: more, _ =>
    have hmem : ∀ c ∈ first :: second :: more, ties inputs.policy.factors best c = true :=
      fun c hc => (mem_tied.mp (hgroup ▸ hc)).2
    refine ⟨first, second, more ++ behind, more, by rw [horder, hgroup]; rfl, ?_, rfl⟩
    rw [← ties_congr (hmem first (by simp))]
    exact hmem second (by simp)

/-! ## Whom the code selects -/

theorem preferred_subset {tieBreak : TieBreakPolicy} {group : List ArbitrationCandidateInput}
    {c : ArbitrationCandidateInput} (h : c ∈ preferred tieBreak group) : c ∈ group := by
  cases tieBreak with
  | reportTie | lowestCandidateId => exact h
  | highestScoreThenId => exact (List.mem_filter.mp h).1
  | preferRequiredParticipant =>
    simp only [preferred] at h
    split at h
    · exact (List.mem_filter.mp h).1
    · exact h

/-- Of two candidates in the order of their identities, the first has the
lower one than everybody behind it. -/
theorem lowest_first {pool : List ArbitrationCandidateInput}
    {first : ArbitrationCandidateInput} {others : List ArbitrationCandidateInput}
    (hordered : (first :: others).Pairwise fun a b => a.candidate.value < b.candidate.value)
    (hsub : ∀ c ∈ pool, c ∈ first :: others) (hmem : first ∈ pool) : Lowest pool first := by
  refine ⟨hmem, fun d hd => ?_⟩
  rcases List.mem_cons.mp (hsub d hd) with rfl | hd
  · exact UInt64.le_refl _
  · exact UInt64.le_of_lt ((List.pairwise_cons.mp hordered).1 d hd)

/-- The second has, where the first is not in the pool. -/
theorem lowest_second {pool : List ArbitrationCandidateInput}
    {first second : ArbitrationCandidateInput} {others : List ArbitrationCandidateInput}
    (hordered : (first :: second :: others).Pairwise fun a b =>
      a.candidate.value < b.candidate.value)
    (hsub : ∀ c ∈ pool, c ∈ first :: second :: others) (hfirst : first ∉ pool)
    (hmem : second ∈ pool) : Lowest pool second := by
  refine lowest_first (List.pairwise_cons.mp hordered).2 (fun c hc => ?_) hmem
  rcases List.mem_cons.mp (hsub c hc) with rfl | hc'
  · exact absurd hc hfirst
  · exact hc'

section Decides

variable {first second : ArbitrationCandidateInput} {others : List ArbitrationCandidateInput}
  (hordered : (first :: second :: others).Pairwise fun a b =>
    a.candidate.value < b.candidate.value)

include hordered

/-- What the code prefers of the first two is the preferred candidate of the
lowest identity exactly if the first two decide. -/
theorem prefersSecond_lowest_iff (tieBreak : TieBreakPolicy) :
    Lowest (preferred tieBreak (first :: second :: others))
        (if prefersSecond tieBreak first second then second else first)
      ↔ FirstTwoDecide tieBreak (first :: second :: others) := by
  have hsub : ∀ c ∈ preferred tieBreak (first :: second :: others), c ∈ first :: second :: others :=
    fun c hc => preferred_subset hc
  cases tieBreak with
  | reportTie | lowestCandidateId =>
    exact iff_of_true (lowest_first hordered (fun c hc => hc) List.mem_cons_self) trivial
  | highestScoreThenId =>
    have hpool : ∀ c, c ∈ preferred .highestScoreThenId (first :: second :: others)
        ↔ c ∈ first :: second :: others ∧ ∀ d ∈ first :: second :: others,
          c.evaluation.meanScore.less d.evaluation.meanScore = false := by
      intro c
      rw [preferred, List.mem_filter, List.all_eq_true]
      simp only [Bool.not_eq_true']
    have hself : ∀ d : Double, d.less d = false := by
      intro d
      rw [Bool.eq_false_iff]
      exact fun hless => lt_irrefl _ (Double.less_iff.mp hless).2.2
    by_cases hless : first.evaluation.meanScore.less second.evaluation.meanScore = true
    · have hgreater : Arithmetic.greater first.evaluation.meanScore second.evaluation.meanScore
          = second.evaluation.meanScore := if_pos hless
      have hprefers : prefersSecond .highestScoreThenId first second = true := hless
      have hback : Arithmetic.less second.evaluation.meanScore first.evaluation.meanScore = false :=
        Arithmetic.less_asymm hprefers
      rw [FirstTwoDecide, if_pos hprefers, hgreater]
      constructor
      · intro h c hc
        exact ((hpool _).mp h.mem).2 c (by simp [hc])
      · intro h
        refine lowest_second hordered hsub (fun hfirst => ?_) ((hpool _).mpr ⟨by simp, ?_⟩)
        · have hexceeded := ((hpool _).mp hfirst).2 second (by simp)
          rw [hless] at hexceeded
          cases hexceeded
        · intro d hd
          rcases List.mem_cons.mp hd with rfl | hd
          · exact hback
          rcases List.mem_cons.mp hd with rfl | hd
          · exact hself _
          · exact h d hd
    · have hgreater : Arithmetic.greater first.evaluation.meanScore second.evaluation.meanScore
          = first.evaluation.meanScore := if_neg hless
      have hprefers : ¬ prefersSecond .highestScoreThenId first second = true := hless
      rw [FirstTwoDecide, if_neg hprefers, hgreater]
      constructor
      · intro h c hc
        exact ((hpool _).mp h.mem).2 c (by simp [hc])
      · intro h
        refine lowest_first hordered hsub ((hpool _).mpr ⟨by simp, fun d hd => ?_⟩)
        rcases List.mem_cons.mp hd with rfl | hd
        · exact hself _
        rcases List.mem_cons.mp hd with rfl | hd
        · exact Bool.eq_false_iff.mpr hless
        · exact h d hd
  | preferRequiredParticipant =>
    simp only [prefersSecond, Bool.and_eq_true, Bool.not_eq_true', FirstTwoDecide]
    have hpool : ∀ c, c.requiredParticipant = true → c ∈ first :: second :: others →
        c ∈ preferred .preferRequiredParticipant (first :: second :: others) := by
      intro c hc hmem
      rw [preferred, if_pos (List.any_eq_true.mpr ⟨c, hmem, hc⟩)]
      exact List.mem_filter.mpr ⟨hmem, hc⟩
    have hrequired : ∀ c ∈ first :: second :: others, c.requiredParticipant = true →
        ∀ d ∈ preferred .preferRequiredParticipant (first :: second :: others),
          d.requiredParticipant = true := by
      intro c hmem hc d hd
      rw [preferred, if_pos (List.any_eq_true.mpr ⟨c, hmem, hc⟩)] at hd
      exact (List.mem_filter.mp hd).2
    by_cases hfirst : first.requiredParticipant = true
    · rw [if_neg (by simp [hfirst])]
      exact iff_of_true (lowest_first hordered hsub (hpool first hfirst (by simp))) (.inl hfirst)
    have hfirst' : first.requiredParticipant = false := by simpa using hfirst
    by_cases hsecond : second.requiredParticipant = true
    · rw [if_pos ⟨hfirst', hsecond⟩]
      refine iff_of_true (lowest_second hordered hsub (fun hmem => ?_)
        (hpool second hsecond (by simp))) (.inr (.inl hsecond))
      exact hfirst (hrequired second (by simp) hsecond first hmem)
    rw [if_neg fun h => hsecond h.2]
    constructor
    · intro h
      refine .inr (.inr fun c hc => ?_)
      by_contra hc'
      exact hfirst (hrequired c (by simp [hc]) (by simpa using hc') first h.mem)
    · rintro (h | h | h)
      · exact absurd h hfirst
      · exact absurd h hsecond
      · have hnone : (first :: second :: others).any (·.requiredParticipant) = false := by
          simp only [List.any_cons, hfirst', (by simpa using hsecond : second.requiredParticipant
            = false), Bool.false_or, List.any_eq_false, Bool.not_eq_true]
          exact h
        refine lowest_first hordered hsub ?_
        rw [preferred, hnone]
        exact List.mem_cons_self

end Decides

/-- Where at least two eligible candidates equal the best one on every
configured factor, the tie-break has considered the whole group if and only
if nobody behind the two of lowest identity would be preferred over both. -/
theorem tie_break_whole_group_iff (inputs : ArbitrationInputs) (best : ArbitrationCandidateInput)
    (hdistinct : (inputs.candidates.map (·.candidate)).Nodup) (hbest : Best inputs best)
    (htwo : 2 ≤ (tied inputs best).length) :
    ConsidersGroup inputs.policy.tieBreak (tied inputs best) (arbitrate inputs)
      ↔ FirstTwoDecide inputs.policy.tieBreak (tied inputs best) := by
  obtain ⟨hranking, hselected, -, hunresolved⟩ := arbitrate_eq hdistinct
  obtain ⟨first, second, others, more, horder, hties, htied⟩ := hbest.front htwo
  have hordered := tied_ordered hdistinct best
  have htop : topTie inputs.policy.factors (first :: second :: others) = true := hties
  rw [htied] at hordered ⊢
  rw [horder, chosen, if_pos htop] at hranking hselected hunresolved
  by_cases hreport : inputs.policy.tieBreak = .reportTie
  · rw [if_pos hreport] at hranking hselected hunresolved
    rw [ConsidersGroup, if_pos hreport, hreport]
    refine iff_of_true ⟨hunresolved, hselected, fun r hr => ?_⟩ trivial
    rw [hranking] at hr
    obtain ⟨r, hmem, rfl⟩ := List.mem_map.mp hr
    rw [Bool.eq_false_iff]
    intro hmarked
    obtain ⟨c, hnone, -⟩ := mark_selected hmem hmarked
    cases hnone
  · rw [if_neg hreport] at hselected
    have hwho : (arbitrate inputs).selected
        = (if prefersSecond inputs.policy.tieBreak first second then second
            else first).candidate := by
      rw [hselected]
      split <;> rfl
    have hmem : (if prefersSecond inputs.policy.tieBreak first second then second else first)
        ∈ first :: second :: more := by
      split
      · exact List.mem_cons_of_mem _ List.mem_cons_self
      · exact List.mem_cons_self
    rw [ConsidersGroup, if_neg hreport, hwho, ← prefersSecond_lowest_iff hordered]
    constructor
    · rintro ⟨c, hc, hid⟩
      have hids : Distinct (first :: second :: more) :=
        List.pairwise_map.mpr (hordered.imp fun hlt heq => by
          rw [heq] at hlt
          exact UInt64.lt_irrefl _ hlt)
      rw [hids.eq hmem (preferred_subset hc.mem) hid]
      exact hc
    · exact fun h => ⟨_, h, rfl⟩

namespace Sample

/-- Two tied candidates of optional participants, and behind them one of a
required participant. -/
def optionalFirst : ArbitrationInputs :=
  contest .preferRequiredParticipant
    [entrant 1 false .one, entrant 2 false .one, entrant 3 true .one]

/-- The best score is the third one. -/
def bestThird : ArbitrationInputs :=
  contest .highestScoreThenId [entrant 1 true .half, entrant 2 true .one, entrant 3 true .two]

end Sample

/-- A candidate that every eligible one equals is a best one. -/
theorem best_of_all {inputs : ArbitrationInputs} {best : ArbitrationCandidateInput}
    (h : best ∈ inputs.eligibles ∧ ∀ c ∈ inputs.eligibles,
      ties inputs.policy.factors best c = true) : Best inputs best :=
  ⟨h.1, fun c hc => .inl (h.2 c hc)⟩

/-- The required participant is the second of three tied ones, and the code
selects its candidate: the third is optional, so the first two decide. -/
theorem requiredSecond_decided :
    ConsidersGroup (Sample.requiredSecond Double.one).policy.tieBreak
        (tied (Sample.requiredSecond .one) (Sample.entrant 1 false .one))
        (arbitrate (Sample.requiredSecond .one))
      ↔ FirstTwoDecide (Sample.requiredSecond Double.one).policy.tieBreak
        (tied (Sample.requiredSecond .one) (Sample.entrant 1 false .one)) :=
  tie_break_whole_group_iff (Sample.requiredSecond .one) (Sample.entrant 1 false .one) (by decide)
    (best_of_all (by decide +kernel)) (by decide +kernel)

/-- Three candidates tie, and the first is selected although only the third is
of a required participant; and the second although the third scores higher. -/
theorem third_candidate_overlooked :
    Best Sample.optionalFirst (Sample.entrant 1 false .one)
      ∧ (tied Sample.optionalFirst (Sample.entrant 1 false .one)).map (·.candidate)
        = [⟨1⟩, ⟨2⟩, ⟨3⟩]
      ∧ ¬ ConsidersGroup .preferRequiredParticipant
        (tied Sample.optionalFirst (Sample.entrant 1 false .one)) (arbitrate Sample.optionalFirst)
      ∧ Best Sample.bestThird (Sample.entrant 1 true .half)
      ∧ (tied Sample.bestThird (Sample.entrant 1 true .half)).map (·.candidate)
        = [⟨1⟩, ⟨2⟩, ⟨3⟩]
      ∧ ¬ ConsidersGroup .highestScoreThenId
        (tied Sample.bestThird (Sample.entrant 1 true .half)) (arbitrate Sample.bestThird) := by
  have hrequired : (arbitrate Sample.optionalFirst).selected = ⟨1⟩
      ∧ (preferred .preferRequiredParticipant
          (tied Sample.optionalFirst (Sample.entrant 1 false .one))).all
        (fun c => c.candidate != ⟨1⟩) = true := by decide +kernel
  have hscore : (arbitrate Sample.bestThird).selected = ⟨2⟩
      ∧ (preferred .highestScoreThenId
          (tied Sample.bestThird (Sample.entrant 1 true .half))).all
        (fun c => c.candidate != ⟨2⟩) = true := by decide +kernel
  refine ⟨best_of_all (by decide +kernel), by decide +kernel, ?_,
    best_of_all (by decide +kernel), by decide +kernel, ?_⟩
  · rw [ConsidersGroup, if_neg (by decide)]
    rintro ⟨c, hc, hid⟩
    have hother := List.all_eq_true.mp hrequired.2 c hc.mem
    rw [← hid, hrequired.1] at hother
    cases hother
  · rw [ConsidersGroup, if_neg (by decide)]
    rintro ⟨c, hc, hid⟩
    have hother := List.all_eq_true.mp hscore.2 c hc.mem
    rw [← hid, hscore.1] at hother
    cases hother

end EnsembleFabric

import EnsembleFabric.Denominator
import EnsembleFabric.EvidenceOrder
import EnsembleFabric.Threshold
import EnsembleFabric.TieBreaks
import EnsembleFabric.VoteTies

/-!
# Policies that restrict a commit

A completion policy may require a consensus, and an arbitration policy a
unique winner. Both flags are validated, fingerprinted and encoded with the
specification, and the decision reads neither. So a commit honours them
exactly where the evidence makes for a consensus, and for a unique winner, of
its own accord (`restrictions_honoured_iff`).

Each flag is read back to the evidence. A decision COMMITTED has counted the
votes, and the consensus is one where the most accepts a candidate has make
for it (`MostDecide`): they meet the threshold, or there is none and one
candidate alone leads with somebody abstaining, or nobody is accepted and one
candidate alone holds content. Otherwise it is a plurality, or a tie that the
tie-break decided. The winner is unique where the first candidate of the
order is alone (`FirstAlone`), that is, ties with no other eligible candidate
on every configured factor, compared as the code compares doubles.

`restrictedAgreed_honoured` is a commit among two eligible candidates that
honours both flags, and `restrictedTwins_commits` one that honours neither.
-/

namespace EnsembleFabric

open Precedence

/-! ## The stated restrictions -/

/-- The commit honours both flags: where a consensus is required it is one, and
where a unique winner is required no other eligible candidate equals it. -/
structure RestrictionsHonoured (e : EnsembleRecord) (x : ExecutionRecord) (r : EnsembleResult) :
    Prop where
  consensus : e.spec.completion.requireConsensus = true →
    r.consensus.state = .consensus ∨ r.consensus.state = .consensusWithAbstentions
  uniqueWinner : e.spec.arbitration.requireUniqueWinner = true →
    ∀ selected ∈ x.candidates, selected.id = r.selectedCandidate →
      ∀ c ∈ x.candidates, passesHardChecks e x c = true → c.id ≠ selected.id →
        ∃ factor ∈ e.spec.arbitration.factors,
          factorTies factor (arbitrationInput e x c) (arbitrationInput e x selected) = false

/-! ## What the evidence decides -/

/-- The candidates that hold content. -/
def contents (x : ExecutionRecord) : List CandidateRecord :=
  x.candidates.filter fun c => isContentState c.state

/-- How many current evaluations accept the candidate. -/
def accepts (x : ExecutionRecord) (c : CandidateRecord) : Nat :=
  (acceptingEvaluations x c).length

/-- The most accepts a candidate has make for a consensus: nobody is accepted and
one candidate alone holds content; no threshold is configured, one candidate
leads alone and somebody abstained; or the threshold is met. -/
def MostDecide (e : EnsembleRecord) (x : ExecutionRecord) (most : Nat) : Prop :=
  if most = 0 then (contents x).length = 1
  else if e.spec.quorum.consensusThresholdPercent = 0 then
    (∃ m ∈ quorumMembers e x, inCodeDenominator e.spec.quorum (eligibleVotes x) m = true
      ∧ onlyAbstained (eligibleVotes x) m = true)
    ∧ (contents x).countP (fun c => accepts x c == most) = 1
  else e.spec.quorum.consensusThresholdPercent.toNat
      * countMembers (quorumMembers e x) (inCodeDenominator e.spec.quorum (eligibleVotes x))
    ≤ 100 * most

def VoteDecides (e : EnsembleRecord) (x : ExecutionRecord) : Prop :=
  ∃ c ∈ contents x, (∀ d ∈ contents x, accepts x d ≤ accepts x c) ∧ MostDecide e x (accepts x c)

/-! ## The outcome of a counted vote -/

/-- A vote that may authorize a commit is a consensus, or the leader ties, or
it has no threshold to meet. -/
theorem voteOutcome_consensus_iff {inputs : ConsensusInputs} {eligibleCount runnerUp : Nat}
    {leader : CandidateTally} (hrunner : runnerUp ≤ leader.agreeing)
    (h : (voteOutcome inputs eligibleCount leader runnerUp).resolved = true
      ∨ voteOutcome inputs eligibleCount leader runnerUp = .tie) :
    (voteOutcome inputs eligibleCount leader runnerUp = .consensus
        ∨ voteOutcome inputs eligibleCount leader runnerUp = .consensusWithAbstentions)
      ↔ if leader.agreeing = 0 then eligibleCount = 1
        else if inputs.quorum.thresholdPercent = 0 then
          0 < inputs.quorum.abstentions ∧ runnerUp < leader.agreeing
        else inputs.quorum.thresholdCount ≤ leader.agreeing := by
  have hpercent : 0 < inputs.quorum.thresholdPercent ↔ ¬ inputs.quorum.thresholdPercent = 0 := by
    rw [UInt32.lt_iff_toNat_lt, ← UInt32.toNat_inj]
    exact Nat.pos_iff_ne_zero
  unfold voteOutcome at h ⊢
  by_cases hnone : leader.agreeing = 0
  · simp only [hnone, if_true] at h ⊢
    by_cases hvotes : inputs.requiresVotes = true
    · rw [if_pos hvotes] at h
      rcases h with h | h <;> cases h
    · rw [if_neg hvotes]
      by_cases hone : eligibleCount = 1 <;> simp [hone]
  · simp only [if_neg hnone] at h ⊢
    by_cases hzero : inputs.quorum.thresholdPercent = 0
    · have hnot : ¬ 0 < inputs.quorum.thresholdPercent := fun h => hpercent.mp h hzero
      simp only [if_pos hzero, hnot, false_and, if_false, not_false_eq_true, true_and]
      by_cases hties : runnerUp = leader.agreeing
      · rw [if_pos hties]
        refine iff_of_false (by simp) ?_
        omega
      · rw [if_neg hties]
        by_cases habstained : 0 < inputs.quorum.abstentions
        · rw [if_pos habstained]
          exact iff_of_true (.inr rfl) ⟨habstained, by omega⟩
        · rw [if_neg habstained]
          exact iff_of_false (by simp) fun h => habstained h.1
    · have hthreshold := hpercent.mpr hzero
      simp only [if_neg hzero, hthreshold, true_and, not_true_eq_false, false_and, if_false]
      by_cases hmissed : leader.agreeing < inputs.quorum.thresholdCount
      · rw [if_pos hmissed]
        refine iff_of_false ?_ (by omega)
        split <;> simp
      · rw [if_neg hmissed]
        refine iff_of_true ?_ (by omega)
        split
        · exact .inr rfl
        · exact .inl rfl

/-- The best count behind the leader is below the leader's exactly if nobody
else has as many. -/
theorem runnerUp_lt_iff {leader : CandidateTally} {others : List CandidateTally}
    (hmost : ∀ t ∈ others, t.agreeing ≤ leader.agreeing) (hpositive : 0 < leader.agreeing) :
    (others.map (·.agreeing)).foldl max 0 < leader.agreeing
      ↔ (leader :: others).countP (fun t => t.agreeing == leader.agreeing) = 1 := by
  rw [List.countP_cons, if_pos (beq_iff_eq.mpr rfl), Nat.add_eq_right, List.countP_eq_zero]
  constructor
  · intro hlt t ht hsame
    have hle := (le_foldl_max (others.map (·.agreeing)) 0).2 t.agreeing (List.mem_map_of_mem ht)
    rw [beq_iff_eq] at hsame
    omega
  · intro halone
    have hbound : (others.map (·.agreeing)).foldl max 0 ≤ leader.agreeing - 1 := by
      refine foldl_max_le (Nat.zero_le _) fun n hn => ?_
      obtain ⟨t, ht, rfl⟩ := List.mem_map.mp hn
      have hle := hmost t ht
      have hne := halone t ht
      rw [beq_iff_eq] at hne
      omega
    omega

theorem tallies_eligible (e : EnsembleRecord) (x : ExecutionRecord) (sequence : Sequence) :
    (consensusInputs e (withQuorum e x) sequence).tallies.filter (·.eligible)
      = (contents x).map (tallyCandidate (withQuorum e x)) := List.filter_map

theorem tally_accepts (e : EnsembleRecord) (x : ExecutionRecord) (c : CandidateRecord) :
    (tallyCandidate (withQuorum e x) c).agreeing = accepts x c :=
  List.countP_eq_length_filter ..

/-- Somebody counts as abstaining. -/
theorem abstentions_pos (e : EnsembleRecord) (x : ExecutionRecord) (sequence : Sequence) :
    0 < (quorumReport e x sequence).abstentions
      ↔ ∃ m ∈ quorumMembers e x, inCodeDenominator e.spec.quorum (eligibleVotes x) m = true
        ∧ onlyAbstained (eligibleVotes x) m = true := by
  have habstentions : (quorumReport e x sequence).abstentions
      = (((quorumMembers e x).filter (inCodeDenominator e.spec.quorum (eligibleVotes x))).filter
        (onlyAbstained (eligibleVotes x))).length := rfl
  rw [habstentions, List.length_pos_iff_exists_mem]
  simp only [List.mem_filter, and_assoc]

/-- The votes that count reach the threshold. -/
theorem threshold_reached {limits : Limits} {e : EnsembleRecord} (h : SpecInUse limits e)
    (x : ExecutionRecord) (sequence : Sequence) (count : Nat) :
    (quorumReport e x sequence).thresholdCount ≤ count
      ↔ e.spec.quorum.consensusThresholdPercent.toNat
          * countMembers (quorumMembers e x) (inCodeDenominator e.spec.quorum (eligibleVotes x))
        ≤ 100 * count := by
  have hdenominator : (quorumReport e x sequence).denominator
      = countMembers (quorumMembers e x) (inCodeDenominator e.spec.quorum (eligibleVotes x)) := rfl
  rw [quorumReport_thresholdCount h, hdenominator, Nat.mul_comm _ (UInt32.toNat _)]
  omega

/-- The consensus of the votes that count is one exactly where they decide. -/
theorem counted_consensus_iff {limits : Limits} {e : EnsembleRecord} {x : ExecutionRecord}
    (hspec : SpecInUse limits e) (hselection : hasSelection e (computeReports e x) = true) :
    ((computeReports e x).consensus.state = .consensus
        ∨ (computeReports e x).consensus.state = .consensusWithAbstentions)
      ↔ VoteDecides e x := by
  obtain ⟨leader, others, hcounted⟩ := hasSelection_counted hselection
  have horder := hcounted.order
  rw [tallies_eligible] at horder
  have hperm := perm_sortBy betterTally ((contents x).map (tallyCandidate (withQuorum e x)))
  have hhead := leader_agreeing horder
  rw [horder] at hperm
  obtain ⟨c, hc, rfl⟩ := List.mem_map.mp (hperm.mem_iff.mp List.mem_cons_self)
  have hmost : ∀ d ∈ contents x, accepts x d ≤ accepts x c := by
    intro d hd
    rw [← tally_accepts e, ← tally_accepts e]
    exact hhead _ (List.mem_map_of_mem hd)
  have hbehind : ∀ t ∈ others, t.agreeing ≤ (tallyCandidate (withQuorum e x) c).agreeing := by
    intro t ht
    exact hhead t (hperm.mem_iff.mp (List.mem_cons_of_mem _ ht))
  have hrunner : (others.map (·.agreeing)).foldl max 0
      ≤ (tallyCandidate (withQuorum e x) c).agreeing := by
    refine foldl_max_le (Nat.zero_le _) fun n hn => ?_
    obtain ⟨t, ht, rfl⟩ := List.mem_map.mp hn
    exact hbehind t ht
  have hlength : others.length + 1 = (contents x).length := by
    rw [← List.length_cons, hperm.length_eq, List.length_map]
  have hshared : (tallyCandidate (withQuorum e x) c :: others).countP
        (fun t => t.agreeing == (tallyCandidate (withQuorum e x) c).agreeing)
      = (contents x).countP fun d => accepts x d == accepts x c := by
    rw [hperm.countP_eq, List.countP_map, tally_accepts]
    refine List.countP_congr fun d _ => ?_
    rw [Function.comp_apply, tally_accepts]
  have hmay : (computeReports e x).consensus.state.resolved = true
      ∨ (computeReports e x).consensus.state = .tie := by
    simp only [hasSelection, tieResolvedByPolicy, Bool.and_eq_true, Bool.or_eq_true,
      beq_iff_eq] at hselection
    exact hselection.2.imp_right fun h => h.1.1
  rw [computeReports_consensus, hcounted.state] at hmay ⊢
  rw [voteOutcome_consensus_iff hrunner hmay]
  have hmostDecide : VoteDecides e x ↔ MostDecide e x (accepts x c) := by
    constructor
    · rintro ⟨d, hd, hmost', hdecide⟩
      rwa [Nat.le_antisymm (hmost' c hc) (hmost d hd)]
    · exact fun hdecide => ⟨c, hc, hmost, hdecide⟩
  rw [hmostDecide, MostDecide, tally_accepts, hlength]
  by_cases hnone : accepts x c = 0
  · rw [if_pos hnone, if_pos hnone]
  · have habstained := abstentions_pos e x ⟨x.reportGeneration + 1⟩
    have hreached := threshold_reached hspec x ⟨x.reportGeneration + 1⟩ (accepts x c)
    have halone := runnerUp_lt_iff hbehind (by rw [tally_accepts]; omega)
    rw [hshared, tally_accepts] at halone
    rw [if_neg hnone, if_neg hnone, ← habstained, ← hreached, ← halone]
    exact Iff.rfl

/-! ## The selected candidate -/

/-- Nobody else equals the first candidate of the order on every factor. -/
def FirstAlone (inputs : ArbitrationInputs) : Prop :=
  match inputs.order with
  | [] => True
  | first :: rest => ∀ c ∈ rest, ties inputs.policy.factors first c = false

/-- Only the first of an order is chosen, or one that equals it. -/
theorem chosen_cases {policy : ArbitrationPolicy} {first c : ArbitrationCandidateInput}
    {rest : List ArbitrationCandidateInput} (h : chosen policy (first :: rest) = some c) :
    c = first ∨ c ∈ rest ∧ ties policy.factors first c = true := by
  cases rest with
  | nil => exact .inl (Option.some.inj h).symm
  | cons second others =>
    rw [chosen] at h
    split at h
    · rename_i htop
      split at h
      · cases h
      · split at h
        · obtain rfl := Option.some.inj h
          exact .inr ⟨List.mem_cons_self, htop⟩
        · exact .inl (Option.some.inj h).symm
    · exact .inl (Option.some.inj h).symm

/-- Where somebody is selected, no other eligible candidate equals it on every
factor exactly if the first of the order is alone. -/
theorem unique_winner_iff {inputs : ArbitrationInputs} (hdistinct : Distinct inputs.candidates)
    (heligible : (arbitrate inputs).noEligibleCandidate = false)
    (htie : (arbitrate inputs).tieUnresolved = false) :
    (∀ a ∈ inputs.candidates, a.candidate = (arbitrate inputs).selected →
        ∀ b ∈ inputs.order, b.candidate ≠ a.candidate → ties inputs.policy.factors b a = false)
      ↔ FirstAlone inputs := by
  obtain ⟨-, hselected, hnobody, hunresolved⟩ := arbitrate_eq hdistinct
  have hids := hdistinct.order
  rw [hnobody] at heligible
  rw [hunresolved] at htie
  unfold FirstAlone
  cases horder : inputs.order with
  | nil =>
    rw [horder] at heligible
    cases heligible
  | cons first rest =>
    have hmem : ∀ c ∈ first :: rest, c ∈ inputs.candidates :=
      fun c hc => (mem_order.mp (horder ▸ hc)).1
    rw [horder] at hids htie hselected
    have hapart : ∀ c ∈ rest, c.candidate ≠ first.candidate := by
      intro c hc heq
      exact (List.nodup_cons.mp hids).1 (List.mem_map.mpr ⟨c, hc, heq⟩)
    cases hchosen : chosen inputs.policy (first :: rest) with
    | none =>
      rw [hchosen] at htie
      cases htie
    | some c =>
      have hc : c.candidate = (arbitrate inputs).selected := by
        rw [hselected, hchosen]
        rfl
      constructor
      · intro halone d hd
        rcases chosen_cases hchosen with rfl | ⟨hrest, hties⟩
        · rw [ties_comm]
          exact halone c (hmem c List.mem_cons_self) hc d (List.mem_cons_of_mem _ hd)
            (hapart d hd)
        · have hdiffer := halone c (hmem c (List.mem_cons_of_mem _ hrest)) hc first
            List.mem_cons_self (hapart c hrest).symm
          rw [hties] at hdiffer
          cases hdiffer
      · intro halone a ha hid b hb hne
        rcases chosen_cases hchosen with rfl | ⟨hrest, hties⟩
        · obtain rfl := hdistinct.eq ha (hmem c List.mem_cons_self) (hid.trans hc.symm)
          rcases List.mem_cons.mp hb with rfl | hb
          · exact absurd rfl hne
          · rw [ties_comm]
            exact halone b hb
        · rw [halone c hrest] at hties
          cases hties

/-! ## Preparations -/

/-- A preparation for an execution without a stored result answers what its
evidence supports. -/
theorem prepareResult_decides {f : Fabric} {id : EnsembleId} {generation : EnsembleGeneration}
    {r : EnsembleResult} {e : EnsembleRecord} {x : ExecutionRecord}
    (h : (prepareResult f id generation).2 = .ok r) (hfind : f.find id = some e)
    (hexecution : e.execution = some x) (hundecided : x.result = none) :
    decideResult f.config.limits e (computeReports e x) = .ok r := by
  unfold prepareResult at h
  simp only [hfind] at h
  split at h
  · cases h
  · simpa only [hexecution, hundecided] using h

theorem decideResult_consensus {limits : Limits} {e : EnsembleRecord} {x : ExecutionRecord}
    {r : EnsembleResult} (h : decideResult limits e x = .ok r) : r.consensus = x.consensus := by
  obtain ⟨decided, hselect, rfl⟩ := decideResult_eq_ok.mp h
  rcases selectResult_eq_ok hselect with ⟨rfl, -⟩ | ⟨-, c, -, rfl⟩ <;> rfl

theorem arbitrated_order (e : EnsembleRecord) (x : ExecutionRecord) :
    (arbitrated e x).order = (arbitrationInputs e x {}).order := rfl

theorem arbitrated_policy (e : EnsembleRecord) (x : ExecutionRecord) :
    (arbitrated e x).policy = e.spec.arbitration := rfl

/-- In every reachable state: a preparation that decides COMMITTED for an
execution without a stored result honours both flags if and only if, where a
consensus is required, the votes decide, and where a unique winner is
required, the first candidate of the order is alone. -/
theorem restrictions_honoured_iff (config : FabricConfig) (events : List Event) (id : EnsembleId)
    (generation : EnsembleGeneration) (r : EnsembleResult) (e : EnsembleRecord)
    (x : ExecutionRecord)
    (hprepared : (prepareResult ((System.initial config).run events).fabric id generation).2
      = .ok r)
    (hdecision : r.decision = .committed)
    (hfind : ((System.initial config).run events).fabric.find id = some e)
    (hexecution : e.execution = some x) (hundecided : x.result = none) :
    RestrictionsHonoured e x r
      ↔ (e.spec.completion.requireConsensus = true → VoteDecides e x)
        ∧ (e.spec.arbitration.requireUniqueWinner = true →
          FirstAlone (arbitrationInputs e x {})) := by
  have hspec := reachable_specInUse config events id e hfind
  have hnodup := ((reachable_apart config events).numbered id).candidates.distinct
  rw [View.candidateIds_of hfind hexecution] at hnodup
  have hdecide := prepareResult_decides hprepared hfind hexecution hundecided
  obtain ⟨hselection, c, hfound, -, hid, -⟩ := decideResult_committed hdecide hdecision
  obtain ⟨heligible, htie⟩ := hasSelection_selected hselection
  have harbitration := computeReports_arbitration e x
  have hselected : r.selectedCandidate = (arbitrate (arbitrated e x)).selected := by
    have hsame := List.find?_some hfound
    rw [hid]
    exact (beq_iff_eq.mp hsame).trans (congrArg (·.selected) harbitration)
  have hids : (arbitrated e x).candidates.map (·.candidate) = x.candidates.map (·.id) :=
    List.map_map ..
  have hdistinct : Distinct (arbitrated e x).candidates := by
    rw [Distinct, hids]
    exact hnodup
  have hconsensus := counted_consensus_iff hspec hselection
  rw [← decideResult_consensus hdecide] at hconsensus
  have hunique := unique_winner_iff hdistinct
    ((congrArg (·.noEligibleCandidate) harbitration).symm.trans heligible)
    ((congrArg (·.tieUnresolved) harbitration).symm.trans htie)
  have halone : FirstAlone (arbitrated e x) ↔ FirstAlone (arbitrationInputs e x {}) := Iff.rfl
  rw [← hselected, arbitrated_order, arbitrated_policy, halone] at hunique
  constructor
  · intro h
    refine ⟨fun hrequired => hconsensus.mp (h.consensus hrequired), fun hrequired => ?_⟩
    refine hunique.mp fun a ha hsame b hb hne => ?_
    obtain ⟨selected, hmem, rfl⟩ := List.mem_map.mp ha
    obtain ⟨hb, hpasses⟩ := mem_order.mp hb
    obtain ⟨c, hc, rfl⟩ := List.mem_map.mp hb
    obtain ⟨factor, hfactor, hdiffer⟩ :=
      h.uniqueWinner hrequired selected hmem hsame c hc hpasses hne
    rw [Bool.eq_false_iff]
    intro hties
    rw [ties_iff.mp hties factor hfactor] at hdiffer
    cases hdiffer
  · rintro ⟨hvotes, htop⟩
    refine ⟨fun hrequired => hconsensus.mpr (hvotes hrequired), fun hrequired => ?_⟩
    intro selected hmem hsame c hc hpasses hne
    have hdiffer := hunique.mpr (htop hrequired) (arbitrationInput e x selected)
      (List.mem_map_of_mem hmem) hsame (arbitrationInput e x c)
      (mem_order.mpr ⟨List.mem_map_of_mem hc, hpasses⟩) hne
    obtain ⟨factor, hfactor, hdiffer⟩ := List.all_eq_false.mp hdiffer
    exact ⟨factor, hfactor, by simpa using hdiffer⟩

namespace Sample

/-- The same specification with both flags. -/
def restricted (spec : EnsembleSpec) : EnsembleSpec :=
  { spec with
    completion := { spec.completion with requireConsensus := true }
    arbitration := { spec.arbitration with requireUniqueWinner := true } }

/-- Two participants whose candidates need no evaluation. -/
def twinSpec : EnsembleSpec where
  id := ⟨1⟩
  label := "twins"
  participants := [participant 1 candidateRole, participant 2 candidateRole]

/-- Two candidates of a restricted execution. Both judges accept the first one
and reject the second. -/
def restrictedAgreed : List Event :=
  start (restricted votingSpec) ++ [content 1 1 [7], content 2 2 [8], advance,
    judge 3 1 1 1 .accept, judge 4 1 2 1 .accept, judge 3 2 3 1 .reject, judge 4 2 4 1 .reject]

/-- Two candidates of a restricted execution that nothing tells apart. -/
def restrictedTwins : List Event :=
  start (restricted twinSpec) ++ [content 1 1 [7], content 2 2 [8]]

end Sample

/-- A commit of the candidate that both judges accept. Both candidates are
eligible, and both flags are set and honoured. -/
theorem restrictedAgreed_honoured :
    ∃ e x, (Sample.prepared Sample.restrictedAgreed).decision = .committed
      ∧ (arbitrationInputs e x {}).order.length = 2
      ∧ e.spec.completion.requireConsensus = true
      ∧ e.spec.arbitration.requireUniqueWinner = true
      ∧ (RestrictionsHonoured e x (Sample.prepared Sample.restrictedAgreed)
        ↔ (e.spec.completion.requireConsensus = true → VoteDecides e x)
          ∧ (e.spec.arbitration.requireUniqueWinner = true →
            FirstAlone (arbitrationInputs e x {}))) := by
  have hprepared : (prepareResult (Sample.reached Sample.restrictedAgreed).fabric ⟨1⟩ ⟨1⟩).2
      = .ok (Sample.prepared Sample.restrictedAgreed) := by decide +kernel
  have hdecision : (Sample.prepared Sample.restrictedAgreed).decision = .committed := by
    decide +kernel
  have hbefore : ((Sample.reached Sample.restrictedAgreed).fabric.find ⟨1⟩).any
      (fun e => e.spec.completion.requireConsensus && e.spec.arbitration.requireUniqueWinner
        && e.execution.any fun x => x.result.isNone
          && (arbitrationInputs e x {}).order.length == 2) = true := by decide +kernel
  simp only [Option.any_eq_true, Option.isNone_iff_eq_none, Bool.and_eq_true, beq_iff_eq]
    at hbefore
  obtain ⟨e, hfind, ⟨hconsensus, hunique⟩, x, hexecution, hundecided, htwo⟩ := hbefore
  exact ⟨e, x, hdecision, htwo, hconsensus, hunique, restrictions_honoured_iff {}
    Sample.restrictedAgreed ⟨1⟩ ⟨1⟩ _ e x hprepared hdecision hfind hexecution hundecided⟩

/-- Both flags are set, and a plurality without a threshold is committed in
favour of one of two eligible candidates that no factor tells apart. -/
theorem restrictedTwins_commits :
    ∃ e x, (Sample.reached Sample.restrictedTwins).fabric.find ⟨1⟩ = some e
      ∧ e.execution = some x ∧ x.result = none
      ∧ e.spec.completion.requireConsensus = true
      ∧ e.spec.arbitration.requireUniqueWinner = true
      ∧ (prepareResult (Sample.reached Sample.restrictedTwins).fabric ⟨1⟩ ⟨1⟩).2
        = .ok (Sample.prepared Sample.restrictedTwins)
      ∧ (Sample.prepared Sample.restrictedTwins).decision = .committed
      ∧ (Sample.prepared Sample.restrictedTwins).consensus.state = .pluralityWithoutThreshold
      ∧ ∃ selected ∈ x.candidates,
        selected.id = (Sample.prepared Sample.restrictedTwins).selectedCandidate
        ∧ ∃ c ∈ x.candidates, c.id ≠ selected.id ∧ passesHardChecks e x c = true
          ∧ ties e.spec.arbitration.factors (arbitrationInput e x c)
            (arbitrationInput e x selected) = true := by
  have hprepared : (prepareResult (Sample.reached Sample.restrictedTwins).fabric ⟨1⟩ ⟨1⟩).2
      = .ok (Sample.prepared Sample.restrictedTwins) := by decide +kernel
  have hdecision : (Sample.prepared Sample.restrictedTwins).decision = .committed
      ∧ (Sample.prepared Sample.restrictedTwins).consensus.state = .pluralityWithoutThreshold := by
    decide +kernel
  have hbefore : ((Sample.reached Sample.restrictedTwins).fabric.find ⟨1⟩).any
      (fun e => e.spec.completion.requireConsensus && e.spec.arbitration.requireUniqueWinner
        && e.execution.any fun x => x.result.isNone && x.candidates.any fun selected =>
          selected.id == (Sample.prepared Sample.restrictedTwins).selectedCandidate
            && x.candidates.any fun c => c.id != selected.id && (passesHardChecks e x c
              && ties e.spec.arbitration.factors (arbitrationInput e x c)
                (arbitrationInput e x selected))) = true := by
    decide +kernel
  simp only [Option.any_eq_true, Option.isNone_iff_eq_none, Bool.and_eq_true, List.any_eq_true,
    beq_iff_eq, bne_iff_ne] at hbefore
  obtain ⟨e, hfind, ⟨hconsensus, hunique⟩, x, hexecution, hundecided, selected, hmem, hselected,
    c, hc, hapart⟩ := hbefore
  exact ⟨e, x, hfind, hexecution, hundecided, hconsensus, hunique, hprepared, hdecision.1,
    hdecision.2, selected, hmem, hselected, c, hc, hapart⟩

end EnsembleFabric

import EnsembleFabric.Consensus

/-!
# Ties in the votes

The leader of a vote is the best tally by votes, then weight, then identity.
Several tallies that share the highest count are a tie, whoever of them
leads. The code looks for the tie where no threshold is configured and where
the threshold is missed; above a threshold that is met, the tied leader is
declared the consensus (`tie_reported_iff`).

`VotesCount` says that none of the terminal conditions ends the computation
before the votes are looked at, and `SharedMaximum` that two or more eligible
candidates have the highest number of accepts. Under both, the leader and the
best count behind it are that number, and the state is read off
`voteOutcome`. Weights play no part: they say which of the tied candidates
leads, and not that there is a tie.

The statement is about arbitrary inputs of `computeConsensus`, which covers
every state of every run.
-/

namespace EnsembleFabric

open Precedence

/-- The tallies of the eligible candidates. -/
def ConsensusInputs.eligibles (inputs : ConsensusInputs) : List CandidateTally :=
  inputs.tallies.filter (·.eligible)

/-- No terminal condition keeps the votes from being counted. -/
structure VotesCount (inputs : ConsensusInputs) : Prop where
  superseded : inputs.superseded = false
  revalidationRequired : inputs.revalidationRequired = false
  cancelled : inputs.cancelled = false
  required : (inputs.requiredParticipantFailed && inputs.requireAllRequired) = false
  quorum : inputs.quorum.state = .reached
  fallbackRequired : inputs.fallbackRequired = false

/-- Two or more eligible candidates share the highest number of agreeing
votes. -/
structure SharedMaximum (inputs : ConsensusInputs) (most : Nat) : Prop where
  positive : 0 < most
  highest : ∀ t ∈ inputs.eligibles, t.agreeing ≤ most
  shared : 2 ≤ inputs.eligibles.countP fun t => t.agreeing == most

theorem le_foldl_max (counts : List Nat) (start : Nat) :
    start ≤ counts.foldl max start ∧ ∀ n ∈ counts, n ≤ counts.foldl max start := by
  induction counts generalizing start with
  | nil => simp
  | cons count counts ih =>
    obtain ⟨hstart, hrest⟩ := ih (max start count)
    refine ⟨by rw [List.foldl_cons]; omega, fun n hn => ?_⟩
    rw [List.foldl_cons]
    rcases List.mem_cons.mp hn with rfl | hn
    · omega
    · exact hrest n hn

theorem foldl_max_le {counts : List Nat} {start bound : Nat} (hstart : start ≤ bound)
    (h : ∀ n ∈ counts, n ≤ bound) : counts.foldl max start ≤ bound := by
  induction counts generalizing start with
  | nil => exact hstart
  | cons count counts ih =>
    rw [List.foldl_cons]
    have hcount := h count List.mem_cons_self
    exact ih (by omega) fun n hn => h n (List.mem_cons_of_mem _ hn)

/-- The leader and the runner-up both have the shared maximum. -/
theorem SharedMaximum.leads {inputs : ConsensusInputs} {most : Nat}
    (h : SharedMaximum inputs most) :
    ∃ leader others, sortBy betterTally inputs.eligibles = leader :: others
      ∧ leader.agreeing = most ∧ (others.map (·.agreeing)).foldl max 0 = most := by
  have hperm := perm_sortBy betterTally inputs.eligibles
  have hcount := hperm.countP_eq (fun t => t.agreeing == most)
  cases horder : sortBy betterTally inputs.eligibles with
  | nil =>
    have hnone := sortBy_eq_nil.mp horder
    have hshared := h.shared
    rw [hnone] at hshared
    simp at hshared
  | cons leader others =>
    rw [horder] at hperm hcount
    have hmem : ∀ t, t ∈ inputs.eligibles ↔ t ∈ leader :: others := fun t => hperm.mem_iff.symm
    have hhead := leader_agreeing horder
    have hshared := h.shared
    rw [← hcount] at hshared
    obtain ⟨t, ht, hagreeing⟩ := List.countP_pos_iff.mp (by omega :
      0 < (leader :: others).countP fun t => t.agreeing == most)
    have hleader : leader.agreeing = most := by
      have hle := h.highest leader ((hmem leader).mpr List.mem_cons_self)
      have hge := hhead t ((hmem t).mpr ht)
      rw [beq_iff_eq] at hagreeing
      omega
    refine ⟨leader, others, rfl, hleader, ?_⟩
    rw [List.countP_cons, if_pos (beq_iff_eq.mpr hleader)] at hshared
    obtain ⟨second, hsecond, hagreeing⟩ := List.countP_pos_iff.mp (by omega :
      0 < others.countP fun t => t.agreeing == most)
    have hupper : (others.map (·.agreeing)).foldl max 0 ≤ most := by
      refine foldl_max_le (Nat.zero_le _) fun n hn => ?_
      obtain ⟨t, ht, rfl⟩ := List.mem_map.mp hn
      exact h.highest t ((hmem t).mpr (List.mem_cons_of_mem _ ht))
    have hlower := (le_foldl_max (others.map (·.agreeing)) 0).2 second.agreeing
      (List.mem_map_of_mem hsecond)
    rw [beq_iff_eq] at hagreeing
    omega

/-- The outcome of a tied vote. -/
theorem voteOutcome_tie_iff {inputs : ConsensusInputs} {eligibleCount : Nat}
    {leader : CandidateTally} (hpositive : 0 < leader.agreeing) :
    voteOutcome inputs eligibleCount leader leader.agreeing = .tie
      ↔ inputs.quorum.thresholdPercent = 0
        ∨ leader.agreeing < inputs.quorum.thresholdCount := by
  have hpercent : 0 < inputs.quorum.thresholdPercent ↔ inputs.quorum.thresholdPercent ≠ 0 := by
    rw [UInt32.lt_iff_toNat_lt, Ne, ← UInt32.toNat_inj]
    exact Nat.pos_iff_ne_zero
  rw [voteOutcome, if_neg (by omega)]
  by_cases hzero : inputs.quorum.thresholdPercent = 0
  · have hnot : ¬ 0 < inputs.quorum.thresholdPercent := fun h => hpercent.mp h hzero
    rw [if_neg fun h => hnot h.1, if_pos ⟨hnot, rfl⟩]
    exact iff_of_true rfl (.inl hzero)
  · have hthreshold := hpercent.mpr hzero
    by_cases hmissed : leader.agreeing < inputs.quorum.thresholdCount
    · rw [if_pos ⟨hthreshold, hmissed⟩, if_pos rfl]
      exact iff_of_true rfl (.inr hmissed)
    · rw [if_neg fun h => hmissed h.2, if_neg fun h => h.1 hthreshold]
      refine iff_of_false ?_ fun h => h.elim hzero hmissed
      repeat' split
      all_goals simp

/-- Where the votes count and several eligible candidates share the highest
number of agreeing votes, the reported state is a tie if and only if no
threshold is configured or the shared number is below it. -/
theorem tie_reported_iff (inputs : ConsensusInputs) (most : Nat) (hcount : VotesCount inputs)
    (hshared : SharedMaximum inputs most) :
    (computeConsensus inputs).state = .tie
      ↔ inputs.quorum.thresholdPercent = 0 ∨ most < inputs.quorum.thresholdCount := by
  obtain ⟨leader, others, horder, hleader, hrunner⟩ := hshared.leads
  have horder' : sortBy betterTally (inputs.tallies.filter (·.eligible)) = leader :: others :=
    horder
  have hstate : (computeConsensus inputs).state
      = voteOutcome inputs (leader :: others).length leader leader.agreeing := by
    simp only [computeConsensus, horder', hcount.superseded, hcount.revalidationRequired,
      hcount.cancelled, hcount.required, hcount.quorum, hcount.fallbackRequired, hrunner, hleader,
      Bool.false_eq_true, if_false, reduceCtorEq, ne_eq, not_true_eq_false]
  rw [hstate, ← hleader]
  exact voteOutcome_tie_iff (hleader ▸ hshared.positive)

namespace Sample

/-- A candidate with so many agreeing votes. -/
def tally (candidate : UInt64) (agreeing : Nat) : CandidateTally where
  candidate := ⟨candidate⟩
  generation := ⟨1⟩
  participant := ⟨candidate⟩
  eligible := true
  agreeing

/-- A counted vote under a threshold. -/
def ballot (percent : UInt32) (threshold : Nat) (tallies : List CandidateTally) :
    ConsensusInputs where
  quorum :=
    { state := .reached, denominator := 4, contributors := 4, thresholdPercent := percent
      thresholdCount := threshold }
  tallies
  candidatesDeclared := tallies.length
  invalidCandidates := 0
  requiredParticipantFailed := false
  requireAllRequired := false
  cancelled := false
  superseded := false
  revalidationRequired := false
  fallbackRequired := false
  requiresVotes := true
  ensembleGeneration := ⟨1⟩
  coordinatorEpoch := ⟨1⟩
  sequence := ⟨1⟩

/-- Four judges accept both of two candidates; half of them is the threshold. -/
def bothAccepted : ConsensusInputs := ballot 50 2 [tally 10 4, tally 11 4]

/-- The same without a threshold. -/
def bothAcceptedFreely : ConsensusInputs := ballot 0 0 [tally 10 4, tally 11 4]

end Sample

/-- Four judges accept both of two candidates, and no threshold is configured: the
consensus computation reports the tie. -/
theorem bothAcceptedFreely_tie :
    (computeConsensus Sample.bothAcceptedFreely).state = .tie
      ↔ Sample.bothAcceptedFreely.quorum.thresholdPercent = 0
        ∨ 4 < Sample.bothAcceptedFreely.quorum.thresholdCount :=
  tie_reported_iff Sample.bothAcceptedFreely 4 ⟨rfl, rfl, rfl, rfl, rfl, rfl⟩
    ⟨by decide, by decide, by decide⟩

/-- Both candidates have four of four votes, and the report calls the lower
identity the consensus. -/
theorem bothAccepted_consensus :
    VotesCount Sample.bothAccepted ∧ SharedMaximum Sample.bothAccepted 4
      ∧ (computeConsensus Sample.bothAccepted).state = .consensus
      ∧ (computeConsensus Sample.bothAccepted).leadingCandidate = ⟨10⟩
      ∧ (computeConsensus Sample.bothAccepted).runnerUpVotes = 4 :=
  ⟨⟨rfl, rfl, rfl, rfl, rfl, rfl⟩, ⟨by decide, by decide, by decide⟩, by decide +kernel,
    by decide +kernel, by decide +kernel⟩

end EnsembleFabric

import EnsembleFabric.Quorum
import EnsembleFabric.Library.Precedence

/-!
# Consensus

`computeConsensus` turns the quorum report and the vote tallies into a
typed outcome (`consensus.cpp`). Terminal conditions win over any vote
arithmetic, and disagreement, ties and missing evidence are outcomes of
their own.

The eligible tallies are sorted, most accepts first, then by weight, then
by identity, and the first of them leads. `voteOutcome` is the part of
the source behind the early returns: what the counts of the leader and
of the best tally behind it amount to. It reads integer counts only;
weights, which are doubles, decide who leads among equal counts.

The second half says what a counted outcome establishes, for the proofs
about ties, thresholds and disagreement:

- `computeConsensus_counted`: a resolved state and a tie come from
  counted votes only, and the report names the leader;
- `voteOutcome_threshold`: a resolved outcome of a required vote meets
  the threshold;
- `leader_agreeing`: no eligible tally has more accepts than the leader.
-/

namespace EnsembleFabric

open Precedence

inductive ConsensusState where
  | notEvaluated
  | consensus
  | consensusWithAbstentions
  | pluralityWithoutThreshold
  | quorumNotReached
  | quorumImpossible
  | disagreement
  | tie
  | insufficientEvidence
  | requiredParticipantFailed
  | allCandidatesInvalid
  | noEligibleCandidate
  | fallbackRequired
  | cancelled
  | superseded
  | revalidationRequired
  | committed
deriving DecidableEq

namespace ConsensusState

def toString : ConsensusState → String
  | .notEvaluated => "NOT_EVALUATED"
  | .consensus => "CONSENSUS"
  | .consensusWithAbstentions => "CONSENSUS_WITH_ABSTENTIONS"
  | .pluralityWithoutThreshold => "PLURALITY_WITHOUT_THRESHOLD"
  | .quorumNotReached => "QUORUM_NOT_REACHED"
  | .quorumImpossible => "QUORUM_IMPOSSIBLE"
  | .disagreement => "DISAGREEMENT"
  | .tie => "TIE"
  | .insufficientEvidence => "INSUFFICIENT_EVIDENCE"
  | .requiredParticipantFailed => "REQUIRED_PARTICIPANT_FAILED"
  | .allCandidatesInvalid => "ALL_CANDIDATES_INVALID"
  | .noEligibleCandidate => "NO_ELIGIBLE_CANDIDATE"
  | .fallbackRequired => "FALLBACK_REQUIRED"
  | .cancelled => "CANCELLED"
  | .superseded => "SUPERSEDED"
  | .revalidationRequired => "REVALIDATION_REQUIRED"
  | .committed => "COMMITTED"

def word : ConsensusState → UInt64
  | .notEvaluated => 0
  | .consensus => 1
  | .consensusWithAbstentions => 2
  | .pluralityWithoutThreshold => 3
  | .quorumNotReached => 4
  | .quorumImpossible => 5
  | .disagreement => 6
  | .tie => 7
  | .insufficientEvidence => 8
  | .requiredParticipantFailed => 9
  | .allCandidatesInvalid => 10
  | .noEligibleCandidate => 11
  | .fallbackRequired => 12
  | .cancelled => 13
  | .superseded => 14
  | .revalidationRequired => 15
  | .committed => 16

/-- `ConsensusReport::resolved`. -/
def resolved : ConsensusState → Bool
  | .consensus | .consensusWithAbstentions | .pluralityWithoutThreshold => true
  | _ => false

end ConsensusState

structure ConsensusReport where
  state : ConsensusState := .notEvaluated
  leadingCandidate : CandidateId := {}
  leadingGeneration : CandidateGeneration := {}
  leadingParticipant : ParticipantId := {}
  agreeing : Nat := 0
  disagreeing : Nat := 0
  abstaining : Nat := 0
  missing : Nat := 0
  invalidCandidates : Nat := 0
  eligibleCandidates : Nat := 0
  candidatesDeclared : Nat := 0
  thresholdPercent : UInt32 := 0
  thresholdCount : Nat := 0
  voteBasis : Nat := 0
  runnerUpVotes : Nat := 0
  unresolvedDisagreement : Bool := false
  ensembleGeneration : EnsembleGeneration := {}
  coordinatorEpoch : CoordinatorEpoch := {}
  computedSequence : Sequence := {}
  agreeingMembers : List ParticipantId := []
  disagreeingMembers : List ParticipantId := []
  abstainingMembers : List ParticipantId := []
  missingMembers : List ParticipantId := []
  eligibleCandidatesList : List CandidateId := []
deriving DecidableEq

def ConsensusReport.render (r : ConsensusReport) : String :=
  s!"consensus {r.state.toString} leading={r.leadingCandidate.toString}"
    ++ s!" agreeing={r.agreeing} disagreeing={r.disagreeing} abstaining={r.abstaining}"
    ++ s!" missing={r.missing} eligible={r.eligibleCandidates} invalid={r.invalidCandidates}"
    ++ s!" basis={r.voteBasis} threshold={r.thresholdCount}"
    ++ (if r.unresolvedDisagreement then " unresolved_disagreement=true" else "")

/-- Per-candidate vote tally. -/
structure CandidateTally where
  candidate : CandidateId
  generation : CandidateGeneration
  participant : ParticipantId
  eligible : Bool
  agreeing : Nat := 0
  disagreeing : Nat := 0
  abstaining : Nat := 0
  weightedAgree : Double := .zero
  agreeingMembers : List ParticipantId := []
  disagreeingMembers : List ParticipantId := []
  abstainingMembers : List ParticipantId := []
deriving DecidableEq

/-- Everything the consensus computation may look at. It is a value, so equal
inputs give equal reports. -/
structure ConsensusInputs where
  quorum : QuorumReport
  tallies : List CandidateTally
  candidatesDeclared : Nat
  invalidCandidates : Nat
  requiredParticipantFailed : Bool
  requireAllRequired : Bool
  cancelled : Bool
  superseded : Bool
  revalidationRequired : Bool
  fallbackRequired : Bool
  requiresVotes : Bool
  ensembleGeneration : EnsembleGeneration
  coordinatorEpoch : CoordinatorEpoch
  sequence : Sequence

def betterTally (lhs rhs : CandidateTally) : Bool :=
  if lhs.agreeing ≠ rhs.agreeing then decide (rhs.agreeing < lhs.agreeing)
  else if !lhs.weightedAgree.equal rhs.weightedAgree then rhs.weightedAgree.less lhs.weightedAgree
  else decide (lhs.candidate.value < rhs.candidate.value)

/-- The outcome once votes are counted: `leader` leads, `runnerUp` is the
best count behind it. -/
def voteOutcome (inputs : ConsensusInputs) (eligibleCount : Nat) (leader : CandidateTally)
    (runnerUp : Nat) : ConsensusState :=
  if leader.agreeing = 0 then
    if inputs.requiresVotes then .insufficientEvidence
    else if eligibleCount = 1 then .consensus else .pluralityWithoutThreshold
  else if 0 < inputs.quorum.thresholdPercent ∧ leader.agreeing < inputs.quorum.thresholdCount then
    if runnerUp = leader.agreeing then .tie else .disagreement
  else if ¬ 0 < inputs.quorum.thresholdPercent ∧ runnerUp = leader.agreeing then .tie
  else if 0 < inputs.quorum.abstentions then .consensusWithAbstentions
  else if inputs.quorum.thresholdPercent = 0 then .pluralityWithoutThreshold
  else .consensus

/-- The report before any outcome is decided. -/
def consensusBase (inputs : ConsensusInputs) (eligible : List CandidateTally) :
    ConsensusReport where
  invalidCandidates := inputs.invalidCandidates
  eligibleCandidates := eligible.length
  candidatesDeclared := inputs.candidatesDeclared
  thresholdPercent := inputs.quorum.thresholdPercent
  thresholdCount := inputs.quorum.thresholdCount
  voteBasis := inputs.quorum.denominator
  abstaining := inputs.quorum.abstentions
  abstainingMembers := inputs.quorum.abstainingMembers
  missing := inputs.quorum.denominator - inputs.quorum.contributors - inputs.quorum.abstentions
  ensembleGeneration := inputs.ensembleGeneration
  coordinatorEpoch := inputs.coordinatorEpoch
  computedSequence := inputs.sequence
  eligibleCandidatesList := (inputs.tallies.filter (·.eligible)).map (·.candidate)

def computeConsensus (inputs : ConsensusInputs) : ConsensusReport :=
  let eligible := sortBy betterTally (inputs.tallies.filter (·.eligible))
  let report := consensusBase inputs eligible
  if inputs.superseded then { report with state := .superseded }
  else if inputs.revalidationRequired then { report with state := .revalidationRequired }
  else if inputs.cancelled then { report with state := .cancelled }
  else if inputs.requiredParticipantFailed && inputs.requireAllRequired then
    { report with state := .requiredParticipantFailed }
  else if inputs.quorum.state = .impossible then { report with state := .quorumImpossible }
  else
    match eligible with
    | [] =>
        if 0 < inputs.candidatesDeclared ∧ inputs.candidatesDeclared ≤ inputs.invalidCandidates then
          { report with state := .allCandidatesInvalid }
        else { report with state := .noEligibleCandidate }
    | leader :: others =>
        if inputs.fallbackRequired then { report with state := .fallbackRequired }
        else if inputs.quorum.state ≠ .reached then { report with state := .quorumNotReached }
        else
          let runnerUp := (others.map (·.agreeing)).foldl max 0
          let disagreeing := others.flatMap (·.agreeingMembers) ++ leader.disagreeingMembers
          let state := voteOutcome inputs eligible.length leader runnerUp
          { report with
            state
            leadingCandidate := leader.candidate
            leadingGeneration := leader.generation
            leadingParticipant := leader.participant
            agreeing := leader.agreeing
            agreeingMembers := leader.agreeingMembers
            runnerUpVotes := runnerUp
            disagreeing := disagreeing.length
            disagreeingMembers := disagreeing
            unresolvedDisagreement := state = .tie ∨ state = .disagreement }

/-! ## What a counted outcome establishes -/

/-- More accepts come first, whatever the weights. -/
theorem betterTally_agreeing {a b : CandidateTally} (h : b.agreeing < a.agreeing) :
    betterTally a b = true ∧ betterTally b a = false := by
  simp [betterTally, h, h.ne, h.ne', h.le]

/-- Nobody behind a tally has more accepts. -/
theorem sortBy_betterTally (tallies : List CandidateTally) :
    (sortBy betterTally tallies).Pairwise fun a b => b.agreeing ≤ a.agreeing :=
  @sortBy_monotone CandidateTally Natᵒᵈ betterTally _ (fun t => OrderDual.toDual t.agreeing)
    (fun _ _ h => betterTally_agreeing h) tallies

theorem leader_agreeing {tallies others : List CandidateTally} {leader : CandidateTally}
    (h : sortBy betterTally tallies = leader :: others) :
    ∀ t ∈ tallies, t.agreeing ≤ leader.agreeing := by
  intro t ht
  have hsorted := sortBy_betterTally tallies
  have hmem : t ∈ sortBy betterTally tallies := mem_sortBy.mpr ht
  rw [h] at hsorted hmem
  rcases List.mem_cons.mp hmem with rfl | hbehind
  · exact le_rfl
  · exact (List.pairwise_cons.mp hsorted).1 t hbehind

/-- The votes were counted, and `leader` leads: there is an eligible tally, the
quorum is reached, and none of the terminal conditions held. -/
structure Counted (inputs : ConsensusInputs) (leader : CandidateTally)
    (others : List CandidateTally) : Prop where
  superseded : inputs.superseded = false
  revalidationRequired : inputs.revalidationRequired = false
  cancelled : inputs.cancelled = false
  required : inputs.requireAllRequired = true → inputs.requiredParticipantFailed = false
  fallbackRequired : inputs.fallbackRequired = false
  quorum : inputs.quorum.state = .reached
  order : sortBy betterTally (inputs.tallies.filter (·.eligible)) = leader :: others
  leading : (computeConsensus inputs).leadingCandidate = leader.candidate
  leadingGeneration : (computeConsensus inputs).leadingGeneration = leader.generation
  state : (computeConsensus inputs).state
    = voteOutcome inputs (others.length + 1) leader ((others.map (·.agreeing)).foldl max 0)

/-- A resolved state and a tie come from counted votes only. -/
theorem computeConsensus_counted {inputs : ConsensusInputs}
    (h : (computeConsensus inputs).state.resolved = true
      ∨ (computeConsensus inputs).state = .tie) :
    ∃ leader others, Counted inputs leader others := by
  by_cases hsuperseded : inputs.superseded = true
  · simp [computeConsensus, hsuperseded, ConsensusState.resolved] at h
  by_cases hrevalidation : inputs.revalidationRequired = true
  · simp [computeConsensus, hsuperseded, hrevalidation, ConsensusState.resolved] at h
  by_cases hcancelled : inputs.cancelled = true
  · simp [computeConsensus, hsuperseded, hrevalidation, hcancelled, ConsensusState.resolved] at h
  by_cases hrequired : (inputs.requiredParticipantFailed && inputs.requireAllRequired) = true
  · simp [computeConsensus, hsuperseded, hrevalidation, hcancelled, hrequired,
      ConsensusState.resolved] at h
  by_cases himpossible : inputs.quorum.state = .impossible
  · simp [computeConsensus, hsuperseded, hrevalidation, hcancelled, hrequired, himpossible,
      ConsensusState.resolved] at h
  cases horder : sortBy betterTally (inputs.tallies.filter (·.eligible)) with
  | nil =>
    simp only [computeConsensus, hsuperseded, hrevalidation, hcancelled, hrequired, himpossible,
      horder, if_false, Bool.false_eq_true] at h
    split at h <;> simp [ConsensusState.resolved] at h
  | cons leader others =>
    by_cases hfallback : inputs.fallbackRequired = true
    · simp [computeConsensus, hsuperseded, hrevalidation, hcancelled, hrequired, himpossible,
        horder, hfallback, ConsensusState.resolved] at h
    by_cases hquorum : inputs.quorum.state = .reached
    · refine ⟨leader, others, by simpa using hsuperseded, by simpa using hrevalidation,
        by simpa using hcancelled, fun hall => ?_, by simpa using hfallback, hquorum, horder,
        ?_, ?_, ?_⟩
      · simpa [hall] using hrequired
      all_goals
        simp [computeConsensus, hsuperseded, hrevalidation, hcancelled, hrequired, horder,
          hfallback, hquorum]
    · simp [computeConsensus, hsuperseded, hrevalidation, hcancelled, hrequired, himpossible,
        horder, hfallback, hquorum, ConsensusState.resolved] at h

/-- A resolved outcome of a vote that is required meets the threshold. -/
theorem voteOutcome_threshold {inputs : ConsensusInputs} {eligibleCount runnerUp : Nat}
    {leader : CandidateTally}
    (h : (voteOutcome inputs eligibleCount leader runnerUp).resolved = true)
    (hvotes : inputs.requiresVotes = true) (hpercent : 0 < inputs.quorum.thresholdPercent) :
    inputs.quorum.thresholdCount ≤ leader.agreeing := by
  by_contra hbelow
  have hlt : leader.agreeing < inputs.quorum.thresholdCount := Nat.lt_of_not_le hbelow
  by_cases hnone : leader.agreeing = 0
  · simp [voteOutcome, hnone, hvotes, ConsensusState.resolved] at h
  · rw [voteOutcome, if_neg hnone, if_pos ⟨hpercent, hlt⟩] at h
    split at h <;> cases h

/-- The consensus counts the leading tally, or nobody. -/
theorem computeConsensus_agreeing (inputs : ConsensusInputs) :
    ((computeConsensus inputs).agreeing = 0 ∧ (computeConsensus inputs).agreeingMembers = [])
      ∨ ∃ leader ∈ inputs.tallies, (computeConsensus inputs).agreeing = leader.agreeing
        ∧ (computeConsensus inputs).agreeingMembers = leader.agreeingMembers := by
  unfold computeConsensus
  cases horder : sortBy betterTally (inputs.tallies.filter (·.eligible)) with
  | nil =>
    left
    simp only
    repeat' split
    all_goals exact ⟨rfl, rfl⟩
  | cons leader others =>
    have hleader : leader ∈ inputs.tallies := by
      have hmem : leader ∈ sortBy betterTally _ := horder ▸ List.mem_cons_self
      exact (List.mem_filter.mp (mem_sortBy.mp hmem)).1
    simp only
    repeat' split
    all_goals first
      | exact .inl ⟨rfl, rfl⟩
      | exact .inr ⟨leader, hleader, rfl, rfl⟩

end EnsembleFabric

import EnsembleFabric.Spec

/-!
# Quorum

`computeQuorum` decides from the membership and the votes whether the
quorum policy is met (`quorum.cpp`). Votes are deduplicated by `voteKey`
first: one participant generation casts at most one vote per candidate.

The denominator counts the members that the vote basis and the inclusion
rules leave in (`inDenominator`). The state compares it, the evaluations,
the valid candidates and the role quotas with what the policy asks for,
and the failures and abstentions with what it allows. A quorum that
misses a member or a role nobody can fill any more is impossible; any
other one that misses something is not reached yet.

The threshold of consensus is computed here as well, a share of the
denominator rounded up to whole members (`percentageCeiling`), but the
state of the quorum does not depend on it: `Consensus` compares it with
the votes. `computeQuorum_thresholdCount` relates the two for every
policy.

Counts are natural numbers; the only count the source narrows is the
threshold, and `percentageCeiling` keeps its width. The report carries
every count, so that the decision can be audited from the report alone.
-/

namespace EnsembleFabric

inductive QuorumState where
  | notEvaluated
  | reached
  | notReached
  | impossible
  | lost
deriving DecidableEq

def QuorumState.toString : QuorumState → String
  | .notEvaluated => "NOT_EVALUATED"
  | .reached => "REACHED"
  | .notReached => "NOT_REACHED"
  | .impossible => "IMPOSSIBLE"
  | .lost => "LOST"

/-- The auditable quorum computation. -/
structure QuorumReport where
  state : QuorumState := .notEvaluated
  basis : VoteBasis := .authoritativeParticipants
  denominator : Nat := 0
  contributors : Nat := 0
  abstentions : Nat := 0
  failures : Nat := 0
  excludedOptional : Nat := 0
  excludedUnavailable : Nat := 0
  excludedStale : Nat := 0
  requiredTotal : Nat := 0
  requiredPresent : Nat := 0
  evaluations : Nat := 0
  validCandidates : Nat := 0
  duplicateVotesSuppressed : Nat := 0
  staleVotesRejected : Nat := 0
  thresholdPercent : UInt32 := 0
  thresholdCount : Nat := 0
  leadingVotes : Nat := 0
  roleQuotaMet : Nat := 0
  roleQuotaRequired : Nat := 0
  failureBudgetExceeded : Bool := false
  abstentionBudgetExceeded : Bool := false
  ensembleGeneration : EnsembleGeneration := {}
  coordinatorEpoch : CoordinatorEpoch := {}
  computedSequence : Sequence := {}
  members : List ParticipantId := []
  memberGenerations : List ParticipantGeneration := []
  contributorsList : List ParticipantId := []
  abstainingMembers : List ParticipantId := []
  failedMembers : List ParticipantId := []
  notes : List String := []
deriving DecidableEq

def QuorumReport.render (r : QuorumReport) : String :=
  s!"quorum {r.state.toString} basis={r.basis.toString} denominator={r.denominator}"
    ++ s!" contributors={r.contributors} abstentions={r.abstentions} failures={r.failures}"
    ++ s!" evaluations={r.evaluations} valid_candidates={r.validCandidates}"
    ++ s!" threshold_count={r.thresholdCount} role_quota={r.roleQuotaMet}/{r.roleQuotaRequired}"
    ++ s!" generation={r.ensembleGeneration.toString} epoch={r.coordinatorEpoch.toString}"

/-! ## Votes and members -/

/-- A vote cast by one participant generation for one candidate. -/
structure EligibleVote where
  participant : ParticipantId
  generation : ParticipantGeneration
  role : ParticipantRole
  candidate : CandidateId
  candidateGeneration : CandidateGeneration
  weight : Double
  abstained : Bool
deriving DecidableEq

structure VoteKey where
  participant : ParticipantId
  generation : ParticipantGeneration
  candidate : CandidateId
deriving DecidableEq

def voteKey (v : EligibleVote) : VoteKey := ⟨v.participant, v.generation, v.candidate⟩

structure QuorumMember where
  participant : ParticipantId
  generation : ParticipantGeneration
  roles : RoleSet
  required : Bool
  authorized : Bool
  available : Bool
  failed : Bool
  fallback : Bool
  roleAvailable : Bool
deriving DecidableEq

/-- Keeps the first vote of every key, in the order of the votes. A later vote
under the same key is dropped, whatever it says. -/
def uniqueVotes (votes : List EligibleVote) : List EligibleVote :=
  votes.foldl
    (fun unique vote =>
      if unique.any (voteKey · == voteKey vote) then unique else unique ++ [vote]) []

/-- A share of a count, rounded up to whole members. -/
def percentageCeiling (total : Nat) (percent : UInt32) : Nat :=
  if percent = 0 then 0 else (total * percent.toNat + 99) / 100 % 2 ^ 32

theorem percentageCeiling_eq {total : Nat} {percent : UInt32} (ht : total < 2 ^ 32)
    (hp : percent.toNat ≤ 100) :
    percentageCeiling total percent = (total * percent.toNat + 99) / 100 := by
  unfold percentageCeiling
  split
  · rename_i hz
    subst hz
    simp
  · have hle : (total * percent.toNat + 99) / 100 ≤ total := by
      have : total * percent.toNat ≤ total * 100 := Nat.mul_le_mul_left _ hp
      omega
    exact Nat.mod_eq_of_lt (by omega)

/-- The members counted by `p`. -/
def countMembers (members : List QuorumMember) (p : QuorumMember → Bool) : Nat :=
  (members.filter p).length

/-- Whether a member forms part of the quorum denominator: the vote basis lets it
in, and none of the inclusion rules leaves it out. -/
def inDenominator (policy : QuorumPolicy) (contributed abstained : ParticipantId → Bool)
    (m : QuorumMember) : Bool :=
  (match policy.voteBasis with
    | .declaredParticipants => true
    | .authoritativeParticipants => m.authorized
    | .contributingParticipants => contributed m.participant || abstained m.participant
    | .requiredParticipants => m.required
    | .eligibleParticipants => m.authorized && m.available && !m.failed)
  && (policy.countOptionalParticipants || m.required)
  && (policy.countFailedInDenominator || !m.failed)
  && (policy.countUnavailableInDenominator || m.available)

/-- A member that could still act. A role quota that members who could still act
cannot fill makes the quorum impossible. -/
def canContribute (m : QuorumMember) : Bool :=
  m.authorized && m.available && !m.failed && m.roleAvailable

/-- The largest number of non-abstaining votes on one candidate. -/
def leadingVotes (decided : List EligibleVote) : Nat :=
  (decided.map fun v => (decided.filter (·.candidate == v.candidate)).length).foldl max 0

/-! ## The computation -/

def computeQuorum (policy : QuorumPolicy) (membership : List QuorumMember)
    (votes : List EligibleVote) (validCandidates : Nat)
    (ensembleGeneration : EnsembleGeneration) (epoch : CoordinatorEpoch)
    (computedSequence : Sequence) : QuorumReport :=
  let unique := uniqueVotes votes
  let decided := unique.filter (!·.abstained)
  let contributed := fun id : ParticipantId => decided.any (·.participant == id)
  let abstained := fun id : ParticipantId =>
    unique.any fun v => v.abstained && v.participant == id
  let denominator := membership.filter (inDenominator policy contributed abstained)
  let failed := membership.filter (·.failed)
  let contributing := denominator.filter (contributed ·.participant)
  let abstaining := denominator.filter fun m =>
    !contributed m.participant && abstained m.participant
  let quotaCount := fun q : RoleQuota =>
    countMembers denominator fun m => m.roles.contains q.role && m.authorized && m.roleAvailable
  let quotaMet := policy.roleQuota.filter fun q => q.minCount.toNat ≤ quotaCount q
  let quotaMissed := policy.roleQuota.filter fun q => !(q.minCount.toNat ≤ quotaCount q)
  let achievable := countMembers membership canContribute
  let quotaAchievable := policy.roleQuota.all fun q =>
    q.minCount.toNat ≤ countMembers membership fun m => m.roles.contains q.role && canContribute m
  let participantRequirementMet := policy.minParticipants.toNat ≤ denominator.length
  let roleRequirementMet := quotaMet.length = policy.roleQuota.length
  let evaluationRequirementMet := policy.minEvaluations.toNat ≤ unique.length
  let candidateRequirementMet := policy.minValidCandidates.toNat ≤ validCandidates
  let failureBudgetExceeded :=
    policy.maxFailures != unbounded && policy.maxFailures.toNat < failed.length
  let abstentionBudgetExceeded :=
    policy.maxAbstentions != unbounded && policy.maxAbstentions.toNat < abstaining.length
  let quotaNotes := quotaMissed.map fun q =>
    s!"role quota for {q.role.toString} not met: have {quotaCount q}, need {q.minCount.toNat}"
  let state : QuorumState :=
    if ¬ participantRequirementMet ∨ quotaAchievable = false then .impossible
    else if participantRequirementMet ∧ roleRequirementMet ∧ evaluationRequirementMet
        ∧ candidateRequirementMet ∧ failureBudgetExceeded = false
        ∧ abstentionBudgetExceeded = false then .reached
    else .notReached
  let stateNotes :=
    match state with
    | .impossible =>
        [s!"quorum is impossible: denominator {denominator.length} with {achievable} member(s) "
          ++ "still capable of contributing"]
    | .notReached =>
        (if participantRequirementMet then [] else
          [s!"denominator {denominator.length} is below the required minimum "
            ++ s!"{policy.minParticipants.toNat}"])
        ++ (if evaluationRequirementMet then [] else
          [s!"evaluations {unique.length} are below the required minimum "
            ++ s!"{policy.minEvaluations.toNat}"])
        ++ (if candidateRequirementMet then [] else
          [s!"valid candidates {validCandidates} are below the required minimum "
            ++ s!"{policy.minValidCandidates.toNat}"])
    | _ => []
  { state
    basis := policy.voteBasis
    denominator := denominator.length
    contributors := contributing.length
    abstentions := abstaining.length
    failures := failed.length
    excludedOptional := countMembers membership (!·.required)
    excludedUnavailable := countMembers membership (!·.available)
    excludedStale := countMembers membership (!·.authorized)
    requiredTotal := countMembers membership (·.required)
    requiredPresent := countMembers membership fun m => m.required && contributed m.participant
    evaluations := unique.length
    validCandidates
    duplicateVotesSuppressed := votes.length - unique.length
    thresholdPercent := policy.consensusThresholdPercent
    thresholdCount :=
      if 0 < policy.consensusThresholdPercent then
        percentageCeiling denominator.length policy.consensusThresholdPercent
      else 0
    leadingVotes := leadingVotes decided
    roleQuotaMet := quotaMet.length
    roleQuotaRequired := policy.roleQuota.length
    failureBudgetExceeded
    abstentionBudgetExceeded
    ensembleGeneration
    coordinatorEpoch := epoch
    computedSequence
    members := denominator.map (·.participant)
    memberGenerations := denominator.map (·.generation)
    contributorsList := contributing.map (·.participant)
    abstainingMembers := abstaining.map (·.participant)
    failedMembers := failed.map (·.participant)
    notes := quotaNotes ++ stateNotes }

section Threshold

variable (policy : QuorumPolicy) (membership : List QuorumMember) (votes : List EligibleVote)
  (validCandidates : Nat) (generation : EnsembleGeneration) (epoch : CoordinatorEpoch)
  (sequence : Sequence)

theorem computeQuorum_thresholdCount :
    (computeQuorum policy membership votes validCandidates generation epoch
        sequence).thresholdCount
      = percentageCeiling (computeQuorum policy membership votes validCandidates generation epoch
          sequence).denominator policy.consensusThresholdPercent := by
  unfold computeQuorum
  simp only
  split
  · rfl
  · rename_i h
    have hz : policy.consensusThresholdPercent = 0 := by
      simpa [UInt32.lt_iff_toNat_lt, ← UInt32.toNat_inj] using h
    simp [percentageCeiling, hz]

theorem computeQuorum_denominator_le :
    (computeQuorum policy membership votes validCandidates generation epoch
      sequence).denominator ≤ membership.length :=
  List.length_filter_le _ _

end Threshold

end EnsembleFabric

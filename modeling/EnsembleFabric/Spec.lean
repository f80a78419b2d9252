import EnsembleFabric.Participant

/-!
# Ensemble specifications

The first-class, generation-bound specification of an ensemble: its
participants and stages and the policies that decide it (`spec.hpp`,
`spec.cpp`). A specification is validated before it becomes a generation
(`validateSpec`), so impossible policies are refused at definition time.

The checks are in the order of the source, each with its code and its
message, since a caller sees the first one that fails. The loops of the
source over participants, stages, quotas and criteria are `forEachAfter`:
each element is checked against those before it.

The enumerations are inductive types: an out-of-range enumerator cannot
be built, and the range checks of the source on factors and triggers
have nothing left to refuse. Counts and bounds are words of the widths of
the source; sums over them are made on natural numbers and compared with
the bound, which is what the checked additions of the source do.

The fingerprint is a hash over the policy-relevant content, value by
value in the order of the source (`computeSpecFingerprint`). What a
section feeds is a list (`participantDigest`, `quorumDigest`, ...), so
what the hash does not cover can be read off the lists.
-/

namespace EnsembleFabric

/-! ## Policies -/

/-- The sentinel for "no limit configured". -/
def unbounded : UInt32 := 0xFFFFFFFF

inductive TopologyMode where
  | parallel
  | sequential
deriving DecidableEq

def TopologyMode.word : TopologyMode → UInt64
  | .parallel => 1
  | .sequential => 2

/-- One ordered stage of an ensemble plan. -/
structure StageSpec where
  id : StageId
  label : String := ""
  mode : TopologyMode := .parallel
  participants : List ParticipantId := []
  requiredDomains : List String := []
  fallbackStage : Bool := false
deriving DecidableEq

structure RoleQuota where
  role : ParticipantRole := .candidate
  minCount : UInt32 := 0
deriving DecidableEq

/-- Which set forms the denominator of the quorum fraction. -/
inductive VoteBasis where
  | declaredParticipants
  | authoritativeParticipants
  | contributingParticipants
  | requiredParticipants
  | eligibleParticipants
deriving DecidableEq

namespace VoteBasis

def toString : VoteBasis → String
  | .declaredParticipants => "DECLARED_PARTICIPANTS"
  | .authoritativeParticipants => "AUTHORITATIVE_PARTICIPANTS"
  | .contributingParticipants => "CONTRIBUTING_PARTICIPANTS"
  | .requiredParticipants => "REQUIRED_PARTICIPANTS"
  | .eligibleParticipants => "ELIGIBLE_PARTICIPANTS"

def word : VoteBasis → UInt64
  | .declaredParticipants => 1
  | .authoritativeParticipants => 2
  | .contributingParticipants => 3
  | .requiredParticipants => 4
  | .eligibleParticipants => 5

end VoteBasis

structure QuorumPolicy where
  minParticipants : UInt32 := 0
  roleQuota : List RoleQuota := []
  minEvaluations : UInt32 := 0
  minValidCandidates : UInt32 := 1
  consensusThresholdPercent : UInt32 := 0
  voteBasis : VoteBasis := .authoritativeParticipants
  countAbstentions : Bool := false
  countOptionalParticipants : Bool := true
  countFailedInDenominator : Bool := false
  countUnavailableInDenominator : Bool := false
  maxFailures : UInt32 := unbounded
  maxAbstentions : UInt32 := unbounded
deriving DecidableEq

inductive AggregationKind where
  | bestOfN
  | quorumVote
  | weightedVote
  | consensusThreshold
  | judgeArbitration
  | verifierGated
deriving DecidableEq

def AggregationKind.word : AggregationKind → UInt64
  | .bestOfN => 1
  | .quorumVote => 2
  | .weightedVote => 3
  | .consensusThreshold => 4
  | .judgeArbitration => 5
  | .verifierGated => 6

structure AggregationPolicy where
  kind : AggregationKind := .bestOfN
  useWeights : Bool := false
  requireVerificationPass : Bool := false
  requireJudgeAcceptance : Bool := false
  minAggregateScore : Double := {}
  minJudgeAcceptanceRatio : Double := {}
deriving DecidableEq

/-- Ordered arbitration factors. Hard eligibility is not a factor. -/
inductive ArbitrationFactor where
  | judgeAcceptanceRatio
  | verifierState
  | voteCount
  | weightedVote
  | aggregateScore
  | minScore
  | confidence
  | participantPriority
  | specialistRelevance
  | executionCost
  | latency
  | provenanceQuality
  | fallbackStatus
deriving DecidableEq

namespace ArbitrationFactor

def toString : ArbitrationFactor → String
  | .judgeAcceptanceRatio => "judge_acceptance_ratio"
  | .verifierState => "verifier_state"
  | .voteCount => "vote_count"
  | .weightedVote => "weighted_vote"
  | .aggregateScore => "aggregate_score"
  | .minScore => "min_score"
  | .confidence => "confidence"
  | .participantPriority => "participant_priority"
  | .specialistRelevance => "specialist_relevance"
  | .executionCost => "execution_cost"
  | .latency => "latency"
  | .provenanceQuality => "provenance_quality"
  | .fallbackStatus => "fallback_status"

def word : ArbitrationFactor → UInt64
  | .judgeAcceptanceRatio => 1
  | .verifierState => 2
  | .voteCount => 3
  | .weightedVote => 4
  | .aggregateScore => 5
  | .minScore => 6
  | .confidence => 7
  | .participantPriority => 8
  | .specialistRelevance => 9
  | .executionCost => 10
  | .latency => 11
  | .provenanceQuality => 12
  | .fallbackStatus => 13

end ArbitrationFactor

/-- What happens when two candidates are indistinguishable on every
configured factor. -/
inductive TieBreakPolicy where
  | reportTie
  | lowestCandidateId
  | highestScoreThenId
  | preferRequiredParticipant
deriving DecidableEq

namespace TieBreakPolicy

def toString : TieBreakPolicy → String
  | .reportTie => "REPORT_TIE"
  | .lowestCandidateId => "LOWEST_CANDIDATE_ID"
  | .highestScoreThenId => "HIGHEST_SCORE_THEN_ID"
  | .preferRequiredParticipant => "PREFER_REQUIRED_PARTICIPANT"

def word : TieBreakPolicy → UInt64
  | .reportTie => 1
  | .lowestCandidateId => 2
  | .highestScoreThenId => 3
  | .preferRequiredParticipant => 4

end TieBreakPolicy

structure ArbitrationPolicy where
  factors : List ArbitrationFactor := []
  tieBreak : TieBreakPolicy := .lowestCandidateId
  requireUniqueWinner : Bool := false
  maxSelected : UInt32 := 1
deriving DecidableEq

/-- Typed conditions that authorize fallback activation. -/
inductive FallbackTrigger where
  | participantUnavailable
  | retryExhausted
  | quorumImpossible
  | requiredRoleUnavailable
  | allPrimaryInvalid
  | judgeDisagreement
  | insufficientEvidence
  | requiredParticipantFailed
deriving DecidableEq

def FallbackTrigger.word : FallbackTrigger → UInt64
  | .participantUnavailable => 1
  | .retryExhausted => 2
  | .quorumImpossible => 3
  | .requiredRoleUnavailable => 4
  | .allPrimaryInvalid => 5
  | .judgeDisagreement => 6
  | .insufficientEvidence => 7
  | .requiredParticipantFailed => 8

structure FallbackPolicy where
  enabled : Bool := false
  triggers : List FallbackTrigger := []
  fallbackParticipants : List ParticipantId := []
  eagerSpeculative : Bool := false
  maxDepth : UInt32 := 1
deriving DecidableEq

structure CompletionPolicy where
  requireConsensus : Bool := false
  requireAllRequiredParticipants : Bool := false
  allowPartialResults : Bool := true
deriving DecidableEq

structure RetryPolicy where
  maxAttempts : UInt32 := 1
  retryOnUnavailable : Bool := true
  retryOnTransportError : Bool := false
  retryOnMalformedCandidate : Bool := false
  retryOnParticipantFailed : Bool := false
  replaceParticipant : Bool := false
  rerunEvaluations : Bool := true
deriving DecidableEq

structure CancellationPolicy where
  cancelOnRequiredFailure : Bool := false
  cancelOnQuorumImpossible : Bool := false
  preserveCommittedResults : Bool := true
deriving DecidableEq

/-- Evidence the ensemble requires before a candidate is complete. -/
structure EvidenceRequirement where
  minCandidatePayloadBytes : UInt32 := 0
  minEvaluationsPerCandidate : UInt32 := 0
  requireRationale : Bool := false
  mandatoryCriteria : List CriterionRef := []
  unknownVerificationIsFailure : Bool := true
  abstentionIsFailure : Bool := false
deriving DecidableEq

/-- A specification: who takes part, in which stages, under which policies.
Unlike its defaults, a specification that runs has been validated. -/
structure EnsembleSpec where
  id : EnsembleId
  generation : EnsembleGeneration := {}
  label : String := ""
  taskClass : String := ""
  taskClassId : UInt32 := 0
  participants : List ParticipantSpec := []
  stages : List StageSpec := []
  quorum : QuorumPolicy := {}
  aggregation : AggregationPolicy := {}
  arbitration : ArbitrationPolicy := {}
  fallback : FallbackPolicy := {}
  completion : CompletionPolicy := {}
  retry : RetryPolicy := {}
  cancellation : CancellationPolicy := {}
  evidence : EvidenceRequirement := {}
  judgingCriteria : List CriterionRef := []
  requirements : CompatibilityRequirement := {}
  overallBudgetUnits : UInt32 := 0
  deterministicSeed : UInt64 := 0
  fingerprint : UInt64 := 0
deriving DecidableEq

namespace EnsembleSpec

/-- `find_participant(spec, id)`. -/
def findParticipant (spec : EnsembleSpec) (id : ParticipantId) : Option ParticipantSpec :=
  spec.participants.find? (·.id == id)

/-- The stages an ensemble executes; without explicit stages every
candidate-producing participant runs in one implicit parallel stage. Fallback
participants are in it only if they are to run from the start. -/
def effectiveStages (spec : EnsembleSpec) : List StageSpec :=
  if !spec.stages.isEmpty then spec.stages
  else
    let members := spec.participants.filter fun p =>
      p.roles.contains .candidate || p.roles.contains .specialist
        || (spec.fallback.eagerSpeculative && p.roles.contains .fallback)
    if members.isEmpty then []
    else [{ id := ⟨1⟩, label := "implicit", mode := .parallel, participants := members.map (·.id) }]

/-- Participants that evaluate other participants' work. -/
def evaluatingParticipants (spec : EnsembleSpec) : List ParticipantSpec :=
  spec.participants.filter fun p => p.roles.contains .judge || p.roles.contains .verifier

/-- `judging_criteria(spec)`: the criteria a judge applies. -/
def judgeCriteria (spec : EnsembleSpec) : List CriterionRef :=
  if spec.judgingCriteria.isEmpty then [⟨1, 1⟩] else spec.judgingCriteria

end EnsembleSpec

/-! ## Validation -/

def checkBounded (text : String) (maxBytes : UInt32) (what : String) : Status :=
  require (isBoundedAscii text maxBytes) .invalidArgument
    s!"spec: {what} must be printable ASCII within the configured metadata bound"

/-- The roles that produce content. -/
def producesContent (roles : RoleSet) : Bool :=
  roles.contains .candidate || roles.contains .specialist || roles.contains .fallback

/-- One participant declaration, after the declarations before it. -/
def validateParticipant (limits : Limits) (earlier : List ParticipantSpec)
    (p : ParticipantSpec) : Status := do
  require p.id.valid .invalidArgument "spec: participant identity is absent"
  require (!earlier.any (·.id == p.id)) .participantDuplicate
    s!"spec: participant identity {p.id.toString} is declared twice"
  require (!p.roles.isEmpty) .invalidArgument
    s!"spec: participant {p.id.toString} has no role"
  checkBounded p.label limits.maxLabelBytes "participant label"
  checkBounded p.domain limits.maxMetadataBytes "participant domain"
  require (p.compatibility.minProtocolVersion != 0) .invalidArgument
    s!"spec: participant {p.id.toString} requires a zero protocol version"

def validateStageMember (spec : EnsembleSpec) (stage : StageSpec) (id : ParticipantId) : Status :=
  match spec.findParticipant id with
  | none => fail .invalidArgument
      s!"spec: stage {stage.id.toString} references undeclared participant {id.toString}"
  | some p => require (producesContent p.roles) .invalidArgument
      (s!"spec: stage {stage.id.toString} references participant {id.toString} which holds no "
        ++ "candidate-producing role")

def validateStageDomain (limits : Limits) (spec : EnsembleSpec) (stage : StageSpec)
    (domain : String) : Status := do
  checkBounded domain limits.maxMetadataBytes "required domain"
  require (stage.participants.any fun id =>
      (spec.findParticipant id).any (·.domain == domain)) .invalidArgument
    (s!"spec: stage {stage.id.toString} requires domain '{domain}' but no listed participant "
      ++ "declares it")

/-- One stage, after the stages before it. -/
def validateStage (limits : Limits) (spec : EnsembleSpec) (earlier : List StageSpec)
    (stage : StageSpec) : Status := do
  require stage.id.valid .invalidArgument "spec: stage identity is absent"
  require (!earlier.any (·.id == stage.id)) .invalidArgument
    s!"spec: stage identity {stage.id.toString} is declared twice"
  require (!stage.participants.isEmpty) .invalidArgument
    s!"spec: stage {stage.id.toString} has no participants"
  require (stage.participants.length ≤ limits.maxParallelBranches.toNat) .resourceLimitExceeded
    "spec: a stage exceeds the configured parallel-branch bound"
  stage.participants.forM (validateStageMember spec stage)
  stage.requiredDomains.forM (validateStageDomain limits spec stage)

/-- One role quota, before the quotas after it. -/
def validateQuota (roles : RoleSet) (later : List RoleQuota) (quota : RoleQuota) : Status := do
  require (quota.minCount != 0) .invalidArgument "spec: a role quota requires a positive count"
  require (roles.contains quota.role) .invalidArgument
    s!"spec: role quota names role {quota.role.toString} which no participant holds"
  require (!later.any (·.role == quota.role)) .invalidArgument "spec: duplicate role quota entry"

def validateFallbackMember (spec : EnsembleSpec) (id : ParticipantId) : Status :=
  match spec.findParticipant id with
  | none => fail .invalidArgument
      s!"spec: fallback references undeclared participant {id.toString}"
  | some p => require (p.roles.contains .fallback) .invalidArgument
      s!"spec: fallback participant {id.toString} does not hold the FALLBACK role"

def validateFallback (limits : Limits) (spec : EnsembleSpec) : Status :=
  if spec.fallback.enabled then do
    require (!spec.fallback.triggers.isEmpty) .invalidArgument
      "spec: fallback is enabled without an explicit activation condition"
    require (!spec.fallback.fallbackParticipants.isEmpty) .invalidArgument
      "spec: fallback is enabled without fallback participants"
    spec.fallback.fallbackParticipants.forM (validateFallbackMember spec)
    require (spec.fallback.maxDepth != 0 && spec.fallback.maxDepth ≤ limits.maxFallbackDepth)
      .invalidArgument "spec: fallback depth is outside the configured bound"
  else
    require spec.fallback.fallbackParticipants.isEmpty .invalidArgument
      "spec: fallback participants declared while fallback is disabled"

/-- One criterion of a criterion list; `what` names the list. -/
def validateCriterion (what : String) (earlier : List CriterionRef) (c : CriterionRef) :
    Status := do
  require c.valid .invalidArgument s!"spec: a {what} criterion has a zero identity"
  require (!earlier.contains c) .invalidArgument s!"spec: duplicate {what} criterion"

/-- Runs a check over a list; each element sees the elements before it. The first
check that fails ends the run with its error. -/
def forEachAfter {α : Type} (check : List α → α → Status) (xs : List α) : Status :=
  xs.zipIdx.forM fun (x, index) => check (xs.take index) x

/-- Declared candidates of the explicit stages, accumulated under the bound. -/
def totalDeclared (limits : Limits) (stages : List StageSpec) : Option Nat :=
  stages.foldlM (fun total stage =>
    checkedAdd total stage.participants.length limits.maxCandidatesPerExecution.toNat) 0

def validateSpec (spec : EnsembleSpec) (limits : Limits) : Status := do
  limits.validate
  require spec.id.valid .invalidArgument "spec: ensemble identity is absent"
  checkBounded spec.label limits.maxLabelBytes "ensemble label"
  checkBounded spec.taskClass limits.maxMetadataBytes "task class"
  require (!spec.participants.isEmpty) .invalidArgument
    "spec: an ensemble needs at least one participant"
  require (spec.participants.length ≤ limits.maxParticipantsPerEnsemble.toNat)
    .resourceLimitExceeded "spec: participant count exceeds the configured bound"
  require (spec.stages.length ≤ limits.maxStagesPerEnsemble.toNat) .resourceLimitExceeded
    "spec: stage count exceeds the configured bound"
  require (spec.quorum.roleQuota.length ≤ limits.maxRoleQuotaEntries.toNat)
    .resourceLimitExceeded "spec: role quota entry count exceeds the configured bound"
  require (spec.quorum.consensusThresholdPercent ≤ 100) .invalidArgument
    "spec: consensus threshold percentage must be between 0 and 100"
  require (spec.arbitration.maxSelected == 1) .invalidArgument
    "spec: exactly one authoritative result is selected; max_selected must be 1"
  forEachAfter (validateParticipant limits) spec.participants
  let allRoles := spec.participants.foldl (fun roles p => roles.merge p.roles) {}
  require (spec.participants.any (producesContent ·.roles)) .invalidArgument
    "spec: an ensemble needs at least one candidate-producing participant"
  forEachAfter (validateStage limits spec) spec.stages
  spec.quorum.roleQuota.zipIdx.forM fun (quota, index) =>
    validateQuota allRoles (spec.quorum.roleQuota.drop (index + 1)) quota
  require (!spec.aggregation.requireVerificationPass || allRoles.contains .verifier)
    .invalidArgument "spec: verifier-gated aggregation requires a verifier participant"
  require (!spec.aggregation.requireJudgeAcceptance || allRoles.contains .judge)
    .invalidArgument "spec: judge-gated aggregation requires a judge participant"
  require spec.arbitration.factors.Nodup .invalidArgument "spec: duplicate arbitration factor"
  require spec.fallback.triggers.Nodup .invalidArgument "spec: duplicate fallback trigger"
  validateFallback limits spec
  require (spec.retry.maxAttempts != 0) .invalidArgument
    "spec: retry policy must allow at least one attempt"
  -- `max_retries + 1u` is 32-bit arithmetic and wraps
  require (spec.retry.maxAttempts ≤ limits.maxRetries + 1) .resourceLimitExceeded
    "spec: retry attempts exceed the configured bound"
  forEachAfter (validateCriterion "mandatory") spec.evidence.mandatoryCriteria
  forEachAfter (validateCriterion "judging") spec.judgingCriteria
  require (spec.quorum.minValidCandidates ≤ limits.maxCandidatesPerExecution)
    .resourceLimitExceeded "spec: minimum valid candidates exceeds the configured candidate bound"
  require (totalDeclared limits spec.stages).isSome .resourceLimitExceeded
    "spec: declared candidates exceed the configured candidate bound"
  require (!spec.stages.isEmpty
      || (spec.participants.filter fun p =>
            p.roles.contains .candidate || p.roles.contains .specialist).length
          ≤ limits.maxCandidatesPerExecution.toNat) .resourceLimitExceeded
    "spec: implied candidate count exceeds the configured bound"
  require (!(spec.completion.requireAllRequiredParticipants && spec.quorum.maxFailures != 0
      && spec.quorum.maxFailures != unbounded)) .invalidArgument
    "spec: completion requires all required participants while a failure budget allows failures"

/-! ## Fingerprint -/

def flagWord (b : Bool) : UInt64 := if b then 1 else 0

/-- One value of a fingerprint: a word or a text. The source hashes a text byte by
byte, without its length. -/
inductive Digested where
  | word (value : UInt64)
  | text (value : String)

def fnv1a64Extend (hash : UInt64) : Digested → UInt64
  | .word value => fnv1a64Word hash value
  | .text value => fnv1a64Text hash value

/-- Extends the FNV offset basis by each value in turn. -/
def fnv1a64 (values : List Digested) : UInt64 := values.foldl fnv1a64Extend fnvOffset

def countWord {α : Type} (xs : List α) : UInt64 := UInt64.ofNat xs.length

namespace EnsembleSpec

def participantDigest (p : ParticipantSpec) : List Digested :=
  [.word p.id.value, .text p.label, .word p.roles.mask.toUInt64, .word (flagWord p.required),
   .text p.domain, .word p.priority.toUInt64, .word p.executionBudgetUnits.toUInt64,
   .word p.compatibility.minProtocolVersion.toUInt64,
   .word p.compatibility.requiredCapabilities.toUInt64,
   .word p.compatibility.requiredTaskClass.toUInt64,
   .word p.compatibility.requiredOutputSchema.toUInt64,
   .word p.compatibility.excludedModelFamily.toUInt64,
   .word p.compatibility.requiredBackendFeatures.toUInt64]

def stageDigest (s : StageSpec) : List Digested :=
  [.word s.id.value, .text s.label, .word s.mode.word, .word (countWord s.participants)]
    ++ s.participants.map (.word ·.value) ++ s.requiredDomains.map .text

def criteriaDigest (cs : List CriterionRef) : List Digested :=
  .word (countWord cs) :: cs.flatMap fun c => [.word c.id.toUInt64, .word c.version.toUInt64]

def quorumDigest (q : QuorumPolicy) : List Digested :=
  [.word q.minParticipants.toUInt64, .word (countWord q.roleQuota)]
    ++ (q.roleQuota.flatMap fun r => [.word r.role.word, .word r.minCount.toUInt64])
    ++ [.word q.minEvaluations.toUInt64, .word q.minValidCandidates.toUInt64,
        .word q.consensusThresholdPercent.toUInt64, .word q.voteBasis.word,
        .word (flagWord q.countAbstentions), .word (flagWord q.countOptionalParticipants),
        .word (flagWord q.countFailedInDenominator),
        .word (flagWord q.countUnavailableInDenominator),
        .word q.maxFailures.toUInt64, .word q.maxAbstentions.toUInt64]

def aggregationDigest (a : AggregationPolicy) : List Digested :=
  [.word a.kind.word, .word (flagWord a.useWeights), .word (flagWord a.requireVerificationPass),
   .word (flagWord a.requireJudgeAcceptance), .word a.minAggregateScore.bits,
   .word a.minJudgeAcceptanceRatio.bits]

def arbitrationDigest (a : ArbitrationPolicy) : List Digested :=
  [.word (countWord a.factors)] ++ a.factors.map (.word ·.word)
    ++ [.word a.tieBreak.word, .word (flagWord a.requireUniqueWinner),
        .word a.maxSelected.toUInt64]

def fallbackDigest (f : FallbackPolicy) : List Digested :=
  [.word (flagWord f.enabled), .word (countWord f.triggers)] ++ f.triggers.map (.word ·.word)
    ++ [.word (countWord f.fallbackParticipants)]
    ++ f.fallbackParticipants.map (.word ·.value)
    ++ [.word (flagWord f.eagerSpeculative), .word f.maxDepth.toUInt64]

def lifecycleDigest (spec : EnsembleSpec) : List Digested :=
  [.word (flagWord spec.completion.requireConsensus),
   .word (flagWord spec.completion.requireAllRequiredParticipants),
   .word (flagWord spec.completion.allowPartialResults),
   .word spec.retry.maxAttempts.toUInt64, .word (flagWord spec.retry.retryOnUnavailable),
   .word (flagWord spec.retry.retryOnTransportError),
   .word (flagWord spec.retry.retryOnMalformedCandidate),
   .word (flagWord spec.retry.retryOnParticipantFailed),
   .word (flagWord spec.retry.replaceParticipant), .word (flagWord spec.retry.rerunEvaluations),
   .word (flagWord spec.cancellation.cancelOnRequiredFailure),
   .word (flagWord spec.cancellation.cancelOnQuorumImpossible),
   .word (flagWord spec.cancellation.preserveCommittedResults)]

def evidenceDigest (e : EvidenceRequirement) : List Digested :=
  [.word e.minCandidatePayloadBytes.toUInt64, .word e.minEvaluationsPerCandidate.toUInt64,
   .word (flagWord e.requireRationale)]
    ++ criteriaDigest e.mandatoryCriteria
    ++ [.word (flagWord e.unknownVerificationIsFailure), .word (flagWord e.abstentionIsFailure)]

def requirementsDigest (r : CompatibilityRequirement) : List Digested :=
  [.word r.minProtocolVersion.toUInt64, .word r.requiredCapabilities.toUInt64,
   .word r.requiredTaskClass.toUInt64, .word r.requiredOutputSchema.toUInt64,
   .word r.excludedModelFamily.toUInt64, .word r.requiredBackendFeatures.toUInt64,
   .word (flagWord r.requireModelFamilyDiversity)]

/-- The canonical digest over the policy-relevant content. -/
def computeSpecFingerprint (spec : EnsembleSpec) : UInt64 :=
  fnv1a64 <|
    [.text spec.label, .text spec.taskClass, .word spec.taskClassId.toUInt64]
      ++ [.word (countWord spec.participants)] ++ spec.participants.flatMap participantDigest
      ++ [.word (countWord spec.stages)] ++ spec.stages.flatMap stageDigest
      ++ quorumDigest spec.quorum ++ aggregationDigest spec.aggregation
      ++ arbitrationDigest spec.arbitration ++ fallbackDigest spec.fallback
      ++ lifecycleDigest spec ++ evidenceDigest spec.evidence
      ++ criteriaDigest spec.judgingCriteria ++ requirementsDigest spec.requirements
      ++ [.word spec.overallBudgetUnits.toUInt64, .word spec.deterministicSeed]

end EnsembleSpec

end EnsembleFabric

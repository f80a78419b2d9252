import EnsembleFabric.MessageCodec
import EnsembleFabric.Validation

/-!
# The specification codec

A specification crosses the wire and goes to disk as a run of its fields
(`encodeSpec`, in `fabric_persist.cpp`). The decoder goes through the same
fields in the same order and width; it bounds what it reads by the limits,
has every enumerator, role bit and boolean be one that exists, is to use up
its input and validates what it has read (`decodeSpec`).

For each part of the source there is a `put` and a `get` of its name, the
encoder's and the decoder's half, side by side. Policies that the source
writes in place have a pair of their own as well, so that no definition is
longer than a screen and the proofs follow the parts.

`putSpec` is everything the encoder writes, without its bound on the size;
`getSpec` is what the decoder reads before it validates. A decoded
specification has been validated, an encoded one need not be.
-/

namespace EnsembleFabric

open Decoder (failed u8 u16 u32 u64 boolean f64 labelled)

/-! ## Enumerators -/

def TopologyMode.number (mode : TopologyMode) : UInt8 := mode.word.toUInt8

def TopologyMode.cast : UInt8 → Option TopologyMode :=
  enumerator [.parallel, .sequential] 1 2

def VoteBasis.number (basis : VoteBasis) : UInt8 := basis.word.toUInt8

def VoteBasis.cast : UInt8 → Option VoteBasis :=
  enumerator [.declaredParticipants, .authoritativeParticipants, .contributingParticipants,
    .requiredParticipants, .eligibleParticipants] 1 5

def AggregationKind.number (kind : AggregationKind) : UInt8 := kind.word.toUInt8

def AggregationKind.cast : UInt8 → Option AggregationKind :=
  enumerator [.bestOfN, .quorumVote, .weightedVote, .consensusThreshold, .judgeArbitration,
    .verifierGated] 1 6

def ArbitrationFactor.number (factor : ArbitrationFactor) : UInt8 := factor.word.toUInt8

def ArbitrationFactor.cast : UInt8 → Option ArbitrationFactor :=
  enumerator [.judgeAcceptanceRatio, .verifierState, .voteCount, .weightedVote, .aggregateScore,
    .minScore, .confidence, .participantPriority, .specialistRelevance, .executionCost, .latency,
    .provenanceQuality, .fallbackStatus] 1 13

def TieBreakPolicy.number (tie : TieBreakPolicy) : UInt8 := tie.word.toUInt8

def TieBreakPolicy.cast : UInt8 → Option TieBreakPolicy :=
  enumerator [.reportTie, .lowestCandidateId, .highestScoreThenId, .preferRequiredParticipant] 1 4

def FallbackTrigger.number (trigger : FallbackTrigger) : UInt8 := trigger.word.toUInt8

def FallbackTrigger.cast : UInt8 → Option FallbackTrigger :=
  enumerator [.participantUnavailable, .retryExhausted, .quorumImpossible,
    .requiredRoleUnavailable, .allPrimaryInvalid, .judgeDisagreement, .insufficientEvidence,
    .requiredParticipantFailed] 1 8

/-! ## Sub-codecs -/

/-- `get_enum` -/
def getEnum {α : Type} (cast : UInt8 → Option α) (what : String) : Decoder α :=
  Decoder.enum u8 cast s!"invalid {what} value in serialized input"

/-- `out.string(text)` -/
def putText (text : String) : List Write := Encoder.string (textBytes text)

/-- `get_string` -/
def getString (maxBytes : UInt32) (what : String) : Decoder String := do
  let value ← labelled what (Decoder.string maxBytes)
  return bytesText value

def putId {domain : IdDomain} (id : StrongId domain) : List Write := Encoder.u64 id.value

def getId {domain : IdDomain} : Decoder (StrongId domain) := do
  let value ← u64
  return ⟨value⟩

def putCriterion : CriterionRef → List Write := encodeCriterion

def getCriterion : Decoder CriterionRef := decodeCriterion

def putCompatibilityRequirement (requirement : CompatibilityRequirement) : List Write :=
  [ Encoder.u16 requirement.minProtocolVersion,
    Encoder.u32 requirement.requiredCapabilities,
    Encoder.u32 requirement.requiredTaskClass,
    Encoder.u32 requirement.requiredOutputSchema,
    Encoder.u32 requirement.excludedModelFamily,
    Encoder.u32 requirement.requiredBackendFeatures,
    Encoder.boolean requirement.requireModelFamilyDiversity ].flatten

def getCompatibilityRequirement : Decoder CompatibilityRequirement := do
  let version ← u16
  let capabilities ← labelled "required_capabilities" u32
  let taskClass ← labelled "required_task_class" u32
  let outputSchema ← labelled "required_output_schema" u32
  let modelFamily ← labelled "excluded_model_family" u32
  let features ← labelled "required_backend_features" u32
  let diversity ← boolean
  return { minProtocolVersion := version, requiredCapabilities := capabilities,
           requiredTaskClass := taskClass, requiredOutputSchema := outputSchema,
           excludedModelFamily := modelFamily, requiredBackendFeatures := features,
           requireModelFamilyDiversity := diversity }

/-- `has_override`, and the override if there is one. -/
def putOverride : Option Bool → List Write
  | none => Encoder.boolean false
  | some value => Encoder.boolean true ++ Encoder.boolean value

def getOverride : Decoder (Option Bool) := do
  let hasOverride ← boolean
  if hasOverride then
    let value ← boolean
    return some value
  else
    return none

def putParticipantSpec (participant : ParticipantSpec) : List Write :=
  [ putId participant.id,
    putText participant.label,
    Encoder.u32 participant.roles.mask,
    Encoder.boolean participant.required,
    putText participant.domain,
    Encoder.u32 participant.priority,
    Encoder.u32 participant.executionBudgetUnits,
    putOverride participant.selectableOverride,
    putCompatibilityRequirement participant.compatibility ].flatten

def getParticipantSpec (limits : Limits) : Decoder ParticipantSpec := do
  let id ← getId
  let label ← getString limits.maxLabelBytes "participant label"
  let roles ← Decoder.enum u32 RoleSet.cast "participant declares an unknown role bit"
  let required ← boolean
  let domain ← getString limits.maxMetadataBytes "participant domain"
  let priority ← u32
  let budget ← u32
  let selectableOverride ← getOverride
  let compatibility ← getCompatibilityRequirement
  return { id, label, roles, required, domain, priority, executionBudgetUnits := budget,
           selectableOverride, compatibility }

def putStageSpec (stage : StageSpec) : List Write :=
  [ putId stage.id,
    putText stage.label,
    Encoder.u8 stage.mode.number,
    Encoder.list putId stage.participants,
    Encoder.list putText stage.requiredDomains,
    Encoder.boolean stage.fallbackStage ].flatten

def getStageSpec (limits : Limits) : Decoder StageSpec := do
  let id ← getId
  let label ← getString limits.maxLabelBytes "stage label"
  let mode ← getEnum TopologyMode.cast "topology mode"
  let participants ← Decoder.list limits.maxParallelBranches
    "declared stage participant count exceeds the configured bound" getId
  let domains ← Decoder.list limits.maxParticipantsPerEnsemble
    "declared domain count exceeds the configured bound"
    (getString limits.maxMetadataBytes "required domain")
  let fallback ← boolean
  return { id, label, mode, participants, requiredDomains := domains, fallbackStage := fallback }

def putRoleQuota (quota : RoleQuota) : List Write :=
  [ Encoder.u8 quota.role.number,
    Encoder.u32 quota.minCount ].flatten

def getRoleQuota : Decoder RoleQuota := do
  let role ← getEnum ParticipantRole.cast "participant role"
  let count ← u32
  return { role, minCount := count }

def putQuorumPolicy (policy : QuorumPolicy) : List Write :=
  [ Encoder.u32 policy.minParticipants,
    Encoder.list putRoleQuota policy.roleQuota,
    Encoder.u32 policy.minEvaluations,
    Encoder.u32 policy.minValidCandidates,
    Encoder.u32 policy.consensusThresholdPercent,
    Encoder.u8 policy.voteBasis.number,
    Encoder.boolean policy.countAbstentions,
    Encoder.boolean policy.countOptionalParticipants,
    Encoder.boolean policy.countFailedInDenominator,
    Encoder.boolean policy.countUnavailableInDenominator,
    Encoder.u32 policy.maxFailures,
    Encoder.u32 policy.maxAbstentions ].flatten

def getQuorumPolicy (limits : Limits) : Decoder QuorumPolicy := do
  let minimum ← u32
  let quotas ← Decoder.list limits.maxRoleQuotaEntries
    "declared role quota count exceeds the configured bound" getRoleQuota
  let evaluations ← u32
  let candidates ← u32
  let threshold ← u32
  let basis ← getEnum VoteBasis.cast "vote basis"
  let countAbstentions ← labelled "count_abstentions" boolean
  let countOptional ← labelled "count_optional_participants" boolean
  let countFailed ← labelled "count_failed_in_denominator" boolean
  let countUnavailable ← labelled "count_unavailable_in_denominator" boolean
  let failures ← u32
  let abstentions ← u32
  return { minParticipants := minimum, roleQuota := quotas, minEvaluations := evaluations,
           minValidCandidates := candidates, consensusThresholdPercent := threshold,
           voteBasis := basis, countAbstentions, countOptionalParticipants := countOptional,
           countFailedInDenominator := countFailed,
           countUnavailableInDenominator := countUnavailable, maxFailures := failures,
           maxAbstentions := abstentions }

def putEvidenceRequirement (evidence : EvidenceRequirement) : List Write :=
  [ Encoder.u32 evidence.minCandidatePayloadBytes,
    Encoder.u32 evidence.minEvaluationsPerCandidate,
    Encoder.boolean evidence.requireRationale,
    Encoder.list putCriterion evidence.mandatoryCriteria,
    Encoder.boolean evidence.unknownVerificationIsFailure,
    Encoder.boolean evidence.abstentionIsFailure ].flatten

def getEvidenceRequirement (limits : Limits) : Decoder EvidenceRequirement := do
  let payload ← u32
  if limits.maxCandidatePayloadBytes < payload then
    failed .resourceLimitExceeded "minimum candidate payload exceeds the configured bound"
  else
    let evaluations ← u32
    let rationale ← boolean
    -- the bound is 32-bit arithmetic and wraps
    let criteria ← Decoder.list (limits.maxRoleQuotaEntries * 4)
      "declared criterion count exceeds the configured bound" getCriterion
    let unknown ← boolean
    let abstention ← boolean
    return { minCandidatePayloadBytes := payload, minEvaluationsPerCandidate := evaluations,
             requireRationale := rationale, mandatoryCriteria := criteria,
             unknownVerificationIsFailure := unknown, abstentionIsFailure := abstention }

/-! ### Policies written in place -/

def putAggregationPolicy (aggregation : AggregationPolicy) : List Write :=
  [ Encoder.u8 aggregation.kind.number,
    Encoder.boolean aggregation.useWeights,
    Encoder.boolean aggregation.requireVerificationPass,
    Encoder.boolean aggregation.requireJudgeAcceptance,
    Encoder.f64 aggregation.minAggregateScore,
    Encoder.f64 aggregation.minJudgeAcceptanceRatio ].flatten

def getAggregationPolicy : Decoder AggregationPolicy := do
  let kind ← getEnum AggregationKind.cast "aggregation kind"
  let useWeights ← boolean
  let requireVerificationPass ← boolean
  let requireJudgeAcceptance ← boolean
  let minScore ← f64
  let minRatio ← f64
  return { kind, useWeights, requireVerificationPass, requireJudgeAcceptance,
           minAggregateScore := minScore, minJudgeAcceptanceRatio := minRatio }

def putArbitrationPolicy (arbitration : ArbitrationPolicy) : List Write :=
  [ Encoder.list (fun factor => Encoder.u8 factor.number) arbitration.factors,
    Encoder.u8 arbitration.tieBreak.number,
    Encoder.boolean arbitration.requireUniqueWinner,
    Encoder.u32 arbitration.maxSelected ].flatten

def getArbitrationPolicy : Decoder ArbitrationPolicy := do
  let factors ← Decoder.list 16 "declared arbitration factor count exceeds the configured bound"
    (getEnum ArbitrationFactor.cast "arbitration factor")
  let tie ← getEnum TieBreakPolicy.cast "tie break policy"
  let unique ← boolean
  let selected ← u32
  return { factors, tieBreak := tie, requireUniqueWinner := unique, maxSelected := selected }

def putFallbackPolicy (fallback : FallbackPolicy) : List Write :=
  [ Encoder.boolean fallback.enabled,
    Encoder.list (fun trigger => Encoder.u8 trigger.number) fallback.triggers,
    Encoder.list putId fallback.fallbackParticipants,
    Encoder.boolean fallback.eagerSpeculative,
    Encoder.u32 fallback.maxDepth ].flatten

def getFallbackPolicy (limits : Limits) : Decoder FallbackPolicy := do
  let enabled ← boolean
  let triggers ← Decoder.list 8 "declared fallback trigger count exceeds the configured bound"
    (getEnum FallbackTrigger.cast "fallback trigger")
  let fallbackParticipants ← Decoder.list limits.maxParticipantsPerEnsemble
    "declared fallback participant count exceeds the configured bound" getId
  let eager ← boolean
  let depth ← u32
  return { enabled, triggers, fallbackParticipants, eagerSpeculative := eager, maxDepth := depth }

def putCompletionPolicy (completion : CompletionPolicy) : List Write :=
  [ Encoder.boolean completion.requireConsensus,
    Encoder.boolean completion.requireAllRequiredParticipants,
    Encoder.boolean completion.allowPartialResults ].flatten

def getCompletionPolicy : Decoder CompletionPolicy := do
  let requireConsensus ← boolean
  let requireAllRequiredParticipants ← boolean
  let allowPartialResults ← boolean
  return { requireConsensus, requireAllRequiredParticipants, allowPartialResults }

def putRetryPolicy (retry : RetryPolicy) : List Write :=
  [ Encoder.u32 retry.maxAttempts,
    Encoder.boolean retry.retryOnUnavailable,
    Encoder.boolean retry.retryOnTransportError,
    Encoder.boolean retry.retryOnMalformedCandidate,
    Encoder.boolean retry.retryOnParticipantFailed,
    Encoder.boolean retry.replaceParticipant,
    Encoder.boolean retry.rerunEvaluations ].flatten

def getRetryPolicy : Decoder RetryPolicy := do
  let attempts ← u32
  let retryOnUnavailable ← boolean
  let retryOnTransportError ← boolean
  let retryOnMalformedCandidate ← boolean
  let retryOnParticipantFailed ← boolean
  let replaceParticipant ← boolean
  let rerunEvaluations ← boolean
  return { maxAttempts := attempts, retryOnUnavailable, retryOnTransportError,
           retryOnMalformedCandidate, retryOnParticipantFailed, replaceParticipant,
           rerunEvaluations }

def putCancellationPolicy (cancellation : CancellationPolicy) : List Write :=
  [ Encoder.boolean cancellation.cancelOnRequiredFailure,
    Encoder.boolean cancellation.cancelOnQuorumImpossible,
    Encoder.boolean cancellation.preserveCommittedResults ].flatten

def getCancellationPolicy : Decoder CancellationPolicy := do
  let cancelOnRequiredFailure ← boolean
  let cancelOnQuorumImpossible ← boolean
  let preserveCommittedResults ← boolean
  return { cancelOnRequiredFailure, cancelOnQuorumImpossible, preserveCommittedResults }

/-! ## Specifications -/

/-- Everything `encode_spec` writes. -/
def putSpec (spec : EnsembleSpec) : List Write :=
  [ -- reserved for forward-compatible extensions
    Encoder.u32 0,
    putId spec.id,
    putId spec.generation,
    putText spec.label,
    putText spec.taskClass,
    Encoder.u32 spec.taskClassId,
    Encoder.u64 spec.fingerprint,
    Encoder.list putParticipantSpec spec.participants,
    Encoder.list putStageSpec spec.stages,
    putQuorumPolicy spec.quorum,
    putAggregationPolicy spec.aggregation,
    putArbitrationPolicy spec.arbitration,
    putFallbackPolicy spec.fallback,
    putCompletionPolicy spec.completion,
    putRetryPolicy spec.retry,
    putCancellationPolicy spec.cancellation,
    putEvidenceRequirement spec.evidence,
    Encoder.list putCriterion spec.judgingCriteria,
    putCompatibilityRequirement spec.requirements,
    Encoder.u32 spec.overallBudgetUnits,
    Encoder.u64 spec.deterministicSeed ].flatten

/-- The fields of a specification, before it is validated. -/
def getSpec (limits : Limits) : Decoder EnsembleSpec := do
  let reserved ← u32
  if reserved ≠ 0 then
    failed .unsupportedVersion "specification encoding uses an unsupported extension word"
  else
    let id ← getId
    let generation ← getId
    let label ← getString limits.maxLabelBytes "ensemble label"
    let taskClass ← getString limits.maxMetadataBytes "task class"
    let taskClassId ← u32
    let fingerprint ← u64
    let participants ← Decoder.list limits.maxParticipantsPerEnsemble
      "declared participant count exceeds the configured bound" (getParticipantSpec limits)
    let stages ← Decoder.list limits.maxStagesPerEnsemble
      "declared stage count exceeds the configured bound" (getStageSpec limits)
    let quorum ← getQuorumPolicy limits
    let aggregation ← getAggregationPolicy
    let arbitration ← getArbitrationPolicy
    let fallback ← getFallbackPolicy limits
    let completion ← getCompletionPolicy
    let retry ← getRetryPolicy
    let cancellation ← getCancellationPolicy
    let evidence ← getEvidenceRequirement limits
    let judging ← Decoder.list 16
      "declared judging criterion count exceeds the configured bound" getCriterion
    let requirements ← getCompatibilityRequirement
    let budget ← u32
    let seed ← u64
    return { id, generation, label, taskClass, taskClassId, participants, stages, quorum,
             aggregation, arbitration, fallback, completion, retry, cancellation, evidence,
             judgingCriteria := judging, requirements, overallBudgetUnits := budget,
             deterministicSeed := seed, fingerprint }

def encodeSpec (spec : EnsembleSpec) (limits : Limits) : List UInt8 :=
  Encoder.buffer limits (putSpec spec)

/-- `Decoder::require_exhausted` -/
def requireExhausted (context : String) (remaining : List UInt8) : Status :=
  require remaining.isEmpty .trailingData
    s!"{context}: {remaining.length} trailing byte(s) after the declared content"

/-- The specification in a run of bytes. What is left over, what is out of its
bounds and what the validator rejects is an error. -/
def decodeSpec (data : List UInt8) (limits : Limits) : Outcome EnsembleSpec := do
  let (spec, remaining) ← (getSpec limits).run data
  requireExhausted "ensemble specification" remaining
  validateSpec spec limits
  return spec

end EnsembleFabric

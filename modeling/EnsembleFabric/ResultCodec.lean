import EnsembleFabric.Result
import EnsembleFabric.SpecCodec

/-!
# The result codec

A result crosses the wire and goes to disk with everything it embeds: the
three reports, every candidate payload and every evaluation
(`encodeResultPayload`, in `fabric_persist.cpp`). The encoder checks
nothing; the decoder bounds each part by the limits, one after the other
(`decodeResultPayload`). A factor value of a ranking is written bit by bit,
whatever double it is.

The parts are put and got in pairs, as in `SpecCodec`. Counters of the
reports are natural numbers in the model and 32-bit words on the wire; what
is written for a counter that does not fit is its residue, so a round trip
asks that it fits. Error codes are written by their position, and the gap
between the codes that exist is read as nothing a record could hold.
-/

namespace EnsembleFabric

open Decoder (failed u8 u16 u32 u64 boolean f64 i64 counter)

/-! ## Enumerators -/

def QuorumState.number (state : QuorumState) : UInt8 := UInt8.ofNat state.ctorIdx

def QuorumState.cast : UInt8 → Option QuorumState :=
  enumerator [.notEvaluated, .reached, .notReached, .impossible, .lost] 0 4

def ConsensusState.number (state : ConsensusState) : UInt8 := state.word.toUInt8

def ConsensusState.cast : UInt8 → Option ConsensusState :=
  enumerator [.notEvaluated, .consensus, .consensusWithAbstentions, .pluralityWithoutThreshold,
    .quorumNotReached, .quorumImpossible, .disagreement, .tie, .insufficientEvidence,
    .requiredParticipantFailed, .allCandidatesInvalid, .noEligibleCandidate, .fallbackRequired,
    .cancelled, .superseded, .revalidationRequired, .committed] 0 16

def EliminationReason.number (reason : EliminationReason) : UInt8 := UInt8.ofNat reason.ctorIdx

def EliminationReason.cast : UInt8 → Option EliminationReason :=
  enumerator [.none, .notAContentState, .invalidCandidate, .failedAttempt, .abstained,
    .staleGeneration, .superseded, .cancelled, .participantNotAuthoritative,
    .incompatibleParticipant, .verifierFailed, .hardPredicateFailed, .missingRequiredEvidence,
    .belowMinimumScore, .insufficientJudgeAcceptance, .notSelectableRole, .lostRanking, .tieLost,
    .fallbackNotSelected] 0 18

def CandidateState.number (state : CandidateState) : UInt8 := UInt8.ofNat (state.ctorIdx + 1)

def CandidateState.cast : UInt8 → Option CandidateState :=
  enumerator [.declared, .dispatched, .outputReceived, .valid, .invalid, .eligible, .rejected,
    .selected, .superseded, .cancelled, .failed, .abstained, .retired] 1 13

def ParticipantStatus.number (status : ParticipantStatus) : UInt8 :=
  UInt8.ofNat (status.ctorIdx + 1)

def ParticipantStatus.cast : UInt8 → Option ParticipantStatus :=
  enumerator [.current, .unavailable, .failed, .fenced, .revalidationRequired, .retired] 1 6

/-- The error codes by their numbers. -/
def EnsembleError.all : List EnsembleError :=
  [.ok, .invalidArgument, .resourceLimitExceeded, .unsupportedVersion, .notFound, .unknownEnsemble,
    .unknownExecution, .unknownParticipant, .unknownCandidate, .unknownEvaluation,
    .staleEnsembleGeneration, .staleExecutionGeneration, .staleParticipantGeneration,
    .staleWorkerBoot, .staleCoordinatorEpoch, .staleCandidateGeneration,
    .staleEvaluationGeneration, .participantNotAuthoritative, .participantUnavailable,
    .participantIncompatible, .participantRoleMismatch, .participantDuplicate,
    .participantRevalidationRequired, .participantFailed, .requiredParticipantFailed,
    .malformedCandidate, .malformedEvaluation, .malformedFrame, .malformedPersistence,
    .checksumMismatch, .trailingData, .protocolError, .invalidEnumValue,
    .invalidIdentityCombination, .payloadTooLarge, .invalidStateTransition, .duplicateCompletion,
    .duplicateEvaluation, .conflictingEvaluation, .duplicateDispatch, .executionNotOpen,
    .evaluationTargetMismatch, .quorumImpossible, .quorumNotReached, .insufficientEvidence,
    .allCandidatesInvalid, .consensusNotReached, .disagreementUnresolved, .tieUnresolved,
    .fallbackNotAuthorized, .fallbackExhausted, .resultAlreadyCommitted,
    .conflictingResultCommit, .noEligibleCandidate, .ensembleCancelled, .ensembleSuperseded,
    .executionCancelled, .revalidationRequired, .persistenceIoError, .persistenceCorruption,
    .transportError, .internalError]

/-- Up to the last code; a number between that no code has is none of the
values a record holds here. The source keeps such a number as it is. -/
def EnsembleError.cast (value : UInt16) : Option EnsembleError :=
  EnsembleError.all.find? fun code => code.number == value

/-! ## Reports -/

def putIdList (ids : List ParticipantId) : List Write := Encoder.list putId ids

def getIdList (maxCount : UInt32) : Decoder (List ParticipantId) :=
  Decoder.list maxCount "declared identity list exceeds the configured bound" getId

/-- The notes of a report. -/
def getNotes (limits : Limits) (what : String) : Decoder (List String) :=
  Decoder.list limits.maxExplanationEntries "declared note count exceeds the configured bound"
    (getString limits.maxMetadataBytes what)

def putQuorumReport (report : QuorumReport) : List Write :=
  [ Encoder.u8 report.state.number,
    Encoder.u8 report.basis.number,
    Encoder.counter report.denominator,
    Encoder.counter report.contributors,
    Encoder.counter report.abstentions,
    Encoder.counter report.failures,
    Encoder.counter report.excludedOptional,
    Encoder.counter report.excludedUnavailable,
    Encoder.counter report.excludedStale,
    Encoder.counter report.requiredTotal,
    Encoder.counter report.requiredPresent,
    Encoder.counter report.evaluations,
    Encoder.counter report.validCandidates,
    Encoder.counter report.duplicateVotesSuppressed,
    Encoder.counter report.staleVotesRejected,
    Encoder.u32 report.thresholdPercent,
    Encoder.counter report.thresholdCount,
    Encoder.counter report.leadingVotes,
    Encoder.counter report.roleQuotaMet,
    Encoder.counter report.roleQuotaRequired,
    Encoder.boolean report.failureBudgetExceeded,
    Encoder.boolean report.abstentionBudgetExceeded,
    putId report.ensembleGeneration,
    putId report.coordinatorEpoch,
    putId report.computedSequence,
    putIdList report.members,
    Encoder.list putId report.memberGenerations,
    putIdList report.contributorsList,
    putIdList report.abstainingMembers,
    putIdList report.failedMembers,
    Encoder.list putText report.notes ].flatten

def getQuorumReport (limits : Limits) : Decoder QuorumReport := do
  let state ← getEnum QuorumState.cast "quorum state"
  let basis ← getEnum VoteBasis.cast "vote basis"
  let denominator ← counter
  let contributors ← counter
  let abstentions ← counter
  let failures ← counter
  let excludedOptional ← counter
  let excludedUnavailable ← counter
  let excludedStale ← counter
  let requiredTotal ← counter
  let requiredPresent ← counter
  let evaluations ← counter
  let validCandidates ← counter
  let duplicateVotesSuppressed ← counter
  let staleVotesRejected ← counter
  let thresholdPercent ← u32
  let thresholdCount ← counter
  let leadingVotes ← counter
  let roleQuotaMet ← counter
  let roleQuotaRequired ← counter
  let failureBudget ← boolean
  let abstentionBudget ← boolean
  let generation ← getId
  let epoch ← getId
  let sequence ← getId
  let members ← getIdList limits.maxParticipantsPerEnsemble
  let generations ← Decoder.list limits.maxParticipantsPerEnsemble
    "declared generation list exceeds the configured bound" getId
  let contributorsList ← getIdList limits.maxParticipantsPerEnsemble
  let abstaining ← getIdList limits.maxParticipantsPerEnsemble
  let failed ← getIdList limits.maxParticipantsPerEnsemble
  let notes ← getNotes limits "quorum note"
  return { state, basis, denominator, contributors, abstentions, failures, excludedOptional,
           excludedUnavailable, excludedStale, requiredTotal, requiredPresent, evaluations,
           validCandidates, duplicateVotesSuppressed, staleVotesRejected, thresholdPercent,
           thresholdCount, leadingVotes, roleQuotaMet, roleQuotaRequired,
           failureBudgetExceeded := failureBudget, abstentionBudgetExceeded := abstentionBudget,
           ensembleGeneration := generation, coordinatorEpoch := epoch,
           computedSequence := sequence, members, memberGenerations := generations,
           contributorsList, abstainingMembers := abstaining, failedMembers := failed, notes }

def putConsensusReport (report : ConsensusReport) : List Write :=
  [ Encoder.u8 report.state.number,
    putId report.leadingCandidate,
    putId report.leadingGeneration,
    putId report.leadingParticipant,
    Encoder.counter report.agreeing,
    Encoder.counter report.disagreeing,
    Encoder.counter report.abstaining,
    Encoder.counter report.missing,
    Encoder.counter report.invalidCandidates,
    Encoder.counter report.eligibleCandidates,
    Encoder.counter report.candidatesDeclared,
    Encoder.u32 report.thresholdPercent,
    Encoder.counter report.thresholdCount,
    Encoder.counter report.voteBasis,
    Encoder.counter report.runnerUpVotes,
    Encoder.boolean report.unresolvedDisagreement,
    putId report.ensembleGeneration,
    putId report.coordinatorEpoch,
    putId report.computedSequence,
    putIdList report.agreeingMembers,
    putIdList report.disagreeingMembers,
    putIdList report.abstainingMembers,
    putIdList report.missingMembers,
    Encoder.list putId report.eligibleCandidatesList ].flatten

def getConsensusReport (limits : Limits) : Decoder ConsensusReport := do
  let state ← getEnum ConsensusState.cast "consensus state"
  let leading ← getId
  let leadingGeneration ← getId
  let leadingParticipant ← getId
  let agreeing ← counter
  let disagreeing ← counter
  let abstaining ← counter
  let missing ← counter
  let invalidCandidates ← counter
  let eligibleCandidates ← counter
  let candidatesDeclared ← counter
  let thresholdPercent ← u32
  let thresholdCount ← counter
  let voteBasis ← counter
  let runnerUpVotes ← counter
  let unresolved ← boolean
  let generation ← getId
  let epoch ← getId
  let sequence ← getId
  let agreeingMembers ← getIdList limits.maxParticipantsPerEnsemble
  let disagreeingMembers ← getIdList limits.maxParticipantsPerEnsemble
  let abstainingMembers ← getIdList limits.maxParticipantsPerEnsemble
  let missingMembers ← getIdList limits.maxParticipantsPerEnsemble
  let candidates ← Decoder.list limits.maxCandidatesPerExecution
    "declared candidate list exceeds the configured bound" getId
  return { state, leadingCandidate := leading, leadingGeneration, leadingParticipant, agreeing,
           disagreeing, abstaining, missing, invalidCandidates, eligibleCandidates,
           candidatesDeclared, thresholdPercent, thresholdCount, voteBasis, runnerUpVotes,
           unresolvedDisagreement := unresolved, ensembleGeneration := generation,
           coordinatorEpoch := epoch, computedSequence := sequence, agreeingMembers,
           disagreeingMembers, abstainingMembers, missingMembers,
           eligibleCandidatesList := candidates }

/-- One factor value of a ranking. -/
def putRankingFactorValue (value : RankingFactorValue) : List Write :=
  [ Encoder.u8 value.factor.number,
    Encoder.f64 value.value,
    putText value.detail ].flatten

def getRankingFactorValue (limits : Limits) : Decoder RankingFactorValue := do
  let factor ← getEnum ArbitrationFactor.cast "arbitration factor"
  let score ← f64
  let detail ← getString limits.maxMetadataBytes "factor detail"
  return { factor, value := score, detail }

/-- One entry of the ranking. -/
def putCandidateRanking (ranking : CandidateRanking) : List Write :=
  [ putId ranking.candidate,
    putId ranking.generation,
    putId ranking.participant,
    putId ranking.participantGeneration,
    Encoder.u8 ranking.role.number,
    Encoder.boolean ranking.eligible,
    Encoder.u8 ranking.elimination.number,
    putText ranking.eliminationDetail,
    Encoder.list putRankingFactorValue ranking.factors,
    Encoder.i64 ranking.rank,
    Encoder.boolean ranking.selected ].flatten

def getCandidateRanking (limits : Limits) : Decoder CandidateRanking := do
  let candidate ← getId
  let generation ← getId
  let participant ← getId
  let participantGeneration ← getId
  let role ← getEnum ParticipantRole.cast "participant role"
  let eligible ← boolean
  let elimination ← getEnum EliminationReason.cast "elimination reason"
  let detail ← getString limits.maxMetadataBytes "elimination detail"
  let factors ← Decoder.list 16 "declared factor value count exceeds the configured bound"
    (getRankingFactorValue limits)
  let rank ← i64
  let selected ← boolean
  return { candidate, generation, participant, participantGeneration, role, eligible, elimination,
           eliminationDetail := detail, factors, rank, selected }

def putArbitrationReport (report : ArbitrationReport) : List Write :=
  [ putId report.ensembleGeneration,
    putId report.coordinatorEpoch,
    putId report.computedSequence,
    Encoder.u8 report.tieBreak.number,
    Encoder.list (fun factor => Encoder.u8 factor.number) report.factorOrder,
    Encoder.list putCandidateRanking report.ranking,
    putId report.selected,
    putId report.selectedGeneration,
    putId report.selectedParticipant,
    Encoder.u8 report.selectedRole.number,
    Encoder.boolean report.tieUnresolved,
    Encoder.boolean report.noEligibleCandidate,
    Encoder.counter report.considered,
    Encoder.counter report.eliminated,
    Encoder.list putText report.notes ].flatten

def getArbitrationReport (limits : Limits) : Decoder ArbitrationReport := do
  let generation ← getId
  let epoch ← getId
  let sequence ← getId
  let tie ← getEnum TieBreakPolicy.cast "tie break policy"
  let factors ← Decoder.list 16 "declared factor count exceeds the configured bound"
    (getEnum ArbitrationFactor.cast "arbitration factor")
  let ranking ← Decoder.list limits.maxCandidatesPerExecution
    "declared ranking count exceeds the configured bound" (getCandidateRanking limits)
  let selected ← getId
  let selectedGeneration ← getId
  let selectedParticipant ← getId
  let selectedRole ← getEnum ParticipantRole.cast "participant role"
  let tieUnresolved ← boolean
  let noEligible ← boolean
  let considered ← counter
  let eliminated ← counter
  let notes ← getNotes limits "arbitration note"
  return { ensembleGeneration := generation, coordinatorEpoch := epoch,
           computedSequence := sequence, tieBreak := tie, factorOrder := factors, ranking,
           selected, selectedGeneration, selectedParticipant, selectedRole, tieUnresolved,
           noEligibleCandidate := noEligible, considered, eliminated, notes }

/-! ## Snapshots -/

def putCandidateSnapshot (snapshot : CandidateSnapshot) : List Write :=
  [ putId snapshot.id,
    putId snapshot.generation,
    putId snapshot.ensemble,
    putId snapshot.ensembleGeneration,
    putId snapshot.execution,
    putId snapshot.attemptGeneration,
    putId snapshot.participant,
    putId snapshot.participantGeneration,
    Encoder.u8 snapshot.role.number,
    putId snapshot.stage,
    Encoder.u8 snapshot.state.number,
    Encoder.counter snapshot.attempt,
    Encoder.counter snapshot.attemptsUsed,
    putText snapshot.domain,
    Encoder.bytes snapshot.payload,
    Encoder.u64 snapshot.payloadDigest,
    Encoder.counter snapshot.payloadBytes,
    putId snapshot.receivedSequence,
    putId snapshot.coordinatorEpoch,
    putId snapshot.worker,
    putId snapshot.workerBoot,
    Encoder.u16 snapshot.failure.number,
    putText snapshot.failureDetail,
    Encoder.counter snapshot.evaluationCount,
    Encoder.counter snapshot.hardFailures,
    Encoder.boolean snapshot.fallback,
    Encoder.boolean snapshot.current,
    putText snapshot.eliminationReason ].flatten

def getCandidateSnapshot (limits : Limits) : Decoder CandidateSnapshot := do
  let id ← getId
  let generation ← getId
  let ensemble ← getId
  let ensembleGeneration ← getId
  let execution ← getId
  let attempt ← getId
  let participant ← getId
  let participantGeneration ← getId
  let role ← getEnum ParticipantRole.cast "participant role"
  let stage ← getId
  let state ← getEnum CandidateState.cast "candidate state"
  let attemptNumber ← counter
  let attemptsUsed ← counter
  let domain ← getString limits.maxMetadataBytes "candidate domain"
  let payload ← Decoder.bytes limits.maxCandidatePayloadBytes
  let digest ← u64
  let bytes ← counter
  if bytes ≠ payload.length then
    failed .malformedPersistence "candidate payload length disagrees with its declared size"
  else
    let sequence ← getId
    let epoch ← getId
    let worker ← getId
    let boot ← getId
    let failure ← Decoder.enum u16 EnsembleError.cast "invalid failure code"
    let detail ← getString limits.maxMetadataBytes "candidate failure detail"
    let evaluations ← counter
    let hard ← counter
    let fallback ← boolean
    let current ← boolean
    let elimination ← getString limits.maxMetadataBytes "elimination reason"
    return { id, generation, ensemble, ensembleGeneration, execution,
             attemptGeneration := attempt, participant, participantGeneration, role, stage,
             state, attempt := attemptNumber, attemptsUsed, domain, payload,
             payloadDigest := digest, payloadBytes := bytes, receivedSequence := sequence,
             coordinatorEpoch := epoch, worker, workerBoot := boot, failure,
             failureDetail := detail, evaluationCount := evaluations, hardFailures := hard,
             fallback, current, eliminationReason := elimination }

def putEvaluationSnapshot (snapshot : EvaluationSnapshot) : List Write :=
  [ putId snapshot.id,
    putId snapshot.generation,
    putId snapshot.ensemble,
    putId snapshot.ensembleGeneration,
    putId snapshot.execution,
    putId snapshot.attemptGeneration,
    putId snapshot.evaluator,
    putId snapshot.evaluatorGeneration,
    Encoder.u8 snapshot.evaluatorRole.number,
    putId snapshot.candidate,
    putId snapshot.candidateGeneration,
    putCriterion snapshot.criterion,
    Encoder.u8 snapshot.kind.number,
    Encoder.u8 snapshot.verification.number,
    Encoder.u8 snapshot.judgment.number,
    Encoder.boolean snapshot.scoreDefined,
    Encoder.f64 snapshot.score,
    Encoder.f64 snapshot.weight,
    Encoder.bytes snapshot.evidence,
    putText snapshot.rationale,
    putId snapshot.receivedSequence,
    putId snapshot.coordinatorEpoch,
    putId snapshot.worker,
    putId snapshot.workerBoot,
    Encoder.boolean snapshot.current,
    Encoder.boolean snapshot.superseded ].flatten

def getEvaluationSnapshot (limits : Limits) : Decoder EvaluationSnapshot := do
  let id ← getId
  let generation ← getId
  let ensemble ← getId
  let ensembleGeneration ← getId
  let execution ← getId
  let attempt ← getId
  let evaluator ← getId
  let evaluatorGeneration ← getId
  let role ← getEnum ParticipantRole.cast "participant role"
  let candidate ← getId
  let candidateGeneration ← getId
  let criterion ← getCriterion
  let kind ← getEnum CriterionKind.cast "criterion kind"
  let verification ← getEnum VerificationState.cast "verification state"
  let judgment ← getEnum CategoricalJudgment.cast "categorical judgment"
  let scoreDefined ← boolean
  let score ← f64
  let weight ← f64
  let evidence ← Decoder.bytes limits.maxEvaluationPayloadBytes
  let rationale ← getString limits.maxMetadataBytes "evaluation rationale"
  let sequence ← getId
  let epoch ← getId
  let worker ← getId
  let boot ← getId
  let current ← boolean
  let superseded ← boolean
  return { id, generation, ensemble, ensembleGeneration, execution, attemptGeneration := attempt,
           evaluator, evaluatorGeneration, evaluatorRole := role, candidate,
           candidateGeneration, criterion, kind, verification, judgment, scoreDefined, score,
           weight, evidence, rationale, receivedSequence := sequence, coordinatorEpoch := epoch,
           worker, workerBoot := boot, current, superseded }

/-! ## Results -/

/-- The outcome of one participant. -/
def putParticipantOutcome (outcome : ParticipantOutcome) : List Write :=
  [ putId outcome.id,
    putId outcome.generation,
    Encoder.u32 outcome.roles.mask,
    Encoder.boolean outcome.required,
    Encoder.u8 outcome.finalStatus.number,
    Encoder.counter outcome.candidates,
    Encoder.counter outcome.candidatesValid,
    Encoder.counter outcome.candidatesFailed,
    Encoder.counter outcome.candidatesAbstained,
    Encoder.counter outcome.evaluations,
    Encoder.counter outcome.retries,
    Encoder.boolean outcome.fallback,
    Encoder.boolean outcome.authoritative ].flatten

def getParticipantOutcome : Decoder ParticipantOutcome := do
  let id ← getId
  let generation ← getId
  let roles ← Decoder.enum u32 RoleSet.cast "unknown role bit in outcome"
  let required ← boolean
  let status ← getEnum ParticipantStatus.cast "participant status"
  let candidates ← counter
  let valid ← counter
  let failed ← counter
  let abstained ← counter
  let evaluations ← counter
  let retries ← counter
  let fallback ← boolean
  let authoritative ← boolean
  return { id, generation, roles, required, finalStatus := status, candidates,
           candidatesValid := valid, candidatesFailed := failed,
           candidatesAbstained := abstained, evaluations, retries, fallback, authoritative }

def putExplanationEntry (entry : ExplanationEntry) : List Write :=
  [ putText entry.subject,
    putText entry.detail ].flatten

def getExplanationEntry (limits : Limits) : Decoder ExplanationEntry := do
  let subject ← getString limits.maxLabelBytes "explanation subject"
  let detail ← getString limits.maxMetadataBytes "explanation detail"
  return { subject, detail }

def putResult (result : EnsembleResult) : List Write :=
  [ putId result.id,
    putId result.generation,
    putId result.ensemble,
    putId result.ensembleGeneration,
    putId result.execution,
    putId result.attemptGeneration,
    putId result.coordinatorEpoch,
    Encoder.u8 result.decision.number,
    Encoder.boolean result.hasSelected,
    putId result.selectedCandidate,
    putId result.selectedCandidateGeneration,
    putId result.selectedParticipant,
    putId result.selectedParticipantGeneration,
    Encoder.u8 result.selectedRole.number,
    Encoder.bytes result.payload,
    Encoder.u64 result.payloadDigest,
    Encoder.counter result.payloadBytes,
    putQuorumReport result.quorum,
    putConsensusReport result.consensus,
    putArbitrationReport result.arbitration,
    Encoder.list putParticipantOutcome result.participants,
    Encoder.list putCandidateSnapshot result.candidates,
    Encoder.list putEvaluationSnapshot result.evaluations,
    Encoder.list putExplanationEntry result.explanation,
    Encoder.boolean result.fallbackUsed,
    Encoder.u32 result.fallbackDepth,
    putId result.commitSequence,
    Encoder.u64 result.commitFingerprint ].flatten

def getResult (limits : Limits) : Decoder EnsembleResult := do
  let id ← getId
  let generation ← getId
  let ensemble ← getId
  let ensembleGeneration ← getId
  let execution ← getId
  let attempt ← getId
  let epoch ← getId
  let decision ← getEnum EnsembleDecision.cast "ensemble decision"
  let hasSelected ← boolean
  let selected ← getId
  let selectedGeneration ← getId
  let selectedParticipant ← getId
  let selectedParticipantGeneration ← getId
  let selectedRole ← getEnum ParticipantRole.cast "participant role"
  let payload ← Decoder.bytes limits.maxCandidatePayloadBytes
  let digest ← u64
  let payloadBytes ← counter
  if payloadBytes ≠ payload.length then
    failed .malformedPersistence "result payload length disagrees with its declared size"
  else
    let quorum ← getQuorumReport limits
    let consensus ← getConsensusReport limits
    let arbitration ← getArbitrationReport limits
    let participants ← Decoder.list limits.maxParticipantsPerEnsemble
      "declared participant outcome count exceeds the configured bound" getParticipantOutcome
    let candidates ← Decoder.list limits.maxRecordsPerSnapshot
      "declared candidate snapshot count exceeds the configured bound"
      (getCandidateSnapshot limits)
    let evaluations ← Decoder.list limits.maxRecordsPerSnapshot
      "declared evaluation snapshot count exceeds the configured bound"
      (getEvaluationSnapshot limits)
    let explanation ← Decoder.list limits.maxExplanationEntries
      "declared explanation count exceeds the configured bound" (getExplanationEntry limits)
    let fallbackUsed ← boolean
    let fallbackDepth ← u32
    let commitSequence ← getId
    let fingerprint ← u64
    return { id, generation, ensemble, ensembleGeneration, execution,
             attemptGeneration := attempt, coordinatorEpoch := epoch, decision, hasSelected,
             selectedCandidate := selected, selectedCandidateGeneration := selectedGeneration,
             selectedParticipant, selectedParticipantGeneration, selectedRole, payload,
             payloadDigest := digest, payloadBytes, quorum, consensus, arbitration,
             participants, candidates, evaluations, explanation, fallbackUsed, fallbackDepth,
             commitSequence, commitFingerprint := fingerprint }

/-- Everything `encode_result_payload` writes. -/
def putResultPayload (result : EnsembleResult) : List Write :=
  [ Encoder.u32 0,
    putResult result ].flatten

def getResultPayload (limits : Limits) : Decoder EnsembleResult := do
  let reserved ← u32
  if reserved ≠ 0 then
    failed .unsupportedVersion "result encoding uses an unsupported extension word"
  else
    getResult limits

def encodeResultPayload (result : EnsembleResult) (limits : Limits) : List UInt8 :=
  Encoder.buffer limits (putResultPayload result)

def decodeResultPayload (data : List UInt8) (limits : Limits) : Outcome EnsembleResult := do
  let (result, remaining) ← (getResultPayload limits).run data
  requireExhausted "ensemble result" remaining
  return result

end EnsembleFabric

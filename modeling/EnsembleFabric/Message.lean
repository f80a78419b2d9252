import EnsembleFabric.Codec
import EnsembleFabric.Participant
import EnsembleFabric.Result

/-!
# Messages

The payload of a frame is a message. Each kind of message has an encoder
and a decoder of its own, which go through the fields one by one; the
decoder checks an enumerator where it reads it, and bounds every string.
A decoder is to use up its payload (`protocol.cpp`).

The records have the fields of the source in its order, the encoders write
them with the operations of `Codec`, and the decoders read them with the
bounds and the labels of the source, so that the error of a truncated or
oversized field names it. Groups of fields that several messages share,
the authorities and the profile, are encoders and decoders of their own.

An enumerator is cast from the number that was read if the number is one
of its range; the error code of an answer is the exception, which may be
any number up to the last code (`ErrorCode`). A role set may have no bits
but those of the roles.
-/

namespace EnsembleFabric

/-! ## Enumerators on the wire -/

/-- An error code as a message carries it: the decoder takes every number up
to the last code, named or not. -/
@[ext] structure ErrorCode where
  number : UInt16
deriving DecidableEq

def EnsembleError.number : EnsembleError → UInt16
  | .ok => 0
  | .invalidArgument => 1
  | .resourceLimitExceeded => 2
  | .unsupportedVersion => 3
  | .notFound => 4
  | .unknownEnsemble => 10
  | .unknownExecution => 11
  | .unknownParticipant => 12
  | .unknownCandidate => 13
  | .unknownEvaluation => 14
  | .staleEnsembleGeneration => 20
  | .staleExecutionGeneration => 21
  | .staleParticipantGeneration => 22
  | .staleWorkerBoot => 23
  | .staleCoordinatorEpoch => 24
  | .staleCandidateGeneration => 25
  | .staleEvaluationGeneration => 26
  | .participantNotAuthoritative => 30
  | .participantUnavailable => 31
  | .participantIncompatible => 32
  | .participantRoleMismatch => 33
  | .participantDuplicate => 34
  | .participantRevalidationRequired => 35
  | .participantFailed => 36
  | .requiredParticipantFailed => 37
  | .malformedCandidate => 40
  | .malformedEvaluation => 41
  | .malformedFrame => 42
  | .malformedPersistence => 43
  | .checksumMismatch => 44
  | .trailingData => 45
  | .protocolError => 46
  | .invalidEnumValue => 47
  | .invalidIdentityCombination => 48
  | .payloadTooLarge => 49
  | .invalidStateTransition => 60
  | .duplicateCompletion => 61
  | .duplicateEvaluation => 62
  | .conflictingEvaluation => 63
  | .duplicateDispatch => 64
  | .executionNotOpen => 65
  | .evaluationTargetMismatch => 66
  | .quorumImpossible => 70
  | .quorumNotReached => 71
  | .insufficientEvidence => 72
  | .allCandidatesInvalid => 73
  | .consensusNotReached => 74
  | .disagreementUnresolved => 75
  | .tieUnresolved => 76
  | .fallbackNotAuthorized => 77
  | .fallbackExhausted => 78
  | .resultAlreadyCommitted => 80
  | .conflictingResultCommit => 81
  | .noEligibleCandidate => 82
  | .ensembleCancelled => 90
  | .ensembleSuperseded => 91
  | .executionCancelled => 92
  | .revalidationRequired => 93
  | .persistenceIoError => 100
  | .persistenceCorruption => 101
  | .transportError => 102
  | .internalError => 110

/-- The code a message carries for an error. -/
def EnsembleError.wire (code : EnsembleError) : ErrorCode := ⟨code.number⟩

def ErrorCode.cast (value : UInt16) : Option ErrorCode :=
  if EnsembleError.internalError.number < value then none else some ⟨value⟩

/-- A number between the first and the last enumerator is cast. -/
def enumerator {α : Type} (all : List α) (first last value : UInt8) : Option α :=
  if value < first || last < value then none else all[(value - first).toNat]?

def ParticipantRole.cast : UInt8 → Option ParticipantRole :=
  enumerator [.candidate, .specialist, .judge, .verifier, .fallback] 1 5

def ParticipantRole.number (role : ParticipantRole) : UInt8 := role.word.toUInt8

def CriterionKind.cast : UInt8 → Option CriterionKind :=
  enumerator [.hardPredicate, .rankingSignal] 1 2

def CriterionKind.number (kind : CriterionKind) : UInt8 := kind.word.toUInt8

def VerificationState.cast : UInt8 → Option VerificationState :=
  enumerator [.pass, .fail, .abstain, .unknown] 1 4

def VerificationState.number (state : VerificationState) : UInt8 := state.word.toUInt8

def CategoricalJudgment.cast : UInt8 → Option CategoricalJudgment :=
  enumerator [.accept, .reject, .abstain, .unknown] 1 4

def CategoricalJudgment.number (judgment : CategoricalJudgment) : UInt8 := judgment.word.toUInt8

def ParticipantFailureKind.number : ParticipantFailureKind → UInt8
  | .unavailable => 1
  | .transportError => 2
  | .malformedOutput => 3
  | .internalError => 4
  | .timeoutReported => 5
  | .explicitAbort => 6

def ParticipantFailureKind.cast : UInt8 → Option ParticipantFailureKind :=
  enumerator [.unavailable, .transportError, .malformedOutput, .internalError, .timeoutReported,
    .explicitAbort] 1 6

def EnsembleDecision.number (decision : EnsembleDecision) : UInt8 := decision.word.toUInt8

def EnsembleDecision.cast : UInt8 → Option EnsembleDecision :=
  enumerator [.pending, .committed, .cancelled, .superseded, .failed, .revalidationRequired,
    .noEligibleCandidate, .fallbackRequired] 0 7

/-- The role bits that exist. -/
def RoleSet.knownBits (s : RoleSet) : Bool := s.mask &&& ~~~0x1F == 0

def RoleSet.cast (value : UInt32) : Option RoleSet :=
  if value &&& ~~~0x1F != 0 then none else some ⟨value⟩

namespace Decoder

/-- A number is read, checked and cast. -/
def enum {α β : Type} (number : Decoder β) (cast : β → Option α) (message : String) : Decoder α :=
  Reader.checked number cast ⟨.invalidEnumValue, message⟩

end Decoder

/-- A bound of so many megabytes, written as a shift. -/
def megabytes (count : UInt32) : UInt32 := count <<< 20

/-! ## Groups of fields -/

def encodeProfile (profile : CompatibilityProfile) : List Write :=
  [ Encoder.u16 profile.protocolVersion,
    Encoder.u32 profile.capabilityMask,
    Encoder.u32 profile.taskClass,
    Encoder.u32 profile.outputSchema,
    Encoder.u32 profile.modelFamily,
    Encoder.u32 profile.backendFeatures ].flatten

def decodeProfile : Decoder CompatibilityProfile := do
  let version ← Decoder.u16
  let capabilityMask ← Decoder.u32
  let taskClass ← Decoder.u32
  let outputSchema ← Decoder.u32
  let modelFamily ← Decoder.u32
  let backendFeatures ← Decoder.u32
  return { protocolVersion := version, capabilityMask, taskClass, outputSchema, modelFamily,
           backendFeatures }

def encodeParticipantAuthority (authority : ParticipantAuthority) : List Write :=
  [ Encoder.u64 authority.ensemble.value,
    Encoder.u64 authority.ensembleGeneration.value,
    Encoder.u64 authority.participant.value,
    Encoder.u64 authority.participantGeneration.value,
    Encoder.u64 authority.worker.value,
    Encoder.u64 authority.workerBoot.value,
    Encoder.u64 authority.coordinatorEpoch.value ].flatten

def decodeParticipantAuthority : Decoder ParticipantAuthority := do
  let ensemble ← Decoder.u64
  let ensembleGeneration ← Decoder.u64
  let participant ← Decoder.u64
  let participantGeneration ← Decoder.u64
  let worker ← Decoder.u64
  let boot ← Decoder.u64
  let epoch ← Decoder.u64
  return { ensemble := ⟨ensemble⟩, ensembleGeneration := ⟨ensembleGeneration⟩,
           participant := ⟨participant⟩, participantGeneration := ⟨participantGeneration⟩,
           worker := ⟨worker⟩, workerBoot := ⟨boot⟩, coordinatorEpoch := ⟨epoch⟩ }

def encodeCandidateAuthority (authority : CandidateAuthority) : List Write :=
  [ encodeParticipantAuthority authority.participant,
    Encoder.u64 authority.execution.value,
    Encoder.u64 authority.attemptGeneration.value,
    Encoder.u64 authority.candidate.value,
    Encoder.u64 authority.candidateGeneration.value ].flatten

def decodeCandidateAuthority : Decoder CandidateAuthority := do
  let participant ← decodeParticipantAuthority
  let execution ← Decoder.u64
  let attempt ← Decoder.u64
  let candidate ← Decoder.u64
  let candidateGeneration ← Decoder.u64
  return { participant, execution := ⟨execution⟩, attemptGeneration := ⟨attempt⟩,
           candidate := ⟨candidate⟩, candidateGeneration := ⟨candidateGeneration⟩ }

def encodeEvaluationAuthority (authority : EvaluationAuthority) : List Write :=
  [ encodeParticipantAuthority authority.evaluator,
    Encoder.u64 authority.execution.value,
    Encoder.u64 authority.attemptGeneration.value,
    Encoder.u64 authority.evaluation.value,
    Encoder.u64 authority.evaluationGeneration.value,
    Encoder.u64 authority.candidate.value,
    Encoder.u64 authority.candidateGeneration.value ].flatten

def decodeEvaluationAuthority : Decoder EvaluationAuthority := do
  let evaluator ← decodeParticipantAuthority
  let execution ← Decoder.u64
  let attempt ← Decoder.u64
  let evaluation ← Decoder.u64
  let evaluationGeneration ← Decoder.u64
  let candidate ← Decoder.u64
  let candidateGeneration ← Decoder.u64
  return { evaluator, execution := ⟨execution⟩, attemptGeneration := ⟨attempt⟩,
           evaluation := ⟨evaluation⟩, evaluationGeneration := ⟨evaluationGeneration⟩,
           candidate := ⟨candidate⟩, candidateGeneration := ⟨candidateGeneration⟩ }

def encodeCriterion (criterion : CriterionRef) : List Write :=
  [ Encoder.u32 criterion.id,
    Encoder.u32 criterion.version ].flatten

def decodeCriterion : Decoder CriterionRef := do
  let id ← Decoder.u32
  let version ← Decoder.u32
  return { id, version }

/-! ## Workers -/

@[ext] structure HelloMessage where
  worker : WorkerId
  workerBoot : WorkerBootId
  coordinatorEpoch : CoordinatorEpoch
  profile : CompatibilityProfile
  label : List UInt8
deriving DecidableEq

def encodeHello (message : HelloMessage) : List Write :=
  [ Encoder.u64 message.worker.value,
    Encoder.u64 message.workerBoot.value,
    Encoder.u64 message.coordinatorEpoch.value,
    encodeProfile message.profile,
    Encoder.string message.label ].flatten

def decodeHello : Decoder HelloMessage := do
  let worker ← Decoder.u64
  let boot ← Decoder.u64
  let epoch ← Decoder.u64
  let profile ← decodeProfile
  let label ← Decoder.string 4096
  return { worker := ⟨worker⟩, workerBoot := ⟨boot⟩, coordinatorEpoch := ⟨epoch⟩, profile, label }

@[ext] structure WorkerReadyMessage where
  worker : WorkerId
  workerBoot : WorkerBootId
  coordinatorEpoch : CoordinatorEpoch
  participant : ParticipantId
  roles : RoleSet
  profile : CompatibilityProfile
  label : List UInt8
deriving DecidableEq

def encodeWorkerReady (message : WorkerReadyMessage) : List Write :=
  [ Encoder.u64 message.worker.value,
    Encoder.u64 message.workerBoot.value,
    Encoder.u64 message.coordinatorEpoch.value,
    Encoder.u64 message.participant.value,
    Encoder.u32 message.roles.mask,
    encodeProfile message.profile,
    Encoder.string message.label ].flatten

def decodeWorkerReady : Decoder WorkerReadyMessage := do
  let worker ← Decoder.u64
  let boot ← Decoder.u64
  let epoch ← Decoder.u64
  let participant ← Decoder.u64
  let roles ← Decoder.enum Decoder.u32 RoleSet.cast "worker claims an unknown role bit"
  let profile ← decodeProfile
  let label ← Decoder.string 4096
  return { worker := ⟨worker⟩, workerBoot := ⟨boot⟩, coordinatorEpoch := ⟨epoch⟩,
           participant := ⟨participant⟩, roles, profile, label }

@[ext] structure CoordinatorAck where
  coordinatorEpoch : CoordinatorEpoch
  coordinatorBoot : WorkerBootId
  statusCode : UInt32 := 0
  accepted : Bool := false
  detail : List UInt8
deriving DecidableEq

def encodeCoordinatorAck (message : CoordinatorAck) : List Write :=
  [ Encoder.u64 message.coordinatorEpoch.value,
    Encoder.u64 message.coordinatorBoot.value,
    Encoder.u32 message.statusCode,
    Encoder.boolean message.accepted,
    Encoder.string message.detail ].flatten

def decodeCoordinatorAck : Decoder CoordinatorAck := do
  let epoch ← Decoder.u64
  let boot ← Decoder.u64
  let status ← Decoder.u32
  let accepted ← Decoder.boolean
  let detail ← Decoder.string 4096
  return { coordinatorEpoch := ⟨epoch⟩, coordinatorBoot := ⟨boot⟩, statusCode := status, accepted,
           detail }

@[ext] structure RegistrationAck where
  coordinatorEpoch : CoordinatorEpoch
  participant : ParticipantId
  participantGeneration : ParticipantGeneration
  accepted : Bool := false
  code : ErrorCode := EnsembleError.ok.wire
  detail : List UInt8
deriving DecidableEq

def encodeRegistrationAck (message : RegistrationAck) : List Write :=
  [ Encoder.u64 message.coordinatorEpoch.value,
    Encoder.u64 message.participant.value,
    Encoder.u64 message.participantGeneration.value,
    Encoder.boolean message.accepted,
    Encoder.u16 message.code.number,
    Encoder.string message.detail ].flatten

def decodeRegistrationAck : Decoder RegistrationAck := do
  let epoch ← Decoder.u64
  let participant ← Decoder.u64
  let generation ← Decoder.u64
  let accepted ← Decoder.boolean
  let code ← Decoder.enum Decoder.u16 ErrorCode.cast "invalid error code in ack"
  let detail ← Decoder.string 4096
  return { coordinatorEpoch := ⟨epoch⟩, participant := ⟨participant⟩,
           participantGeneration := ⟨generation⟩, accepted, code, detail }

@[ext] structure RegisterParticipantMessage where
  registration : ParticipantRegistration
deriving DecidableEq

def encodeRegisterParticipant (message : RegisterParticipantMessage) : List Write :=
  [ Encoder.u64 message.registration.ensemble.value,
    Encoder.u64 message.registration.ensembleGeneration.value,
    Encoder.u64 message.registration.participant.value,
    Encoder.u64 message.registration.worker.value,
    Encoder.u64 message.registration.workerBoot.value,
    Encoder.u64 message.registration.coordinatorEpoch.value,
    Encoder.u32 message.registration.claimedRoles.mask,
    encodeProfile message.registration.profile ].flatten

def decodeRegisterParticipant : Decoder RegisterParticipantMessage := do
  let ensemble ← Decoder.u64
  let generation ← Decoder.u64
  let participant ← Decoder.u64
  let worker ← Decoder.u64
  let boot ← Decoder.u64
  let epoch ← Decoder.u64
  let roles ← Decoder.enum Decoder.u32 RoleSet.cast "registration claims an unknown role bit"
  let profile ← decodeProfile
  return { registration :=
    { ensemble := ⟨ensemble⟩, ensembleGeneration := ⟨generation⟩, participant := ⟨participant⟩,
      worker := ⟨worker⟩, workerBoot := ⟨boot⟩, coordinatorEpoch := ⟨epoch⟩, profile,
      claimedRoles := roles } }

@[ext] structure HeartbeatMessage where
  worker : WorkerId
  workerBoot : WorkerBootId
  coordinatorEpoch : CoordinatorEpoch
  sequence : Sequence
deriving DecidableEq

def encodeHeartbeat (message : HeartbeatMessage) : List Write :=
  [ Encoder.u64 message.worker.value,
    Encoder.u64 message.workerBoot.value,
    Encoder.u64 message.coordinatorEpoch.value,
    Encoder.u64 message.sequence.value ].flatten

def decodeHeartbeat : Decoder HeartbeatMessage := do
  let worker ← Decoder.u64
  let boot ← Decoder.u64
  let epoch ← Decoder.u64
  let sequence ← Decoder.u64
  return { worker := ⟨worker⟩, workerBoot := ⟨boot⟩, coordinatorEpoch := ⟨epoch⟩,
           sequence := ⟨sequence⟩ }

/-! ## Work -/

@[ext] structure DispatchCandidateMessage where
  ensemble : EnsembleId
  ensembleGeneration : EnsembleGeneration
  execution : EnsembleExecutionId
  attemptGeneration : EnsembleAttemptGeneration
  participant : ParticipantId
  participantGeneration : ParticipantGeneration
  coordinatorEpoch : CoordinatorEpoch
  candidate : CandidateId
  candidateGeneration : CandidateGeneration
  role : ParticipantRole := .candidate
  stage : StageId
  attempt : UInt32 := 1
  budgetUnits : UInt32 := 0
  deterministicSeed : UInt64 := 0
  domain : List UInt8
  request : List UInt8
deriving DecidableEq

def encodeDispatchCandidate (message : DispatchCandidateMessage) : List Write :=
  [ Encoder.u64 message.ensemble.value,
    Encoder.u64 message.ensembleGeneration.value,
    Encoder.u64 message.execution.value,
    Encoder.u64 message.attemptGeneration.value,
    Encoder.u64 message.participant.value,
    Encoder.u64 message.participantGeneration.value,
    Encoder.u64 message.coordinatorEpoch.value,
    Encoder.u64 message.candidate.value,
    Encoder.u64 message.candidateGeneration.value,
    Encoder.u8 message.role.number,
    Encoder.u64 message.stage.value,
    Encoder.u32 message.attempt,
    Encoder.u32 message.budgetUnits,
    Encoder.u64 message.deterministicSeed,
    Encoder.string message.domain,
    Encoder.bytes message.request ].flatten

def decodeDispatchCandidate : Decoder DispatchCandidateMessage := do
  let ensemble ← Decoder.u64
  let ensembleGeneration ← Decoder.u64
  let execution ← Decoder.u64
  let attemptGeneration ← Decoder.u64
  let participant ← Decoder.u64
  let participantGeneration ← Decoder.u64
  let epoch ← Decoder.u64
  let candidate ← Decoder.u64
  let candidateGeneration ← Decoder.u64
  let role ← Decoder.enum Decoder.u8 ParticipantRole.cast
    "dispatch carries an unknown participant role"
  let stage ← Decoder.u64
  let attempt ← Decoder.u32
  let budget ← Decoder.u32
  let seed ← Decoder.u64
  let domain ← Decoder.string 4096
  let request ← Decoder.bytes (megabytes 1)
  return { ensemble := ⟨ensemble⟩, ensembleGeneration := ⟨ensembleGeneration⟩,
           execution := ⟨execution⟩, attemptGeneration := ⟨attemptGeneration⟩,
           participant := ⟨participant⟩, participantGeneration := ⟨participantGeneration⟩,
           coordinatorEpoch := ⟨epoch⟩, candidate := ⟨candidate⟩,
           candidateGeneration := ⟨candidateGeneration⟩, role, stage := ⟨stage⟩, attempt,
           budgetUnits := budget, deterministicSeed := seed, domain, request }

@[ext] structure CandidateResultMessage where
  authority : CandidateAuthority
  payload : List UInt8
  producedUnits : UInt32 := 0
deriving DecidableEq

def encodeCandidateResult (message : CandidateResultMessage) : List Write :=
  [ encodeCandidateAuthority message.authority,
    Encoder.bytes message.payload,
    Encoder.u32 message.producedUnits ].flatten

def decodeCandidateResult : Decoder CandidateResultMessage := do
  let authority ← decodeCandidateAuthority
  let payload ← Decoder.bytes (megabytes 64)
  let units ← Decoder.u32
  return { authority, payload, producedUnits := units }

@[ext] structure CandidateFailureMessage where
  authority : CandidateAuthority
  kind : ParticipantFailureKind := .internalError
  detail : List UInt8
deriving DecidableEq

def encodeCandidateFailure (message : CandidateFailureMessage) : List Write :=
  [ encodeCandidateAuthority message.authority,
    Encoder.u8 message.kind.number,
    Encoder.string message.detail ].flatten

def decodeCandidateFailure : Decoder CandidateFailureMessage := do
  let authority ← decodeCandidateAuthority
  let kind ← Decoder.enum Decoder.u8 ParticipantFailureKind.cast "unknown participant failure kind"
  let detail ← Decoder.string 4096
  return { authority, kind, detail }

@[ext] structure CandidateAbstentionMessage where
  authority : CandidateAuthority
  rationale : List UInt8
deriving DecidableEq

def encodeCandidateAbstention (message : CandidateAbstentionMessage) : List Write :=
  [ encodeCandidateAuthority message.authority,
    Encoder.string message.rationale ].flatten

def decodeCandidateAbstention : Decoder CandidateAbstentionMessage := do
  let authority ← decodeCandidateAuthority
  let rationale ← Decoder.string 4096
  return { authority, rationale }

@[ext] structure EvaluationRequestMessage where
  ensemble : EnsembleId
  ensembleGeneration : EnsembleGeneration
  execution : EnsembleExecutionId
  attemptGeneration : EnsembleAttemptGeneration
  judge : ParticipantId
  judgeGeneration : ParticipantGeneration
  coordinatorEpoch : CoordinatorEpoch
  evaluation : EvaluationId
  evaluationGeneration : EvaluationGeneration
  role : ParticipantRole := .judge
  candidate : CandidateId
  candidateGeneration : CandidateGeneration
  criterion : CriterionRef
  criterionKind : CriterionKind := .rankingSignal
  candidatePayload : List UInt8
  domain : List UInt8
deriving DecidableEq

def encodeEvaluationRequest (message : EvaluationRequestMessage) : List Write :=
  [ Encoder.u64 message.ensemble.value,
    Encoder.u64 message.ensembleGeneration.value,
    Encoder.u64 message.execution.value,
    Encoder.u64 message.attemptGeneration.value,
    Encoder.u64 message.judge.value,
    Encoder.u64 message.judgeGeneration.value,
    Encoder.u64 message.coordinatorEpoch.value,
    Encoder.u64 message.evaluation.value,
    Encoder.u64 message.evaluationGeneration.value,
    Encoder.u8 message.role.number,
    Encoder.u64 message.candidate.value,
    Encoder.u64 message.candidateGeneration.value,
    encodeCriterion message.criterion,
    Encoder.u8 message.criterionKind.number,
    Encoder.bytes message.candidatePayload,
    Encoder.string message.domain ].flatten

def decodeEvaluationRequest : Decoder EvaluationRequestMessage := do
  let ensemble ← Decoder.u64
  let ensembleGeneration ← Decoder.u64
  let execution ← Decoder.u64
  let attempt ← Decoder.u64
  let judge ← Decoder.u64
  let judgeGeneration ← Decoder.u64
  let epoch ← Decoder.u64
  let evaluation ← Decoder.u64
  let evaluationGeneration ← Decoder.u64
  let role ← Decoder.enum Decoder.u8 ParticipantRole.cast
    "evaluation request carries an unknown role"
  let candidate ← Decoder.u64
  let candidateGeneration ← Decoder.u64
  let criterion ← decodeCriterion
  let kind ← Decoder.enum Decoder.u8 CriterionKind.cast
    "evaluation request carries an unknown criterion kind"
  let payload ← Decoder.bytes (megabytes 64)
  let domain ← Decoder.string 4096
  return { ensemble := ⟨ensemble⟩, ensembleGeneration := ⟨ensembleGeneration⟩,
           execution := ⟨execution⟩, attemptGeneration := ⟨attempt⟩, judge := ⟨judge⟩,
           judgeGeneration := ⟨judgeGeneration⟩, coordinatorEpoch := ⟨epoch⟩,
           evaluation := ⟨evaluation⟩, evaluationGeneration := ⟨evaluationGeneration⟩, role,
           candidate := ⟨candidate⟩, candidateGeneration := ⟨candidateGeneration⟩, criterion,
           criterionKind := kind, candidatePayload := payload, domain }

@[ext] structure EvaluationResultMessage where
  authority : EvaluationAuthority
  criterion : CriterionRef
  criterionKind : CriterionKind := .rankingSignal
  verification : VerificationState := .unknown
  judgment : CategoricalJudgment := .unknown
  scoreDefined : Bool := false
  score : Double := .zero
  weight : Double := .one
  evidence : List UInt8
  rationale : List UInt8
deriving DecidableEq

def encodeEvaluationResult (message : EvaluationResultMessage) : List Write :=
  [ encodeEvaluationAuthority message.authority,
    encodeCriterion message.criterion,
    Encoder.u8 message.criterionKind.number,
    Encoder.u8 message.verification.number,
    Encoder.u8 message.judgment.number,
    Encoder.boolean message.scoreDefined,
    Encoder.f64 message.score,
    Encoder.f64 message.weight,
    Encoder.bytes message.evidence,
    Encoder.string message.rationale ].flatten

def decodeEvaluationResult : Decoder EvaluationResultMessage := do
  let authority ← decodeEvaluationAuthority
  let criterion ← decodeCriterion
  let kind ← Decoder.enum Decoder.u8 CriterionKind.cast
    "evaluation carries an unknown criterion kind"
  let verification ← Decoder.enum Decoder.u8 VerificationState.cast
    "evaluation carries an unknown verification state"
  let judgment ← Decoder.enum Decoder.u8 CategoricalJudgment.cast
    "evaluation carries an unknown categorical judgment"
  let scoreDefined ← Decoder.boolean
  let score ← Decoder.f64
  let weight ← Decoder.f64
  let evidence ← Decoder.bytes (megabytes 1)
  let rationale ← Decoder.string 4096
  return { authority, criterion, criterionKind := kind, verification, judgment, scoreDefined, score,
           weight, evidence, rationale }

@[ext] structure CancelMessage where
  ensemble : EnsembleId
  ensembleGeneration : EnsembleGeneration
  execution : EnsembleExecutionId
  attemptGeneration : EnsembleAttemptGeneration
  coordinatorEpoch : CoordinatorEpoch
  candidate : CandidateId
  candidateGeneration : CandidateGeneration
  participant : ParticipantId
  participantGeneration : ParticipantGeneration
  reason : List UInt8
deriving DecidableEq

def encodeCancel (message : CancelMessage) : List Write :=
  [ Encoder.u64 message.ensemble.value,
    Encoder.u64 message.ensembleGeneration.value,
    Encoder.u64 message.execution.value,
    Encoder.u64 message.attemptGeneration.value,
    Encoder.u64 message.coordinatorEpoch.value,
    Encoder.u64 message.candidate.value,
    Encoder.u64 message.candidateGeneration.value,
    Encoder.u64 message.participant.value,
    Encoder.u64 message.participantGeneration.value,
    Encoder.string message.reason ].flatten

def decodeCancel : Decoder CancelMessage := do
  let ensemble ← Decoder.u64
  let ensembleGeneration ← Decoder.u64
  let execution ← Decoder.u64
  let attempt ← Decoder.u64
  let epoch ← Decoder.u64
  let candidate ← Decoder.u64
  let candidateGeneration ← Decoder.u64
  let participant ← Decoder.u64
  let participantGeneration ← Decoder.u64
  let reason ← Decoder.string 4096
  return { ensemble := ⟨ensemble⟩, ensembleGeneration := ⟨ensembleGeneration⟩,
           execution := ⟨execution⟩, attemptGeneration := ⟨attempt⟩, coordinatorEpoch := ⟨epoch⟩,
           candidate := ⟨candidate⟩, candidateGeneration := ⟨candidateGeneration⟩,
           participant := ⟨participant⟩, participantGeneration := ⟨participantGeneration⟩,
           reason }

/-! ## Commands and their answers -/

@[ext] structure DefineEnsembleMessage where
  encodedSpec : List UInt8
deriving DecidableEq

def encodeDefineEnsemble (message : DefineEnsembleMessage) : List Write :=
  [ Encoder.bytes message.encodedSpec ].flatten

def decodeDefineEnsemble : Decoder DefineEnsembleMessage := do
  let spec ← Decoder.bytes (megabytes 4)
  return { encodedSpec := spec }

@[ext] structure DefineEnsembleAck where
  ensemble : EnsembleId
  generation : EnsembleGeneration
  accepted : Bool := false
  code : ErrorCode := EnsembleError.ok.wire
  detail : List UInt8
deriving DecidableEq

def encodeDefineEnsembleAck (message : DefineEnsembleAck) : List Write :=
  [ Encoder.u64 message.ensemble.value,
    Encoder.u64 message.generation.value,
    Encoder.boolean message.accepted,
    Encoder.u16 message.code.number,
    Encoder.string message.detail ].flatten

def decodeDefineEnsembleAck : Decoder DefineEnsembleAck := do
  let ensemble ← Decoder.u64
  let generation ← Decoder.u64
  let accepted ← Decoder.boolean
  let code ← Decoder.enum Decoder.u16 ErrorCode.cast "invalid error code in ack"
  let detail ← Decoder.string 4096
  return { ensemble := ⟨ensemble⟩, generation := ⟨generation⟩, accepted, code, detail }

@[ext] structure OpenExecutionMessage where
  ensemble : EnsembleId
  ensembleGeneration : EnsembleGeneration
deriving DecidableEq

def encodeOpenExecution (message : OpenExecutionMessage) : List Write :=
  [ Encoder.u64 message.ensemble.value,
    Encoder.u64 message.ensembleGeneration.value ].flatten

def decodeOpenExecution : Decoder OpenExecutionMessage := do
  let ensemble ← Decoder.u64
  let generation ← Decoder.u64
  return { ensemble := ⟨ensemble⟩, ensembleGeneration := ⟨generation⟩ }

@[ext] structure OpenExecutionAck where
  ensemble : EnsembleId
  ensembleGeneration : EnsembleGeneration
  execution : EnsembleExecutionId
  accepted : Bool := false
  code : ErrorCode := EnsembleError.ok.wire
  detail : List UInt8
deriving DecidableEq

def encodeOpenExecutionAck (message : OpenExecutionAck) : List Write :=
  [ Encoder.u64 message.ensemble.value,
    Encoder.u64 message.ensembleGeneration.value,
    Encoder.u64 message.execution.value,
    Encoder.boolean message.accepted,
    Encoder.u16 message.code.number,
    Encoder.string message.detail ].flatten

def decodeOpenExecutionAck : Decoder OpenExecutionAck := do
  let ensemble ← Decoder.u64
  let generation ← Decoder.u64
  let execution ← Decoder.u64
  let accepted ← Decoder.boolean
  let code ← Decoder.enum Decoder.u16 ErrorCode.cast "invalid error code in ack"
  let detail ← Decoder.string 4096
  return { ensemble := ⟨ensemble⟩, ensembleGeneration := ⟨generation⟩, execution := ⟨execution⟩,
           accepted, code, detail }

@[ext] structure FinalizeRequestMessage where
  ensemble : EnsembleId
  ensembleGeneration : EnsembleGeneration
deriving DecidableEq

def encodeFinalizeRequest (message : FinalizeRequestMessage) : List Write :=
  [ Encoder.u64 message.ensemble.value,
    Encoder.u64 message.ensembleGeneration.value ].flatten

def decodeFinalizeRequest : Decoder FinalizeRequestMessage := do
  let ensemble ← Decoder.u64
  let generation ← Decoder.u64
  return { ensemble := ⟨ensemble⟩, ensembleGeneration := ⟨generation⟩ }

@[ext] structure FinalizeResponseMessage where
  ensemble : EnsembleId
  ensembleGeneration : EnsembleGeneration
  decision : EnsembleDecision := .pending
  accepted : Bool := false
  code : ErrorCode := EnsembleError.ok.wire
  encodedResult : List UInt8
  detail : List UInt8
deriving DecidableEq

def encodeFinalizeResponse (message : FinalizeResponseMessage) : List Write :=
  [ Encoder.u64 message.ensemble.value,
    Encoder.u64 message.ensembleGeneration.value,
    Encoder.u8 message.decision.number,
    Encoder.boolean message.accepted,
    Encoder.u16 message.code.number,
    Encoder.bytes message.encodedResult,
    Encoder.string message.detail ].flatten

def decodeFinalizeResponse : Decoder FinalizeResponseMessage := do
  let ensemble ← Decoder.u64
  let generation ← Decoder.u64
  let decision ← Decoder.enum Decoder.u8 EnsembleDecision.cast "invalid decision value"
  let accepted ← Decoder.boolean
  let code ← Decoder.enum Decoder.u16 ErrorCode.cast "invalid error code"
  let result ← Decoder.bytes (megabytes 32)
  let detail ← Decoder.string 4096
  return { ensemble := ⟨ensemble⟩, ensembleGeneration := ⟨generation⟩, decision, accepted, code,
           encodedResult := result, detail }

@[ext] structure CancelEnsembleMessage where
  ensemble : EnsembleId
  ensembleGeneration : EnsembleGeneration
  reason : List UInt8
deriving DecidableEq

def encodeCancelEnsemble (message : CancelEnsembleMessage) : List Write :=
  [ Encoder.u64 message.ensemble.value,
    Encoder.u64 message.ensembleGeneration.value,
    Encoder.string message.reason ].flatten

def decodeCancelEnsemble : Decoder CancelEnsembleMessage := do
  let ensemble ← Decoder.u64
  let generation ← Decoder.u64
  let reason ← Decoder.string 4096
  return { ensemble := ⟨ensemble⟩, ensembleGeneration := ⟨generation⟩, reason }

@[ext] structure QueryResultMessage where
  ensemble : EnsembleId
  ensembleGeneration : EnsembleGeneration
deriving DecidableEq

def encodeQueryResult (message : QueryResultMessage) : List Write :=
  [ Encoder.u64 message.ensemble.value,
    Encoder.u64 message.ensembleGeneration.value ].flatten

def decodeQueryResult : Decoder QueryResultMessage := do
  let ensemble ← Decoder.u64
  let generation ← Decoder.u64
  return { ensemble := ⟨ensemble⟩, ensembleGeneration := ⟨generation⟩ }

@[ext] structure ResultResponseMessage where
  ensemble : EnsembleId
  ensembleGeneration : EnsembleGeneration
  hasResult : Bool := false
  decision : EnsembleDecision := .pending
  encodedResult : List UInt8
  code : ErrorCode := EnsembleError.ok.wire
deriving DecidableEq

def encodeResultResponse (message : ResultResponseMessage) : List Write :=
  [ Encoder.u64 message.ensemble.value,
    Encoder.u64 message.ensembleGeneration.value,
    Encoder.boolean message.hasResult,
    Encoder.u8 message.decision.number,
    Encoder.bytes message.encodedResult,
    Encoder.u16 message.code.number ].flatten

def decodeResultResponse : Decoder ResultResponseMessage := do
  let ensemble ← Decoder.u64
  let generation ← Decoder.u64
  let hasResult ← Decoder.boolean
  let decision ← Decoder.enum Decoder.u8 EnsembleDecision.cast "invalid decision value"
  let result ← Decoder.bytes (megabytes 32)
  let code ← Decoder.enum Decoder.u16 ErrorCode.cast "invalid error code"
  return { ensemble := ⟨ensemble⟩, ensembleGeneration := ⟨generation⟩, hasResult, decision,
           encodedResult := result, code }

@[ext] structure InspectRequestMessage where
  ensemble : EnsembleId
deriving DecidableEq

def encodeInspectRequest (message : InspectRequestMessage) : List Write :=
  [ Encoder.u64 message.ensemble.value ].flatten

def decodeInspectRequest : Decoder InspectRequestMessage := do
  let ensemble ← Decoder.u64
  return { ensemble := ⟨ensemble⟩ }

@[ext] structure InspectResponseMessage where
  ensemble : EnsembleId
  ensembleGeneration : EnsembleGeneration
  encodedReport : List UInt8
  code : ErrorCode := EnsembleError.ok.wire
deriving DecidableEq

def encodeInspectResponse (message : InspectResponseMessage) : List Write :=
  [ Encoder.u64 message.ensemble.value,
    Encoder.u64 message.ensembleGeneration.value,
    Encoder.bytes message.encodedReport,
    Encoder.u16 message.code.number ].flatten

def decodeInspectResponse : Decoder InspectResponseMessage := do
  let ensemble ← Decoder.u64
  let generation ← Decoder.u64
  let report ← Decoder.bytes (megabytes 8)
  let code ← Decoder.enum Decoder.u16 ErrorCode.cast "invalid error code"
  return { ensemble := ⟨ensemble⟩, ensembleGeneration := ⟨generation⟩, encodedReport := report,
           code }

/-- Generic acknowledgement for commands that have no dedicated response type. -/
@[ext] structure StatusResponseMessage where
  code : ErrorCode := EnsembleError.ok.wire
  detail : List UInt8
deriving DecidableEq

def encodeStatusResponse (message : StatusResponseMessage) : List Write :=
  [ Encoder.u16 message.code.number,
    Encoder.string message.detail ].flatten

def decodeStatusResponse : Decoder StatusResponseMessage := do
  let code ← Decoder.enum Decoder.u16 ErrorCode.cast "invalid error code"
  let detail ← Decoder.string 4096
  return { code, detail }

@[ext] structure ErrorResponseMessage where
  code : ErrorCode := EnsembleError.internalError.wire
  correlation : RequestId
  detail : List UInt8
deriving DecidableEq

def encodeErrorResponse (message : ErrorResponseMessage) : List Write :=
  [ Encoder.u16 message.code.number,
    Encoder.u64 message.correlation.value,
    Encoder.string message.detail ].flatten

def decodeErrorResponse : Decoder ErrorResponseMessage := do
  let code ← Decoder.enum Decoder.u16 ErrorCode.cast "invalid error code"
  let correlation ← Decoder.u64
  let detail ← Decoder.string 4096
  return { code, correlation := ⟨correlation⟩, detail }

end EnsembleFabric

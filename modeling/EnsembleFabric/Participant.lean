import EnsembleFabric.Limits
import EnsembleFabric.Role

/-!
# Participants

The declaration of a logical participant, the compatibility check its
worker must pass, and the identities a worker presents when it
registers or acts (`participant.hpp`, `authority.hpp`).

Compatibility is checked field by field, and a requirement of zero asks
for nothing; `checkCompatibility` names the first field that does not
fit. Failure kinds are what a worker reports instead of content: each
has a wire code and an error class, and the class decides whether the
retry policy applies.

Authorities are the identities under which a worker acts. An authority
is complete when none of its fields is absent (`validate`), in which
case it can be compared with the records; the comparison itself is
`Ingest` and `Membership`. A missing field is refused before anything
else about the submission is looked at.
-/

namespace EnsembleFabric

inductive ParticipantStatus where
  | current
  | unavailable
  | failed
  | fenced
  | revalidationRequired
  | retired
deriving DecidableEq

def ParticipantStatus.toString : ParticipantStatus → String
  | .current => "CURRENT"
  | .unavailable => "UNAVAILABLE"
  | .failed => "FAILED"
  | .fenced => "FENCED"
  | .revalidationRequired => "REVALIDATION_REQUIRED"
  | .retired => "RETIRED"

/-! ## Compatibility -/

structure CompatibilityProfile where
  protocolVersion : UInt16 := 1
  capabilityMask : UInt32 := 0
  taskClass : UInt32 := 0
  outputSchema : UInt32 := 0
  modelFamily : UInt32 := 0
  backendFeatures : UInt32 := 0
deriving DecidableEq

/-- Requirement of an ensemble. A zero field means "no constraint", so the empty
requirement admits every worker. -/
structure CompatibilityRequirement where
  minProtocolVersion : UInt16 := 1
  requiredCapabilities : UInt32 := 0
  requiredTaskClass : UInt32 := 0
  requiredOutputSchema : UInt32 := 0
  excludedModelFamily : UInt32 := 0
  requiredBackendFeatures : UInt32 := 0
  requireModelFamilyDiversity : Bool := false
deriving DecidableEq

def checkCompatibility (requirement : CompatibilityRequirement)
    (profile : CompatibilityProfile) : Status := do
  require (requirement.minProtocolVersion ≤ profile.protocolVersion) .participantIncompatible
    (s!"participant protocol version {profile.protocolVersion.toNat} is below the required "
      ++ s!"version {requirement.minProtocolVersion.toNat}")
  require (requirement.requiredCapabilities == 0
      || profile.capabilityMask &&& requirement.requiredCapabilities
        == requirement.requiredCapabilities) .participantIncompatible
    "participant is missing required capability bits"
  require (requirement.requiredTaskClass == 0
      || profile.taskClass == requirement.requiredTaskClass) .participantIncompatible
    (s!"participant task class {profile.taskClass.toNat} does not match the required task class "
      ++ s!"{requirement.requiredTaskClass.toNat}")
  require (requirement.requiredOutputSchema == 0
      || profile.outputSchema == requirement.requiredOutputSchema) .participantIncompatible
    "participant output schema does not match the required schema"
  require (requirement.excludedModelFamily == 0
      || profile.modelFamily != requirement.excludedModelFamily) .participantIncompatible
    "participant model family is excluded by the ensemble requirement"
  require (requirement.requiredBackendFeatures == 0
      || profile.backendFeatures &&& requirement.requiredBackendFeatures
        == requirement.requiredBackendFeatures) .participantIncompatible
    "participant is missing required backend features"

/-! ## Declarations and registrations -/

structure ParticipantSpec where
  id : ParticipantId
  label : String := ""
  roles : RoleSet := {}
  required : Bool := true
  domain : String := ""
  priority : UInt32 := 0
  executionBudgetUnits : UInt32 := 0
  selectableOverride : Option Bool := none
  compatibility : CompatibilityRequirement := {}
deriving DecidableEq

def ParticipantSpec.selectable (p : ParticipantSpec) : Bool :=
  p.selectableOverride.getD
    (p.roles.contains .candidate || p.roles.contains .specialist || p.roles.contains .fallback)

structure ParticipantRegistration where
  ensemble : EnsembleId
  ensembleGeneration : EnsembleGeneration
  participant : ParticipantId
  worker : WorkerId
  workerBoot : WorkerBootId
  coordinatorEpoch : CoordinatorEpoch
  profile : CompatibilityProfile := {}
  claimedRoles : RoleSet := {}
deriving DecidableEq

inductive ParticipantFailureKind where
  | unavailable
  | transportError
  | malformedOutput
  | internalError
  | timeoutReported
  | explicitAbort
deriving DecidableEq

namespace ParticipantFailureKind

def toString : ParticipantFailureKind → String
  | .unavailable => "UNAVAILABLE"
  | .transportError => "TRANSPORT_ERROR"
  | .malformedOutput => "MALFORMED_OUTPUT"
  | .internalError => "INTERNAL_ERROR"
  | .timeoutReported => "TIMEOUT_REPORTED"
  | .explicitAbort => "EXPLICIT_ABORT"

/-- The enumerator behind a wire code, 1 to 6. -/
def ofCode? (code : UInt32) : Option ParticipantFailureKind :=
  [unavailable, transportError, malformedOutput, internalError, timeoutReported, explicitAbort][
    code.toNat - 1]?.filter fun _ => code != 0

end ParticipantFailureKind

/-- The error class the retry policy decides on. -/
def failureError : ParticipantFailureKind → EnsembleError
  | .unavailable => .participantUnavailable
  | .transportError => .transportError
  | .malformedOutput => .malformedCandidate
  | .internalError => .participantFailed
  | .timeoutReported => .participantUnavailable
  | .explicitAbort => .participantFailed

/-! ## Authorities -/

/-- Authority of a logical participant inside one ensemble generation: who it is,
in which incarnation, served by which worker, under which epoch. -/
structure ParticipantAuthority where
  ensemble : EnsembleId
  ensembleGeneration : EnsembleGeneration
  participant : ParticipantId
  participantGeneration : ParticipantGeneration
  worker : WorkerId
  workerBoot : WorkerBootId
  coordinatorEpoch : CoordinatorEpoch
deriving DecidableEq

/-- Authority of one candidate slot inside an execution attempt. -/
structure CandidateAuthority where
  participant : ParticipantAuthority
  execution : EnsembleExecutionId
  attemptGeneration : EnsembleAttemptGeneration
  candidate : CandidateId
  candidateGeneration : CandidateGeneration
deriving DecidableEq

/-- Authority of one evaluation submission. -/
structure EvaluationAuthority where
  evaluator : ParticipantAuthority
  execution : EnsembleExecutionId
  attemptGeneration : EnsembleAttemptGeneration
  evaluation : EvaluationId
  evaluationGeneration : EvaluationGeneration
  candidate : CandidateId
  candidateGeneration : CandidateGeneration
deriving DecidableEq

/-- Identity of one execution attempt. -/
structure ExecutionRef where
  ensemble : EnsembleId
  ensembleGeneration : EnsembleGeneration
  execution : EnsembleExecutionId
  attemptGeneration : EnsembleAttemptGeneration
deriving DecidableEq

/-- Refuses an identity that is absent; `what` names it. -/
def requireIdentity {domain : IdDomain} (id : StrongId domain) (what : String) : Status :=
  require id.valid .invalidIdentityCombination s!"authority: {what} is absent"

/-- `require_complete`, `validate_authority` of a participant. -/
def ParticipantAuthority.validate (a : ParticipantAuthority) : Status := do
  requireIdentity a.ensemble "ensemble identity"
  requireIdentity a.ensembleGeneration "ensemble generation"
  requireIdentity a.participant "participant identity"
  requireIdentity a.participantGeneration "participant generation"
  requireIdentity a.worker "worker identity"
  requireIdentity a.workerBoot "worker boot identity"
  requireIdentity a.coordinatorEpoch "coordinator epoch"

def CandidateAuthority.validate (a : CandidateAuthority) : Status := do
  a.participant.validate
  requireIdentity a.execution "execution identity"
  requireIdentity a.attemptGeneration "attempt generation"
  requireIdentity a.candidate "candidate identity"
  requireIdentity a.candidateGeneration "candidate generation"

def EvaluationAuthority.validate (a : EvaluationAuthority) : Status := do
  a.evaluator.validate
  requireIdentity a.execution "execution identity"
  requireIdentity a.attemptGeneration "attempt generation"
  requireIdentity a.evaluation "evaluation identity"
  requireIdentity a.evaluationGeneration "evaluation generation"
  requireIdentity a.candidate "candidate identity"
  requireIdentity a.candidateGeneration "candidate generation"

end EnsembleFabric

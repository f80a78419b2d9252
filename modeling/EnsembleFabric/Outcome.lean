/-!
# Typed failures

An operation returns a value or a typed error: `Outcome` is `Except`
over an error code and its message, and `Status` is an outcome without a
value. Materially distinct failures keep distinct codes, so a caller can
tell a stale authority from an exhausted limit without reading a text.

The codes are those of the source (`outcome.hpp`), all of them, in its
order: a code travels in failure frames as its position, and clients
rebuild the error from it. Messages are part of the model too, as the
errors of a call are what its callers see; a theorem about a rejection
is about the code and the message together.
-/

namespace EnsembleFabric

inductive EnsembleError where
  | ok
  -- caller and argument problems
  | invalidArgument
  | resourceLimitExceeded
  | unsupportedVersion
  | notFound
  -- unknown objects
  | unknownEnsemble
  | unknownExecution
  | unknownParticipant
  | unknownCandidate
  | unknownEvaluation
  -- stale authority
  | staleEnsembleGeneration
  | staleExecutionGeneration
  | staleParticipantGeneration
  | staleWorkerBoot
  | staleCoordinatorEpoch
  | staleCandidateGeneration
  | staleEvaluationGeneration
  -- participant problems
  | participantNotAuthoritative
  | participantUnavailable
  | participantIncompatible
  | participantRoleMismatch
  | participantDuplicate
  | participantRevalidationRequired
  | participantFailed
  | requiredParticipantFailed
  -- content problems
  | malformedCandidate
  | malformedEvaluation
  | malformedFrame
  | malformedPersistence
  | checksumMismatch
  | trailingData
  | protocolError
  | invalidEnumValue
  | invalidIdentityCombination
  | payloadTooLarge
  -- lifecycle problems
  | invalidStateTransition
  | duplicateCompletion
  | duplicateEvaluation
  | conflictingEvaluation
  | duplicateDispatch
  | executionNotOpen
  | evaluationTargetMismatch
  -- aggregate policy outcomes
  | quorumImpossible
  | quorumNotReached
  | insufficientEvidence
  | allCandidatesInvalid
  | consensusNotReached
  | disagreementUnresolved
  | tieUnresolved
  | fallbackNotAuthorized
  | fallbackExhausted
  -- commit problems
  | resultAlreadyCommitted
  | conflictingResultCommit
  | noEligibleCandidate
  -- cancellation and supersession
  | ensembleCancelled
  | ensembleSuperseded
  | executionCancelled
  | revalidationRequired
  -- persistence and transport
  | persistenceIoError
  | persistenceCorruption
  | transportError
  | internalError
deriving DecidableEq

structure Error where
  code : EnsembleError
  message : String
deriving DecidableEq

abbrev Outcome := Except Error

abbrev Status := Outcome Unit

def fail {α : Type} (code : EnsembleError) (message : String) : Outcome α :=
  .error ⟨code, message⟩

def okStatus : Status := .ok ()

end EnsembleFabric

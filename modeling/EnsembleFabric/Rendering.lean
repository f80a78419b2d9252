import EnsembleFabric.Inspect

/-!
# The text of an inspection

`EnsembleSnapshot::render` writes a snapshot as text, one line for the
ensemble, one for the execution, and one for each participant, candidate,
evaluation, report, commit and for the result. The coordinator answers an
inspection with this text (`handleInspectRequest`); nothing reads it back.

A flag is written only where it is set, and an optional part only where it is
there, so two snapshots may have the same text. Scores are written in the
notation of the number format (`Arithmetic`), which is the one place where a
text of the runtime depends on it.

The texts are kept in full because of their length: a text that does not fit
the encoder of the coordinator is cut, and a frame that is too large for the
channel is not sent (`Replies`).
-/

namespace EnsembleFabric

/-! ## Names -/

def CandidateState.toString : CandidateState → String
  | .declared => "DECLARED"
  | .dispatched => "DISPATCHED"
  | .outputReceived => "OUTPUT_RECEIVED"
  | .valid => "VALID"
  | .invalid => "INVALID"
  | .eligible => "ELIGIBLE"
  | .rejected => "REJECTED"
  | .selected => "SELECTED"
  | .superseded => "SUPERSEDED"
  | .cancelled => "CANCELLED"
  | .failed => "FAILED"
  | .abstained => "ABSTAINED"
  | .retired => "RETIRED"

def ExecutionStatus.toString : ExecutionStatus → String
  | .none => "NONE"
  | .opened => "OPEN"
  | .committed => "COMMITTED"
  | .cancelled => "CANCELLED"
  | .superseded => "SUPERSEDED"
  | .revalidationRequired => "REVALIDATION_REQUIRED"
  | .failed => "FAILED"
  | .noEligibleCandidate => "NO_ELIGIBLE_CANDIDATE"

def EnsembleDecision.toString : EnsembleDecision → String
  | .pending => "PENDING"
  | .committed => "COMMITTED"
  | .cancelled => "CANCELLED"
  | .superseded => "SUPERSEDED"
  | .failed => "FAILED"
  | .revalidationRequired => "REVALIDATION_REQUIRED"
  | .noEligibleCandidate => "NO_ELIGIBLE_CANDIDATE"
  | .fallbackRequired => "FALLBACK_REQUIRED"

def VerificationState.toString : VerificationState → String
  | .pass => "PASS"
  | .fail => "FAIL"
  | .abstain => "ABSTAIN"
  | .unknown => "UNKNOWN"

def CategoricalJudgment.toString : CategoricalJudgment → String
  | .accept => "ACCEPT"
  | .reject => "REJECT"
  | .abstain => "ABSTAIN"
  | .unknown => "UNKNOWN"

def CriterionKind.toString : CriterionKind → String
  | .hardPredicate => "HARD_PREDICATE"
  | .rankingSignal => "RANKING_SIGNAL"

def EnsembleError.toString : EnsembleError → String
  | .ok => "ok"
  | .invalidArgument => "invalid_argument"
  | .resourceLimitExceeded => "resource_limit_exceeded"
  | .unsupportedVersion => "unsupported_version"
  | .notFound => "not_found"
  | .unknownEnsemble => "unknown_ensemble"
  | .unknownExecution => "unknown_execution"
  | .unknownParticipant => "unknown_participant"
  | .unknownCandidate => "unknown_candidate"
  | .unknownEvaluation => "unknown_evaluation"
  | .staleEnsembleGeneration => "stale_ensemble_generation"
  | .staleExecutionGeneration => "stale_execution_generation"
  | .staleParticipantGeneration => "stale_participant_generation"
  | .staleWorkerBoot => "stale_worker_boot"
  | .staleCoordinatorEpoch => "stale_coordinator_epoch"
  | .staleCandidateGeneration => "stale_candidate_generation"
  | .staleEvaluationGeneration => "stale_evaluation_generation"
  | .participantNotAuthoritative => "participant_not_authoritative"
  | .participantUnavailable => "participant_unavailable"
  | .participantIncompatible => "participant_incompatible"
  | .participantRoleMismatch => "participant_role_mismatch"
  | .participantDuplicate => "participant_duplicate"
  | .participantRevalidationRequired => "participant_revalidation_required"
  | .participantFailed => "participant_failed"
  | .requiredParticipantFailed => "required_participant_failed"
  | .malformedCandidate => "malformed_candidate"
  | .malformedEvaluation => "malformed_evaluation"
  | .malformedFrame => "malformed_frame"
  | .malformedPersistence => "malformed_persistence"
  | .checksumMismatch => "checksum_mismatch"
  | .trailingData => "trailing_data"
  | .protocolError => "protocol_error"
  | .invalidEnumValue => "invalid_enum_value"
  | .invalidIdentityCombination => "invalid_identity_combination"
  | .payloadTooLarge => "payload_too_large"
  | .invalidStateTransition => "invalid_state_transition"
  | .duplicateCompletion => "duplicate_completion"
  | .duplicateEvaluation => "duplicate_evaluation"
  | .conflictingEvaluation => "conflicting_evaluation"
  | .duplicateDispatch => "duplicate_dispatch"
  | .executionNotOpen => "execution_not_open"
  | .evaluationTargetMismatch => "evaluation_target_mismatch"
  | .quorumImpossible => "quorum_impossible"
  | .quorumNotReached => "quorum_not_reached"
  | .insufficientEvidence => "insufficient_evidence"
  | .allCandidatesInvalid => "all_candidates_invalid"
  | .consensusNotReached => "consensus_not_reached"
  | .disagreementUnresolved => "disagreement_unresolved"
  | .tieUnresolved => "tie_unresolved"
  | .fallbackNotAuthorized => "fallback_not_authorized"
  | .fallbackExhausted => "fallback_exhausted"
  | .resultAlreadyCommitted => "result_already_committed"
  | .conflictingResultCommit => "conflicting_result_commit"
  | .noEligibleCandidate => "no_eligible_candidate"
  | .ensembleCancelled => "ensemble_cancelled"
  | .ensembleSuperseded => "ensemble_superseded"
  | .executionCancelled => "execution_cancelled"
  | .revalidationRequired => "revalidation_required"
  | .persistenceIoError => "persistence_io_error"
  | .persistenceCorruption => "persistence_corruption"
  | .transportError => "transport_error"
  | .internalError => "internal_error"

/-! ## Lines -/

/-- A text that is written only under a condition. -/
def whenSet (condition : Bool) (text : String) : String := if condition then text else ""

def ParticipantSnapshot.render (p : ParticipantSnapshot) : String :=
  s!"\n  participant {p.id.toString} generation={p.generation.toString}"
    ++ s!" roles={p.roles.toString}"
    ++ (if p.required then " required" else " optional")
    ++ s!" status={p.status.toString}"
    ++ (if p.authoritative then " authoritative" else " not_authoritative")
    ++ s!" worker={p.worker.toString} boot={p.workerBoot.toString}"
    ++ whenSet (p.replacementCount != 0) s!" replacements={p.replacementCount}"

def CandidateSnapshot.render (c : CandidateSnapshot) : String :=
  s!"\n  candidate {c.id.toString} generation={c.generation.toString}"
    ++ s!" participant={c.participant.toString} role={c.role.toString}"
    ++ s!" state={c.state.toString} attempt={c.attempt} bytes={c.payloadBytes}"
    ++ whenSet (c.failure != .ok) s!" failure={c.failure.toString}"
    ++ whenSet (c.eliminationReason != "") s!" eliminated={c.eliminationReason}"

def EvaluationSnapshot.render (r : EvaluationSnapshot) : String :=
  s!"\n  evaluation {r.id.toString} evaluator={r.evaluator.toString}"
    ++ s!" eg={r.evaluatorGeneration.toString} candidate={r.candidate.toString}"
    ++ s!" cg={r.candidateGeneration.toString}"
    ++ s!" criterion={r.criterion.id.toNat}.{r.criterion.version.toNat}"
    ++ s!" kind={r.kind.toString} judgment={r.judgment.toString}"
    ++ s!" verification={r.verification.toString}"
    ++ whenSet r.scoreDefined s!" score={formatDouble r.score}"
    ++ (if r.current then " current" else " superseded")

def CommitRecord.render (r : CommitRecord) : String :=
  s!"\n  commit result={r.result.toString} sequence={r.sequence.toString}"
    ++ s!" epoch={r.coordinatorEpoch.toString} decision={r.decision.toString}"
    ++ s!" fingerprint={r.commitFingerprint.toNat}"

/-- The three reports of an execution, a line each. -/
def renderReports (quorum : QuorumReport) (consensus : ConsensusReport)
    (arbitration : ArbitrationReport) : String :=
  s!"  {quorum.render}\n  {consensus.render}\n  {arbitration.render}"

def EnsembleResult.render (r : EnsembleResult) : String :=
  s!"result {r.id.toString} generation={r.generation.toString}"
    ++ s!" ensemble={r.ensemble.toString} ensemble_generation={r.ensembleGeneration.toString}"
    ++ s!" execution={r.execution.toString} attempt={r.attemptGeneration.toString}"
    ++ s!" epoch={r.coordinatorEpoch.toString} decision={r.decision.toString}"
    ++ " selected=" ++ (if r.hasSelected then r.selectedCandidate.toString else "none")
    ++ whenSet r.hasSelected
      (s!" selected_generation={r.selectedCandidateGeneration.toString}"
        ++ s!" selected_participant={r.selectedParticipant.toString}"
        ++ s!" role={r.selectedRole.toString}")
    ++ s!" payload_bytes={r.payloadBytes} payload_digest={r.payloadDigest.toNat}"
    ++ s!" commit_sequence={r.commitSequence.toString}"
    ++ s!" commit_fingerprint={r.commitFingerprint.toNat}"
    ++ whenSet r.fallbackUsed s!" fallback_depth={r.fallbackDepth.toNat}"
    ++ "\n" ++ renderReports r.quorum r.consensus r.arbitration
    ++ String.join (r.explanation.map fun entry => s!"\n  [{entry.subject}] {entry.detail}")

def EnsembleSnapshot.render (s : EnsembleSnapshot) : String :=
  s!"ensemble {s.id.toString} generation={s.generation.toString} label='{s.label}'"
    ++ s!" epoch={s.coordinatorEpoch.toString} spec_fingerprint={s.specFingerprint.toNat}"
    ++ s!"\nexecution={s.execution.toString} attempt={s.attemptGeneration.toString}"
    ++ s!" status={s.executionStatus.toString}"
    ++ whenSet s.superseded " superseded=true"
    ++ whenSet s.cancelled " cancelled=true"
    ++ whenSet s.revalidationRequired " revalidation_required=true"
    ++ whenSet s.fallbackActivated s!" fallback_depth={s.fallbackDepth.toNat}"
    ++ String.join (s.participants.map ParticipantSnapshot.render)
    ++ String.join (s.candidates.map CandidateSnapshot.render)
    ++ String.join (s.evaluations.map EvaluationSnapshot.render)
    ++ "\n" ++ renderReports s.quorum s.consensus s.arbitration
    ++ String.join (s.commits.map CommitRecord.render)
    ++ (match s.result with
      | none => ""
      | some result => s!"\n  {result.render}")

end EnsembleFabric

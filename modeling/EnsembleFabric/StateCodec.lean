import EnsembleFabric.Message
import EnsembleFabric.Recovery
import EnsembleFabric.ResultCodec
import EnsembleFabric.StateFile

/-!
# The durable state

The runtime goes to disk as one payload: the epoch, the marks of the
allocators, the counters, and every ensemble with its participants, its
execution and its history (`serializeState`, in `fabric_persist.cpp`). The
encoder checks nothing. Pending evaluations, commit attempts and reports are
not written.

`recoverState` reads the file and decodes all of it; only then does the tail
of the recovery touch the runtime. A specification is stored as its own
encoding behind a length, and is validated when it is read; a candidate's
payload, an evaluation's content and a result are stored whole.

What a file says is a `DurableState`, whether it was written by this runtime
(`Fabric.durable`) or comes from elsewhere. `DurableState.loaded` is the part
of it that the recovery goes on with.

`retries_issued` is written and read with the other counters, but nothing in
the runtime raises it: it is written as zero.
-/

namespace EnsembleFabric

open Decoder (failed u16 u32 u64 boolean f64 counter)

/-! ## Numbers and flags -/

/-- A number that the source keeps in 64 bits. -/
def Encoder.wide (value : Nat) : List Write := u64 (UInt64.ofNat value)

def Decoder.wide : Decoder Nat := do
  let value ← u64
  return value.toNat

/-- A flag, and behind it the value it announces. -/
def Encoder.optional {α : Type} (put : α → List Write) : Option α → List Write
  | none => boolean false
  | some value => boolean true ++ put value

def Decoder.optional {α : Type} (p : Decoder α) : Decoder (Option α) := do
  let present ← boolean
  if present then
    let value ← p
    return some value
  else
    return none

def ExecutionStatus.number (status : ExecutionStatus) : UInt8 := UInt8.ofNat status.ctorIdx

def ExecutionStatus.cast : UInt8 → Option ExecutionStatus :=
  enumerator [.none, .opened, .committed, .cancelled, .superseded, .revalidationRequired, .failed,
    .noEligibleCandidate] 0 7

/-! ## Records -/

def putParticipantRecord (participant : ParticipantRecord) : List Write :=
  [ putId participant.id,
    putId participant.generation,
    putParticipantSpec participant.declaration,
    Encoder.u8 participant.status.number,
    putId participant.worker,
    putId participant.workerBoot,
    putId participant.coordinatorEpoch,
    encodeProfile participant.profile,
    Encoder.boolean participant.registered,
    putText participant.failureDetail,
    Encoder.counter participant.replacementCount,
    Encoder.counter participant.candidatesCompleted,
    Encoder.counter participant.candidatesFailed,
    Encoder.counter participant.candidatesAbstained,
    Encoder.counter participant.evaluationsSubmitted,
    Encoder.counter participant.retriesConsumed,
    Encoder.boolean participant.fallbackActivated ].flatten

def getParticipantRecord (limits : Limits) : Decoder ParticipantRecord := do
  let id ← getId
  let generation ← getId
  let declaration ← getParticipantSpec limits
  let status ← getEnum ParticipantStatus.cast "participant status"
  let worker ← getId
  let boot ← getId
  let epoch ← getId
  let profile ← decodeProfile
  let registered ← boolean
  let detail ← getString limits.maxMetadataBytes "participant failure detail"
  let replacements ← counter
  let completed ← counter
  let failed ← counter
  let abstained ← counter
  let evaluations ← counter
  let retries ← counter
  let fallback ← boolean
  return { id, generation, declaration, status, worker, workerBoot := boot,
           coordinatorEpoch := epoch, profile, registered, failureDetail := detail,
           replacementCount := replacements, candidatesCompleted := completed,
           candidatesFailed := failed, candidatesAbstained := abstained,
           evaluationsSubmitted := evaluations, retriesConsumed := retries,
           fallbackActivated := fallback }

def putCandidateRecord (candidate : CandidateRecord) : List Write :=
  [ putId candidate.id,
    putId candidate.generation,
    putId candidate.participant,
    putId candidate.participantGeneration,
    Encoder.u8 candidate.role.number,
    putId candidate.stage,
    Encoder.u8 candidate.state.number,
    Encoder.counter candidate.attempt,
    Encoder.counter candidate.attemptsUsed,
    putText candidate.domain,
    Encoder.bytes candidate.payload,
    Encoder.u64 candidate.payloadDigest,
    putId candidate.receivedSequence,
    putId candidate.dispatchSequence,
    putId candidate.worker,
    putId candidate.workerBoot,
    putId candidate.coordinatorEpoch,
    Encoder.u16 candidate.failure.number,
    putText candidate.failureDetail,
    Encoder.counter candidate.evaluationCount,
    Encoder.counter candidate.hardFailures,
    Encoder.counter candidate.hardUnknowns,
    Encoder.counter candidate.hardPredicates,
    Encoder.u32 candidate.budgetUnitsUsed,
    Encoder.u32 candidate.latency,
    Encoder.boolean candidate.fallback,
    Encoder.boolean candidate.current,
    putText candidate.eliminationReason ].flatten

def getCandidateRecord (limits : Limits) : Decoder CandidateRecord := do
  let id ← getId
  let generation ← getId
  let participant ← getId
  let participantGeneration ← getId
  let role ← getEnum ParticipantRole.cast "participant role"
  let stage ← getId
  let state ← getEnum CandidateState.cast "candidate state"
  let attempt ← counter
  let attemptsUsed ← counter
  let domain ← getString limits.maxMetadataBytes "candidate domain"
  let payload ← Decoder.bytes limits.maxCandidatePayloadBytes
  let digest ← u64
  let sequence ← getId
  let dispatchSequence ← getId
  let worker ← getId
  let boot ← getId
  let epoch ← getId
  let failure ← Decoder.enum u16 EnsembleError.cast "invalid candidate failure code"
  let detail ← getString limits.maxMetadataBytes "candidate failure detail"
  let evaluations ← counter
  let hardFailures ← counter
  let hardUnknowns ← counter
  let hardPredicates ← counter
  let budget ← u32
  let latency ← u32
  let fallback ← boolean
  let current ← boolean
  let elimination ← getString limits.maxMetadataBytes "elimination reason"
  return { id, generation, participant, participantGeneration, role, stage, state, attempt,
           attemptsUsed, domain, payload, payloadDigest := digest, receivedSequence := sequence,
           worker, workerBoot := boot, coordinatorEpoch := epoch, dispatchSequence, failure,
           failureDetail := detail, evaluationCount := evaluations, hardFailures, hardUnknowns,
           hardPredicates, budgetUnitsUsed := budget, latency, fallback, current,
           eliminationReason := elimination }

def putEvaluationRecord (evaluation : EvaluationRecord) : List Write :=
  [ putId evaluation.id,
    putId evaluation.generation,
    putId evaluation.evaluator,
    putId evaluation.evaluatorGeneration,
    Encoder.u8 evaluation.role.number,
    putId evaluation.candidate,
    putId evaluation.candidateGeneration,
    putCriterion evaluation.criterion,
    Encoder.u8 evaluation.kind.number,
    Encoder.u8 evaluation.verification.number,
    Encoder.u8 evaluation.judgment.number,
    Encoder.boolean evaluation.scoreDefined,
    Encoder.f64 evaluation.score,
    Encoder.f64 evaluation.weight,
    Encoder.bytes evaluation.evidence,
    putText evaluation.rationale,
    putId evaluation.receivedSequence,
    putId evaluation.coordinatorEpoch,
    putId evaluation.worker,
    putId evaluation.workerBoot,
    Encoder.u64 evaluation.fingerprint,
    Encoder.boolean evaluation.current ].flatten

def getEvaluationRecord (limits : Limits) : Decoder EvaluationRecord := do
  let id ← getId
  let generation ← getId
  let evaluator ← getId
  let evaluatorGeneration ← getId
  let role ← getEnum ParticipantRole.cast "participant role"
  let candidate ← getId
  let candidateGeneration ← getId
  let criterion ← getCriterion
  let kind ← getEnum CriterionKind.cast "criterion kind"
  let verification ← getEnum VerificationState.cast "verification state"
  let judgment ← getEnum CategoricalJudgment.cast "categorical judgment"
  let scoreDefined ← boolean
  let score ← f64
  let weight ← f64
  let evidence ← Decoder.bytes limits.maxEvaluationPayloadBytes
  let rationale ← getString limits.maxMetadataBytes "evaluation rationale"
  let sequence ← getId
  let epoch ← getId
  let worker ← getId
  let boot ← getId
  let fingerprint ← u64
  let current ← boolean
  return { id, generation, evaluator, evaluatorGeneration, role, candidate, candidateGeneration,
           criterion, kind, verification, judgment, scoreDefined, score, weight, evidence,
           rationale, receivedSequence := sequence, coordinatorEpoch := epoch, worker,
           workerBoot := boot, fingerprint, current }

def putCommitRecord (record : CommitRecord) : List Write :=
  [ putId record.result,
    putId record.generation,
    putId record.sequence,
    putId record.coordinatorEpoch,
    putId record.execution,
    putId record.attemptGeneration,
    Encoder.u8 record.decision.number,
    Encoder.u64 record.commitFingerprint ].flatten

def getCommitRecord : Decoder CommitRecord := do
  let result ← getId
  let generation ← getId
  let sequence ← getId
  let epoch ← getId
  let execution ← getId
  let attempt ← getId
  let decision ← getEnum EnsembleDecision.cast "ensemble decision"
  let fingerprint ← u64
  return { result, generation, sequence, coordinatorEpoch := epoch, execution,
           attemptGeneration := attempt, decision, commitFingerprint := fingerprint }

/-! ## Executions and ensembles -/

def putExecutionRecord (execution : ExecutionRecord) : List Write :=
  [ putId execution.id,
    putId execution.attemptGeneration,
    Encoder.u8 execution.status.number,
    putId execution.coordinatorEpoch,
    Encoder.u64 execution.reportGeneration,
    Encoder.wide execution.stageIndex,
    Encoder.boolean execution.declaredCurrentStage,
    Encoder.boolean execution.planningComplete,
    Encoder.boolean execution.fallbackActivated,
    Encoder.u32 execution.fallbackDepth,
    Encoder.boolean execution.cancellationRequested,
    putText execution.cancellationReason,
    Encoder.boolean execution.cancellationEmitted,
    putId execution.cancelledSequence,
    putId execution.committedSequence,
    Encoder.optional putResult execution.result,
    Encoder.list putCandidateRecord execution.candidates,
    Encoder.list putEvaluationRecord execution.evaluations,
    Encoder.list putStageSpec execution.extraStages,
    Encoder.list putCommitRecord execution.commits ].flatten

def getExecutionRecord (limits : Limits) : Decoder ExecutionRecord := do
  let id ← getId
  let attempt ← getId
  let status ← getEnum ExecutionStatus.cast "execution status"
  let epoch ← getId
  let reports ← u64
  let stageIndex ← Decoder.wide
  if limits.maxStagesPerEnsemble.toNat < stageIndex then
    failed .resourceLimitExceeded "declared stage index exceeds the configured bound"
  else
    let declared ← boolean
    let planning ← boolean
    let fallback ← boolean
    let depth ← u32
    let cancellation ← boolean
    let reason ← getString limits.maxMetadataBytes "cancellation reason"
    let emitted ← boolean
    let cancelled ← getId
    let committed ← getId
    let result ← Decoder.optional (getResult limits)
    let candidates ← Decoder.list limits.maxCandidatesPerExecution
      "declared candidate count exceeds the configured bound" (getCandidateRecord limits)
    let evaluations ← Decoder.list limits.maxEvaluationsPerExecution
      "declared evaluation count exceeds the configured bound" (getEvaluationRecord limits)
    let stages ← Decoder.list limits.maxStagesPerEnsemble
      "declared fallback stage count exceeds the configured bound" (getStageSpec limits)
    let commits ← Decoder.list limits.maxRetainedCommits
      "declared commit count exceeds the configured bound" getCommitRecord
    return { id, attemptGeneration := attempt, status, coordinatorEpoch := epoch, candidates,
             evaluations, extraStages := stages, stageIndex, declaredCurrentStage := declared,
             planningComplete := planning, fallbackActivated := fallback, fallbackDepth := depth,
             cancelledSequence := cancelled, cancellationReason := reason,
             cancellationRequested := cancellation, cancellationEmitted := emitted, result,
             commits, reportGeneration := reports, committedSequence := committed }

/-- A specification is stored as its own encoding. -/
def putStoredSpec (limits : Limits) (spec : EnsembleSpec) : List Write :=
  Encoder.bytes (encodeSpec spec limits)

/-- It is validated when it is read. -/
def getStoredSpec (limits : Limits) : Decoder EnsembleSpec := do
  let data ← Decoder.bytes limits.maxPersistenceBytes
  match decodeSpec data limits with
  | .ok spec => return spec
  | .error e => throw e

def putEnsembleRecord (limits : Limits) (ensemble : EnsembleRecord) : List Write :=
  [ putStoredSpec limits ensemble.spec,
    Encoder.boolean ensemble.superseded,
    Encoder.list putParticipantRecord ensemble.participants,
    Encoder.optional putExecutionRecord ensemble.execution,
    Encoder.list putResult ensemble.history ].flatten

def getEnsembleRecord (limits : Limits) : Decoder EnsembleRecord := do
  let spec ← getStoredSpec limits
  let superseded ← boolean
  let participants ← Decoder.list limits.maxParticipantsPerEnsemble
    "declared participant count exceeds the configured bound" (getParticipantRecord limits)
  let execution ← Decoder.optional (getExecutionRecord limits)
  let history ← Decoder.list limits.maxRetainedResults
    "declared history count exceeds the configured bound" (getResult limits)
  return { spec, superseded, participants, execution, history }

/-! ## The runtime -/

/-- What a state file says, in the order it says it. -/
structure DurableState where
  epoch : CoordinatorEpoch
  coordinatorBoot : WorkerBootId
  ensembleMark : UInt64
  candidateMark : UInt64
  evaluationMark : UInt64
  resultMark : UInt64
  sequenceMark : UInt64
  counters : Counters
  retriesIssued : UInt64
  ensembles : List EnsembleRecord

/-- What the runtime says of itself. -/
def Fabric.durable (f : Fabric) : DurableState where
  epoch := f.core.epoch
  coordinatorBoot := f.core.coordinatorBoot
  ensembleMark := f.core.ensembleIds.next
  candidateMark := f.core.candidateIds.next
  evaluationMark := f.core.evaluationIds.next
  resultMark := f.core.resultIds.next
  sequenceMark := f.core.sequences.next
  counters := f.core.counters
  retriesIssued := 0
  ensembles := f.ensembles.values

def putState (limits : Limits) (state : DurableState) : List Write :=
  [ Encoder.u32 0,
    putId state.epoch,
    putId state.coordinatorBoot,
    Encoder.u64 state.ensembleMark,
    Encoder.u64 state.candidateMark,
    Encoder.u64 state.evaluationMark,
    Encoder.u64 state.resultMark,
    Encoder.u64 state.sequenceMark,
    Encoder.wide state.counters.commitsAccepted,
    Encoder.wide state.counters.commitsRejectedConflicting,
    Encoder.wide state.counters.commitsRejectedStale,
    Encoder.wide state.counters.staleSubmissionsRejected,
    Encoder.wide state.counters.duplicateSubmissionsSuppressed,
    Encoder.wide state.counters.duplicateVotesSuppressed,
    Encoder.wide state.counters.fallbackActivations,
    Encoder.u64 state.retriesIssued,
    Encoder.wide state.counters.cancellations,
    Encoder.wide state.counters.supersessions,
    Encoder.wide state.counters.revalidationsRequired,
    Encoder.list (putEnsembleRecord limits) state.ensembles ].flatten

def getState (limits : Limits) : Decoder DurableState := do
  let reserved ← u32
  if reserved ≠ 0 then
    failed .unsupportedVersion "state uses an unsupported extension word"
  else
    let epoch ← getId
    let boot ← getId
    let ensembleMark ← u64
    let candidateMark ← u64
    let evaluationMark ← u64
    let resultMark ← u64
    let sequenceMark ← u64
    let accepted ← Decoder.wide
    let rejectedConflicting ← Decoder.wide
    let rejectedStale ← Decoder.wide
    let staleSubmissions ← Decoder.wide
    let duplicateSubmissions ← Decoder.wide
    let duplicateVotes ← Decoder.wide
    let fallbackActivations ← Decoder.wide
    let retriesIssued ← u64
    let cancellations ← Decoder.wide
    let supersessions ← Decoder.wide
    let revalidations ← Decoder.wide
    let ensembles ← Decoder.list limits.maxRecordsPerSnapshot
      "declared ensemble count exceeds the configured bound" (getEnsembleRecord limits)
    return { epoch, coordinatorBoot := boot, ensembleMark, candidateMark, evaluationMark,
             resultMark, sequenceMark,
             counters :=
               { commitsAccepted := accepted
                 commitsRejectedConflicting := rejectedConflicting
                 commitsRejectedStale := rejectedStale
                 staleSubmissionsRejected := staleSubmissions
                 duplicateSubmissionsSuppressed := duplicateSubmissions
                 duplicateVotesSuppressed := duplicateVotes
                 fallbackActivations, cancellations, supersessions
                 revalidationsRequired := revalidations },
             retriesIssued, ensembles }

/-- `serialize_state`: the payload of a state file. -/
def serializeState (f : Fabric) : List UInt8 :=
  Encoder.buffer f.config.limits (putState f.config.limits f.durable)

/-- `save_state`: the bytes of the file. -/
def saveState (f : Fabric) : Outcome (List UInt8) :=
  writeStateFile (serializeState f) 1 f.config.limits

def decodeState (data : List UInt8) (limits : Limits) : Outcome DurableState := do
  let (state, remaining) ← (getState limits).run data
  requireExhausted "runtime state" remaining
  return state

/-- The ensembles of a file by their identities; the first record of an
identity is kept. -/
def loadedEnsembles (ensembles : List EnsembleRecord) : EnsembleMap :=
  ensembles.foldl (fun loaded e => loaded.insertIfNew e.spec.id.value e) {}

theorem loadedEnsembles_named {ensembles : List EnsembleRecord} {id : UInt64} {e : EnsembleRecord}
    (h : (loadedEnsembles ensembles)[id]? = some e) : e.spec.id.value = id := by
  have hfold : ∀ (loaded : EnsembleMap),
      (∀ (id : UInt64) (e : EnsembleRecord), loaded[id]? = some e → e.spec.id.value = id) →
      ∀ (id : UInt64) (e : EnsembleRecord),
        (ensembles.foldl (fun loaded e => loaded.insertIfNew e.spec.id.value e) loaded)[id]?
          = some e → e.spec.id.value = id := by
    clear h
    induction ensembles with
    | nil => exact fun loaded hloaded => hloaded
    | cons first rest ih =>
      intro loaded hloaded
      refine ih _ fun id e hget => ?_
      rw [Std.TreeMap.getElem?_insertIfNew] at hget
      split at hget
      · rename_i hnew
        cases hget
        exact Std.LawfulEqCmp.eq_of_compare hnew.1
      · exact hloaded id e hget
  refine hfold {} (fun id e hget => ?_) id e h
  simp at hget

/-- What is left of a file once it is read: the incarnation that wrote it and
`retries_issued` are passed over. -/
def DurableState.loaded (state : DurableState) : StoredState where
  epoch := state.epoch
  coordinatorBoot := state.coordinatorBoot
  ensembleMark := state.ensembleMark
  candidateMark := state.candidateMark
  evaluationMark := state.evaluationMark
  resultMark := state.resultMark
  sequenceMark := state.sequenceMark
  counters := state.counters
  ensembles := loadedEnsembles state.ensembles
  named _ _ h := loadedEnsembles_named h

/-- `recover_state`, of a file with these bytes; `boot` is the incarnation
drawn when none is configured. A file that is not read or not decoded leaves
the runtime as it is. -/
def recoverState (f : Fabric) (content : List UInt8) (boot : WorkerBootId) :
    Fabric × Outcome CoordinatorEpoch :=
  match readStateFile content f.config.limits with
  | .error e => (f, .error e)
  | .ok (_, payload) =>
      match decodeState payload f.config.limits with
      | .error e => (f, .error e)
      | .ok state => recoverTail f state.loaded boot

end EnsembleFabric

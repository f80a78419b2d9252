import EnsembleFabric.Execution

/-!
# Ingest

Submissions arrive under an authority, and every component of the
authority is checked against current state before the submission is
looked at (`fabric_ingest.cpp`). `locateCandidate` is the common fence of
the three candidate-scoped submissions: content, failure, abstention.

A fence is a sequence of checks in `Except Refusal`. Each check has its
code, its message and the counter its failure is recorded under; the
first that fails ends the sequence. What passes the fence are the
records the authority resolves to, with their positions (`Located`,
`EvaluationSite`), and a write replaces the records at these positions.

Behind the fence the submission itself is checked: a candidate must be
dispatched (`acceptCandidate`), a payload must be within its bound, an
evaluation must be the one that was planned (`checkSubmission`) and new
(`checkUnrecorded`). Content that violates the evidence requirement is
accepted and marked invalid, since the participant has answered; a
submission that is refused changes a counter at most.
-/

namespace EnsembleFabric

/-! ## The candidate fence -/

/-- The records a candidate-scoped authority resolves to. -/
structure Located where
  seat : Seat
  execution : ExecutionRecord
  index : Nat
  candidate : CandidateRecord

def ExecutionRecord.candidateAt? (x : ExecutionRecord) (id : CandidateId) :
    Option (Nat × CandidateRecord) := do
  let index ← x.findCandidate id
  let c ← x.candidates[index]?
  return (index, c)

def ExecutionRecord.pendingAt? (x : ExecutionRecord) (id : EvaluationId) :
    Option (Nat × PendingEvaluation) := do
  let index ← x.findPending id
  let p ← x.pending[index]?
  return (index, p)

/-- The current execution, when it is the one named. -/
def EnsembleRecord.executionNamed (e : EnsembleRecord) (id : EnsembleExecutionId) :
    Option ExecutionRecord :=
  e.execution.filter (·.id == id)

/-- Resolves and validates a candidate-scoped authority, component by component in
the order of the source. It does not look at the state of the candidate. -/
def locateCandidate (f : Fabric) (a : CandidateAuthority) : Except Refusal Located := do
  uncounted a.validate
  demand (a.participant.coordinatorEpoch == f.core.epoch) .staleCoordinatorEpoch
    (s!"submission was produced under epoch {a.participant.coordinatorEpoch.toString} but the "
      ++ s!"current epoch is {f.core.epoch.toString}")
    .staleSubmission
  let e ← located (f.find a.participant.ensemble) .unknownEnsemble "unknown ensemble"
  demand (e.spec.generation == a.participant.ensembleGeneration) .staleEnsembleGeneration
    (s!"submission targets ensemble generation {a.participant.ensembleGeneration.toString} but "
      ++ s!"the current generation is {e.spec.generation.toString}")
    .staleSubmission
  let x ← located (e.executionNamed a.execution) .staleExecutionGeneration
    "submission targets a historical execution generation" .staleSubmission
  demand (x.attemptGeneration == a.attemptGeneration) .staleExecutionGeneration
    "submission targets a historical attempt generation" .staleSubmission
  let seat ← located (e.seat? a.participant.participant) .unknownParticipant
    "unknown participant"
  let p := seat.participant
  demand (p.generation == a.participant.participantGeneration) .staleParticipantGeneration
    (s!"submission names participant generation {a.participant.participantGeneration.toString} "
      ++ s!"but the current generation is {p.generation.toString}")
    .staleSubmission
  demand (p.worker == a.participant.worker && p.workerBoot == a.participant.workerBoot)
    .staleWorkerBoot "submission names a worker incarnation that is no longer authoritative"
    .staleSubmission
  demand (p.authoritative f.core.epoch) .participantNotAuthoritative
    s!"participant {p.id.toString} is not authoritative in the current epoch"
  let (index, c) ← located (x.candidateAt? a.candidate) .unknownCandidate "unknown candidate"
  demand (c.generation == a.candidateGeneration) .staleCandidateGeneration
    (s!"submission names candidate generation {a.candidateGeneration.toString} but the current "
      ++ s!"generation is {c.generation.toString}")
    .staleSubmission
  demand (c.participant == p.id) .participantRoleMismatch
    "submission impersonates another participant's candidate"
  return ⟨seat, x, index, c⟩

/-- Why a candidate that is not dispatched takes no output. -/
def rejectedOutputState (state : CandidateState) (id : CandidateId) : Error :=
  match state with
  | .cancelled => ⟨.executionCancelled,
      s!"candidate {id.toString} was cancelled; its output is fenced"⟩
  | .superseded => ⟨.ensembleSuperseded,
      s!"candidate {id.toString} was superseded; its output is fenced"⟩
  | .failed => ⟨.invalidStateTransition, s!"candidate {id.toString} already failed"⟩
  | .abstained => ⟨.invalidStateTransition, s!"candidate {id.toString} already abstained"⟩
  | .invalid => ⟨.duplicateCompletion,
      s!"candidate {id.toString} was already classified invalid"⟩
  | .valid | .eligible | .selected | .rejected => ⟨.duplicateCompletion,
      s!"candidate {id.toString} already produced content"⟩
  | .retired => ⟨.invalidStateTransition, s!"candidate {id.toString} is retired"⟩
  | .outputReceived => ⟨.invalidStateTransition,
      s!"candidate {id.toString} is already being validated"⟩
  | .declared => ⟨.invalidStateTransition,
      s!"candidate {id.toString} has not been dispatched yet"⟩
  -- the callers ask only about candidates that are not dispatched
  | .dispatched => ⟨.ok, ""⟩

/-- A located candidate that is dispatched: the submission is accepted. -/
def acceptCandidate (f : Fabric) (a : CandidateAuthority) : Except Refusal Located := do
  let l ← locateCandidate f a
  if l.candidate.state = .dispatched then return l
  else .error ⟨rejectedOutputState l.candidate.state l.candidate.id,
    if permitsOutput l.candidate.state then .uncounted else .duplicateSubmission⟩

namespace Located

/-- The ensemble of the located records with the candidate and the
participant replaced. -/
def write (l : Located) (c : CandidateRecord) (p : ParticipantRecord) : EnsembleRecord :=
  (l.seat.write p).holding
    { l.execution with candidates := l.execution.candidates.set l.index c }

end Located

/-! ## Content -/

/-- The logical latency between dispatch and receipt, narrowed to 32 bits. -/
def logicalLatency (dispatch received : Sequence) : UInt32 :=
  if dispatch.valid && received.valid && decide (dispatch.value ≤ received.value) then
    (received.value - dispatch.value).toUInt32
  else 0

/-- The candidate once its output is received, before it is classified. -/
def receivedCandidate (c : CandidateRecord) (payload : List UInt8) (received : Sequence)
    (budget : UInt32) : CandidateRecord :=
  { c with
    state := .outputReceived
    payload
    payloadDigest := fingerprintPayload payload
    receivedSequence := received
    latency := logicalLatency c.dispatchSequence received
    budgetUnitsUsed := budget }

/-- The received output is no valid candidate. -/
def malformedOutput (evidence : EvidenceRequirement) (payload : List UInt8) : Bool :=
  payload.isEmpty || decide (payload.length < evidence.minCandidatePayloadBytes.toNat)

/-- The candidate after its content was checked: valid, or malformed with a text
that says why. -/
def classifiedCandidate (evidence : EvidenceRequirement) (c : CandidateRecord) :
    CandidateRecord :=
  if malformedOutput evidence c.payload then
    { c with
      state := .invalid
      failure := .malformedCandidate
      failureDetail :=
        if c.payload.isEmpty then "empty candidate payload"
        else "candidate payload is smaller than the ensemble evidence requirement"
      payload := []
      payloadDigest := 0 }
  else { c with state := .valid, failure := .ok, failureDetail := "" }

def checkPayload (limits : Limits) (payload : List UInt8) : Status := do
  require (payload.length ≤ limits.maxCandidatePayloadBytes.toNat) .resourceLimitExceeded
    (s!"candidate payload exceeds the configured bound of "
      ++ s!"{limits.maxCandidatePayloadBytes.toNat} bytes")
  require (payload.length ≤ limits.maxFrameBytes.toNat) .payloadTooLarge
    "candidate payload cannot be transported in a single frame"

def submitCandidate (f : Fabric) (s : CandidateSubmission) : Fabric × Status :=
  match acceptCandidate f s.authority with
  | .error refusal => f.reject refusal
  | .ok l =>
      match checkPayload f.config.limits s.payload with
      | .error error => (f, .error error)
      | .ok () =>
          let p := l.seat.participant
          let evidence := l.seat.ensemble.spec.evidence
          let (received, core) := f.core.nextSequence
          let output := receivedCandidate l.candidate s.payload received
            p.declaration.executionBudgetUnits
          let p :=
            if malformedOutput evidence s.payload then
              { p with candidatesFailed := p.candidatesFailed + 1 }
            else { p with candidatesCompleted := p.candidatesCompleted + 1 }
          let e := l.write (classifiedCandidate evidence output) p
          ({ f with core }.store s.authority.participant.ensemble e, okStatus)

/-! ## Failure and abstention -/

def submitCandidateFailure (f : Fabric) (s : CandidateFailureSubmission) : Fabric × Status :=
  match acceptCandidate f s.authority with
  | .error refusal => f.reject refusal
  | .ok l =>
      match ParticipantFailureKind.ofCode? s.participantFailure with
      | none => (f, fail .invalidEnumValue "unknown participant failure kind")
      | some kind =>
          let e := l.seat.ensemble
          let (e, x) :=
            if retryAuthorized e.spec l.candidate (failureError kind) then
              rewindCandidateForRetry e l.execution l.index l.candidate
            else
              failCandidate e l.execution l.index l.candidate (failureError kind)
                s!"participant reported {kind.toString}"
          (f.store s.authority.participant.ensemble (e.holding x), okStatus)

def abstainedCandidate (c : CandidateRecord) (detail : String) (received : Sequence) :
    CandidateRecord :=
  { c with
    state := .abstained
    failureDetail := detail
    payload := []
    payloadDigest := 0
    receivedSequence := received }

def submitCandidateAbstention (f : Fabric) (s : CandidateAbstentionSubmission) :
    Fabric × Status :=
  match acceptCandidate f s.authority with
  | .error refusal => f.reject refusal
  | .ok l =>
      let p := l.seat.participant
      let detail := sanitizeText s.rationale f.config.limits.maxMetadataBytes
      let (received, core) := f.core.nextSequence
      let e := l.write (abstainedCandidate l.candidate detail received)
        { p with candidatesAbstained := p.candidatesAbstained + 1 }
      ({ f with core }.store s.authority.participant.ensemble e, okStatus)

/-! ## Evaluations -/

/-- The records an evaluation authority resolves to. -/
structure EvaluationSite where
  seat : Seat
  execution : ExecutionRecord
  candidateIndex : Nat
  candidate : CandidateRecord
  pendingIndex : Nat
  pending : PendingEvaluation

/-- The authority of an evaluation against current state. -/
def locateEvaluation (f : Fabric) (a : EvaluationAuthority) : Except Refusal EvaluationSite := do
  uncounted a.validate
  demand (a.evaluator.coordinatorEpoch == f.core.epoch) .staleCoordinatorEpoch
    (s!"evaluation was produced under epoch {a.evaluator.coordinatorEpoch.toString} but the "
      ++ s!"current epoch is {f.core.epoch.toString}")
    .staleSubmission
  let e ← located (f.find a.evaluator.ensemble) .unknownEnsemble "unknown ensemble"
  demand (e.spec.generation == a.evaluator.ensembleGeneration) .staleEnsembleGeneration
    "evaluation targets a historical ensemble generation" .staleSubmission
  let x ← located (e.executionNamed a.execution) .staleExecutionGeneration
    "evaluation targets a historical execution generation" .staleSubmission
  demand (x.attemptGeneration == a.attemptGeneration) .staleExecutionGeneration
    "evaluation targets a historical attempt generation" .staleSubmission
  let seat ← located (e.seat? a.evaluator.participant) .unknownParticipant
    "evaluator is not declared by this ensemble"
  let p := seat.participant
  demand (p.generation == a.evaluator.participantGeneration) .staleParticipantGeneration
    "evaluation names a historical evaluator generation" .staleSubmission
  demand (p.worker == a.evaluator.worker && p.workerBoot == a.evaluator.workerBoot)
    .staleWorkerBoot "evaluation names a worker incarnation that is no longer authoritative"
    .staleSubmission
  demand (p.authoritative f.core.epoch) .participantNotAuthoritative
    "evaluator is not authoritative in the current epoch"
  demand
    (roleEvaluates (if p.declaration.roles.contains .verifier then .verifier else .judge)
      && (p.declaration.roles.contains .judge || p.declaration.roles.contains .verifier))
    .participantRoleMismatch "participant holds no evaluating role"
  let (candidateIndex, c) ← located (x.candidateAt? a.candidate) .unknownCandidate
    "unknown candidate"
  demand (c.generation == a.candidateGeneration) .staleCandidateGeneration
    "evaluation targets a superseded candidate generation" .staleSubmission
  demand (isContentState c.state) .invalidStateTransition
    "candidate holds no content to evaluate"
  let (pendingIndex, pending) ← located (x.pendingAt? a.evaluation)
    .invalidIdentityCombination "no evaluation was planned with this identity"
  demand (pending.generation == a.evaluationGeneration) .staleEvaluationGeneration
    "evaluation names a historical evaluation generation" .staleSubmission
  demand (!pending.answered) .duplicateEvaluation
    "this evaluation identity was already answered" .duplicateVote
  demand (!pending.abandoned) .revalidationRequired "this evaluation plan was abandoned"
  return ⟨seat, x, candidateIndex, c, pendingIndex, pending⟩

/-- The submission is the evaluation that was planned, and well formed. The plan is
found by the identity of the evaluation; its evaluator, candidate, criterion
and kind are compared, its evaluator generation is not. -/
def checkSubmission (limits : Limits) (site : EvaluationSite) (s : EvaluationSubmission) :
    Status := do
  let p := site.pending
  let verifier := site.seat.participant.declaration.roles.contains .verifier
  require (p.evaluator == s.authority.evaluator.participant
      && p.candidate == s.authority.candidate
      && p.candidateGeneration == s.authority.candidateGeneration
      && p.criterion == s.criterion && p.kind == s.kind) .evaluationTargetMismatch
    "the submission does not match the planned evaluation target"
  require (!verifier || s.kind == .hardPredicate) .malformedEvaluation
    "a verifier may only submit mandatory hard-predicate evidence"
  require (verifier || s.kind == .rankingSignal) .malformedEvaluation
    "a judge may only submit ranking-signal evidence"
  require (s.evidence.length ≤ limits.maxEvaluationPayloadBytes.toNat) .resourceLimitExceeded
    "evaluation evidence exceeds the configured bound"
  require (s.rationale.length ≤ limits.maxMetadataBytes.toNat) .resourceLimitExceeded
    "evaluation rationale exceeds the configured bound"
  require (!(site.seat.ensemble.spec.evidence.requireRationale && s.rationale.isEmpty))
    .malformedEvaluation "the ensemble requires a rationale with every evaluation"
  require (!s.scoreDefined || s.score.isFinite) .malformedEvaluation
    "evaluation score is not a finite number"
  require (s.weight.isFinite && !s.weight.atMost .zero) .malformedEvaluation
    "evaluation weight must be finite and positive"

/-- An evaluation by the same evaluator generation for the same candidate
and criterion is on record, in force or withdrawn. -/
def sameEvaluation (s : EvaluationSubmission) (e : EvaluationRecord) : Bool :=
  e.evaluator == s.authority.evaluator.participant
    && e.evaluatorGeneration == s.authority.evaluator.participantGeneration
    && e.criterion == s.criterion && e.candidate == s.authority.candidate

def checkUnrecorded (x : ExecutionRecord) (s : EvaluationSubmission) : Except Refusal Unit :=
  match x.evaluations.find? (sameEvaluation s) with
  | none => .ok ()
  | some existing =>
      if existing.fingerprint = fingerprintEvaluation s then
        refuse .duplicateEvaluation "this evaluator already submitted identical evidence"
          .duplicateVote
      else
        refuse .conflictingEvaluation
          "this evaluator already submitted different evidence for the same candidate and criterion"
          .duplicateVote

/-- An evaluation that is accepted. -/
def acceptEvaluation (f : Fabric) (s : EvaluationSubmission) : Except Refusal EvaluationSite := do
  let site ← locateEvaluation f s.authority
  uncounted (checkSubmission f.config.limits site s)
  checkUnrecorded site.execution s
  return site

def recordedEvaluation (limits : Limits) (epoch : CoordinatorEpoch) (site : EvaluationSite)
    (s : EvaluationSubmission) (received : Sequence) : EvaluationRecord where
  id := site.pending.id
  generation := site.pending.generation
  evaluator := s.authority.evaluator.participant
  evaluatorGeneration := s.authority.evaluator.participantGeneration
  role := site.pending.role
  candidate := s.authority.candidate
  candidateGeneration := s.authority.candidateGeneration
  criterion := s.criterion
  kind := s.kind
  verification := s.verification
  judgment := s.judgment
  scoreDefined := s.scoreDefined
  score := s.score
  weight := s.weight
  evidence := s.evidence
  rationale := sanitizeText s.rationale limits.maxMetadataBytes
  receivedSequence := received
  coordinatorEpoch := epoch
  worker := site.seat.participant.worker
  workerBoot := site.seat.participant.workerBoot
  fingerprint := fingerprintEvaluation s

/-- The candidate with the counters its evaluations give it. -/
def countedCandidate (x : ExecutionRecord) (c : CandidateRecord) : CandidateRecord :=
  let summary := summarizeCandidate x c
  { c with
    evaluationCount := summary.evaluations
    hardFailures := summary.hardFailures
    hardUnknowns := summary.hardUnknowns
    hardPredicates := summary.hardPredicates }

/-- The execution with the evaluation recorded. -/
def evaluatedExecution (site : EvaluationSite) (r : EvaluationRecord) : ExecutionRecord :=
  let x := { site.execution with
    evaluations := site.execution.evaluations ++ [r]
    pending := site.execution.pending.set site.pendingIndex { site.pending with answered := true } }
  { x with
    candidates := x.candidates.set site.candidateIndex (countedCandidate x site.candidate) }

def submitEvaluation (f : Fabric) (s : EvaluationSubmission) : Fabric × Outcome EvaluationId :=
  match acceptEvaluation f s with
  | .error refusal => f.reject refusal
  | .ok site =>
      let p := site.seat.participant
      let (received, core) := f.core.nextSequence
      let r := recordedEvaluation f.config.limits f.core.epoch site s received
      let e := site.seat.write { p with evaluationsSubmitted := p.evaluationsSubmitted + 1 }
      ({ f with core }.store s.authority.evaluator.ensemble
          (e.holding (evaluatedExecution site r)), .ok s.authority.evaluation)

end EnsembleFabric

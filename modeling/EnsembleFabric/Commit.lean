import EnsembleFabric.Ingest

/-!
# Preparing and committing results

`prepareResult` computes the result the current evidence supports;
`commitResult` is the gate that stores a result. The two are separate
critical sections: `finalize` runs a check, a preparation and a commit,
and anything may happen between them (`fabric_commit.cpp`).

A preparation recomputes the reports and decides from them. `decisionFor`
maps the state of consensus to a decision, `hasSelection` says whether
the reports authorize a selection, and `selectResult` takes the payload
of the selected candidate from its record. The explanation is a list of
lines with the numbers of the reports in them, texts included.

The gate does not recompute anything. `validateResult` compares the
value with the specification and the epoch, `commitTarget` finds the
execution it names, and `commitAllowed` looks at the lifecycle of that
execution. A value that was committed before is recognized by its
fingerprint and answered as it is stored; a new one is stamped with an
identity and a sequence number and stored with what it settles
(`storeResult`).
-/

namespace EnsembleFabric

/-! ## Decisions -/

def consensusError : ConsensusState → EnsembleError
  | .quorumNotReached => .quorumNotReached
  | .quorumImpossible => .quorumImpossible
  | .disagreement => .disagreementUnresolved
  | .tie => .tieUnresolved
  | .insufficientEvidence => .insufficientEvidence
  | .requiredParticipantFailed => .requiredParticipantFailed
  | .allCandidatesInvalid => .allCandidatesInvalid
  | .noEligibleCandidate => .noEligibleCandidate
  | .fallbackRequired => .fallbackNotAuthorized
  | .cancelled => .ensembleCancelled
  | .superseded => .ensembleSuperseded
  | .revalidationRequired => .revalidationRequired
  | _ => .consensusNotReached

def decisionFor (state : ConsensusState) (hasSelection : Bool) : EnsembleDecision :=
  match state with
  | .cancelled => .cancelled
  | .superseded => .superseded
  | .revalidationRequired => .revalidationRequired
  | .fallbackRequired => .fallbackRequired
  | .quorumNotReached | .quorumImpossible | .requiredParticipantFailed => .failed
  | _ => if hasSelection then .committed else .noEligibleCandidate

def statusFor : EnsembleDecision → ExecutionStatus
  | .committed => .committed
  | .cancelled => .cancelled
  | .superseded => .superseded
  | .revalidationRequired => .revalidationRequired
  | .noEligibleCandidate => .noEligibleCandidate
  | .failed | .fallbackRequired | .pending => .failed

theorem statusFor_ne_opened (decision : EnsembleDecision) : statusFor decision ≠ .opened := by
  cases decision <;> simp [statusFor]

/-! ## Snapshots -/

/-- `snapshot_candidate`, with the identities of its execution. -/
def snapshotCandidate (e : EnsembleRecord) (x : ExecutionRecord) (c : CandidateRecord) :
    CandidateSnapshot where
  id := c.id
  generation := c.generation
  ensemble := e.spec.id
  ensembleGeneration := e.spec.generation
  execution := x.id
  attemptGeneration := x.attemptGeneration
  participant := c.participant
  participantGeneration := c.participantGeneration
  role := c.role
  stage := c.stage
  state := c.state
  attempt := c.attempt
  attemptsUsed := c.attemptsUsed
  domain := c.domain
  payload := c.payload
  payloadDigest := c.payloadDigest
  payloadBytes := c.payload.length
  receivedSequence := c.receivedSequence
  coordinatorEpoch := c.coordinatorEpoch
  worker := c.worker
  workerBoot := c.workerBoot
  failure := c.failure
  failureDetail := c.failureDetail
  evaluationCount := c.evaluationCount
  hardFailures := c.hardFailures
  fallback := c.fallback
  current := c.current
  eliminationReason := c.eliminationReason

def snapshotEvaluation (e : EnsembleRecord) (x : ExecutionRecord) (r : EvaluationRecord) :
    EvaluationSnapshot where
  id := r.id
  generation := r.generation
  ensemble := e.spec.id
  ensembleGeneration := e.spec.generation
  execution := x.id
  attemptGeneration := x.attemptGeneration
  evaluator := r.evaluator
  evaluatorGeneration := r.evaluatorGeneration
  evaluatorRole := r.role
  candidate := r.candidate
  candidateGeneration := r.candidateGeneration
  criterion := r.criterion
  kind := r.kind
  verification := r.verification
  judgment := r.judgment
  scoreDefined := r.scoreDefined
  score := r.score
  weight := r.weight
  evidence := r.evidence
  rationale := r.rationale
  receivedSequence := r.receivedSequence
  coordinatorEpoch := r.coordinatorEpoch
  worker := r.worker
  workerBoot := r.workerBoot
  current := r.current
  superseded := !r.current

def candidateSnapshots (limits : Limits) (e : EnsembleRecord) (x : ExecutionRecord) :
    List CandidateSnapshot :=
  (x.candidates.take limits.maxExplanationEntries.toNat).map (snapshotCandidate e x)

def evaluationSnapshots (limits : Limits) (e : EnsembleRecord) (x : ExecutionRecord) :
    List EvaluationSnapshot :=
  (x.evaluations.take limits.maxExplanationEntries.toNat).map (snapshotEvaluation e x)

def participantOutcome (x : ExecutionRecord) (p : ParticipantRecord) : ParticipantOutcome :=
  let mine := x.candidates.filter (·.participant == p.id)
  { id := p.id
    generation := p.generation
    roles := p.declaration.roles
    required := p.declaration.required
    finalStatus := p.status
    candidates := mine.length
    candidatesValid := mine.countP fun c => isContentState c.state
    candidatesFailed := mine.countP (·.state == .failed)
    candidatesAbstained := mine.countP (·.state == .abstained)
    evaluations := p.evaluationsSubmitted
    retries := p.retriesConsumed
    fallback := p.fallbackActivated
    authoritative := p.authoritative x.coordinatorEpoch }

/-! ## Explanation -/

def rankingExplanation (r : CandidateRanking) : List ExplanationEntry :=
  if r.eligible then
    ⟨s!"candidate {r.candidate.toString}",
      s!"eligible rank={r.rank} participant={r.participant.toString} role={r.role.toString}"⟩
    :: r.factors.map fun factor =>
      ⟨"  factor", s!"{factor.factor.toString}={formatDouble factor.value} ({factor.detail})"⟩
  else
    [⟨s!"candidate {r.candidate.toString}",
      s!"eliminated: {r.elimination.toString} - {r.eliminationDetail}"⟩]

def buildExplanation (limits : Limits) (e : EnsembleRecord) (x : ExecutionRecord) :
    List ExplanationEntry :=
  let entries : List ExplanationEntry :=
    [⟨"ensemble", s!"id={e.spec.id.toString} generation={e.spec.generation.toString}"
        ++ " label='" ++ e.spec.label ++ "'"⟩,
     ⟨"epoch", s!"coordinator_epoch={x.coordinatorEpoch.toString}"⟩,
     ⟨"quorum", x.quorum.render⟩,
     ⟨"consensus", x.consensus.render⟩,
     ⟨"arbitration", x.arbitration.render⟩]
    ++ x.quorum.notes.map (fun note => ⟨"quorum_note", note⟩)
    ++ x.arbitration.ranking.flatMap rankingExplanation
    ++ x.arbitration.notes.map (fun note => ⟨"arbitration_note", note⟩)
    ++ (if x.fallbackActivated then
        [⟨"fallback", s!"activated at depth {x.fallbackDepth.toNat}"⟩] else [])
    ++ (if x.cancellationEmitted then
        [⟨"cancellation", s!"reason: {x.cancellationReason}"⟩] else [])
  entries.take limits.maxExplanationEntries.toNat

/-! ## Preparation -/

/-- A tie in the votes that the declared tie-break may decide: the policy prefers
something, and arbitration found a candidate by it. -/
def tieResolvedByPolicy (e : EnsembleRecord) (x : ExecutionRecord) : Bool :=
  x.consensus.state == .tie && e.spec.arbitration.tieBreak != .reportTie
    && !x.arbitration.tieUnresolved

/-- The reports authorize a selection. -/
def hasSelection (e : EnsembleRecord) (x : ExecutionRecord) : Bool :=
  x.arbitration.selected.valid && !x.arbitration.noEligibleCandidate
    && !x.arbitration.tieUnresolved
    && (x.consensus.state.resolved || tieResolvedByPolicy e x)

/-- The result before its selection, explanation and fingerprint. -/
def undecidedResult (limits : Limits) (e : EnsembleRecord) (x : ExecutionRecord) :
    EnsembleResult where
  id := ⟨x.id.value⟩
  generation := ⟨1⟩
  ensemble := e.spec.id
  ensembleGeneration := e.spec.generation
  execution := x.id
  attemptGeneration := x.attemptGeneration
  coordinatorEpoch := x.coordinatorEpoch
  quorum := x.quorum
  consensus := x.consensus
  arbitration := x.arbitration
  fallbackUsed := x.fallbackActivated
  fallbackDepth := x.fallbackDepth
  decision := decisionFor x.consensus.state (hasSelection e x)
  participants := e.participants.map (participantOutcome x)
  candidates := candidateSnapshots limits e x
  evaluations := evaluationSnapshots limits e x

def withSelected (r : EnsembleResult) (c : CandidateRecord) : EnsembleResult :=
  { r with
    hasSelected := true
    selectedCandidate := c.id
    selectedCandidateGeneration := c.generation
    selectedParticipant := c.participant
    selectedParticipantGeneration := c.participantGeneration
    selectedRole := c.role
    payload := c.payload
    payloadDigest := c.payloadDigest
    payloadBytes := c.payload.length }

/-- The selected candidate, when it holds content. -/
def selectedContent (x : ExecutionRecord) : Option CandidateRecord :=
  (x.candidate? x.arbitration.selected).filter fun c => isContentState c.state

/-- The result with its selection, when it is committed. -/
def selectResult (limits : Limits) (e : EnsembleRecord) (x : ExecutionRecord) :
    Outcome EnsembleResult :=
  let undecided := undecidedResult limits e x
  if undecided.decision == .committed && hasSelection e x then
    match selectedContent x with
    | none => fail .internalError "arbitration selected a candidate that holds no content"
    | some c => .ok (withSelected undecided c)
  else .ok undecided

def explainedResult (limits : Limits) (e : EnsembleRecord) (x : ExecutionRecord)
    (decided : EnsembleResult) : EnsembleResult :=
  let explained := { decided with explanation := buildExplanation limits e x }
  { explained with commitFingerprint := commitFingerprint explained }

/-- The result that the reports just computed support. It may be a refusal, an
abstention or a pending decision; only a committed one has a selection. -/
def decideResult (limits : Limits) (e : EnsembleRecord) (x : ExecutionRecord) :
    Outcome EnsembleResult :=
  (selectResult limits e x).map (explainedResult limits e x)

theorem decideResult_eq_ok {limits : Limits} {e : EnsembleRecord} {x : ExecutionRecord}
    {r : EnsembleResult} :
    decideResult limits e x = .ok r
      ↔ ∃ decided, selectResult limits e x = .ok decided
        ∧ explainedResult limits e x decided = r := by
  unfold decideResult
  cases selectResult limits e x <;> simp [Except.map]

/-- A result is undecided, or carries the candidate that was selected. -/
theorem selectResult_eq_ok {limits : Limits} {e : EnsembleRecord} {x : ExecutionRecord}
    {r : EnsembleResult} (h : selectResult limits e x = .ok r) :
    (r = undecidedResult limits e x
        ∧ ¬ ((undecidedResult limits e x).decision = .committed ∧ hasSelection e x = true))
      ∨ (hasSelection e x = true ∧ ∃ c, selectedContent x = some c
        ∧ r = withSelected (undecidedResult limits e x) c) := by
  simp only [selectResult] at h
  split at h
  · rename_i hcond
    simp only [Bool.and_eq_true, beq_iff_eq] at hcond
    split at h
    · cases h
    · rename_i c hc
      exact .inr ⟨hcond.2, c, hc, (Except.ok.inj h).symm⟩
  · rename_i hcond
    simp only [Bool.and_eq_true, beq_iff_eq] at hcond
    exact .inl ⟨(Except.ok.inj h).symm, hcond⟩

def prepareResult (f : Fabric) (id : EnsembleId) (generation : EnsembleGeneration) :
    Fabric × Outcome EnsembleResult :=
  match f.find id with
  | none => (f, fail .unknownEnsemble s!"unknown ensemble {id.toString}")
  | some e =>
      if e.spec.generation ≠ generation then
        (f, fail .staleEnsembleGeneration
          "result preparation targets a historical ensemble generation")
      else
        match e.execution with
        | none => (f, fail .unknownExecution "the ensemble has no execution")
        | some x =>
            match x.result with
            | some result => (f, .ok result)
            | none =>
                let x := computeReports e x
                (f.store id (e.holding x), decideResult f.config.limits e x)

/-! ## The commit gate -/

/-- `validate_result`. -/
def validateResult (r : EnsembleResult) (spec : EnsembleSpec) (currentEpoch : CoordinatorEpoch) :
    Except Refusal Unit := do
  demand (r.ensemble == spec.id) .invalidArgument "result names a different ensemble"
  demand (r.ensembleGeneration == spec.generation) .staleEnsembleGeneration
    (s!"result was produced for ensemble generation {r.ensembleGeneration.toString} but the "
      ++ s!"current generation is {spec.generation.toString}")
    .staleCommit
  demand (r.coordinatorEpoch == currentEpoch) .staleCoordinatorEpoch
    (s!"result was produced under epoch {r.coordinatorEpoch.toString} but the current epoch is "
      ++ s!"{currentEpoch.toString}")
    .staleCommit
  demand (r.execution.valid && r.attemptGeneration.valid) .invalidIdentityCombination
    "result must name its execution and attempt generation"
  demand (!(r.decision == .committed && !r.hasSelected)) .invalidArgument
    "a committed result must name the candidate it selected"

/-- The execution a result may be committed to. -/
def commitTarget (f : Fabric) (r : EnsembleResult) :
    Except Refusal (EnsembleRecord × ExecutionRecord) := do
  let e ← located (f.find r.ensemble) .unknownEnsemble "unknown ensemble"
  validateResult r e.spec f.core.epoch
  let x ← located (e.executionNamed r.execution) .staleExecutionGeneration
    "the result does not target the current execution generation"
  return (e, x)

/-- The lifecycle checks of the gate, for an execution without a result. Whether
the execution is settled is not among them. -/
def commitAllowed (e : EnsembleRecord) (x : ExecutionRecord) : Status := do
  require (!(x.cancellationRequested || x.status == .cancelled)) .ensembleCancelled
    "the execution was cancelled; it may no longer publish a result"
  require (!(x.status == .superseded || e.superseded)) .ensembleSuperseded
    "the execution generation is superseded"
  require (x.status != .revalidationRequired) .revalidationRequired
    "the execution requires revalidation after coordinator recovery"

def commitRecord (r : EnsembleResult) : CommitRecord where
  result := r.id
  generation := r.generation
  sequence := r.commitSequence
  coordinatorEpoch := r.coordinatorEpoch
  execution := r.execution
  attemptGeneration := r.attemptGeneration
  decision := r.decision
  commitFingerprint := r.commitFingerprint

/-- The result as it is stored, under its own identity. -/
def stampedResult (r : EnsembleResult) (id : ResultId) (sequence : Sequence) : EnsembleResult :=
  let stamped := { r with id, generation := ⟨1⟩, commitSequence := sequence }
  { stamped with commitFingerprint := commitFingerprint stamped }

/-- A candidate once the result is committed: selected, or passed over. -/
def settledCandidate (selected : CandidateId) (c : CandidateRecord) : CandidateRecord :=
  if c.id == selected then { c with state := .selected }
  else if isContentState c.state then { c with state := .rejected }
  else c

/-- The execution with the stamped result stored, and the result as it was
stored: a committed result describes the states the runtime now holds. -/
def storeResult (limits : Limits) (e : EnsembleRecord) (x : ExecutionRecord)
    (stored : EnsembleResult) : ExecutionRecord × EnsembleResult :=
  let x := { x with
    committedSequence := stored.commitSequence
    status := statusFor stored.decision
    commits := retainLast limits.maxRetainedCommits.toNat (x.commits ++ [commitRecord stored]) }
  if stored.decision = .committed then
    let x := { x with candidates := x.candidates.map (settledCandidate stored.selectedCandidate) }
    let stored := { stored with candidates := candidateSnapshots limits e x }
    ({ x with result := some stored }, stored)
  else ({ x with result := some stored }, stored)

section Store

variable (limits : Limits) (e : EnsembleRecord) (x : ExecutionRecord) (stored : EnsembleResult)

@[simp] theorem storeResult_id : (storeResult limits e x stored).1.id = x.id := by
  unfold storeResult
  split <;> rfl

@[simp] theorem storeResult_status :
    (storeResult limits e x stored).1.status = statusFor stored.decision := by
  unfold storeResult
  split <;> rfl

@[simp] theorem storeResult_cancellationRequested :
    (storeResult limits e x stored).1.cancellationRequested = x.cancellationRequested := by
  unfold storeResult
  split <;> rfl

@[simp] theorem storeResult_evaluations :
    (storeResult limits e x stored).1.evaluations = x.evaluations := by
  unfold storeResult
  split <;> rfl

@[simp] theorem storeResult_pending :
    (storeResult limits e x stored).1.pending = x.pending := by
  unfold storeResult
  split <;> rfl

/-- What is stored is what the call answers. -/
@[simp] theorem storeResult_result :
    (storeResult limits e x stored).1.result = some (storeResult limits e x stored).2 := by
  unfold storeResult
  split <;> rfl

@[simp] theorem storeResult_commits :
    (storeResult limits e x stored).1.commits
      = retainLast limits.maxRetainedCommits.toNat (x.commits ++ [commitRecord stored]) := by
  unfold storeResult
  split <;> rfl

/-- A stored candidate keeps its slot and its content. -/
theorem storeResult_candidates :
    ∃ settle : CandidateRecord → CandidateRecord,
      (storeResult limits e x stored).1.candidates = x.candidates.map settle
        ∧ (settle = id ∨ settle = settledCandidate stored.selectedCandidate) := by
  unfold storeResult
  split
  · exact ⟨settledCandidate stored.selectedCandidate, rfl, .inr rfl⟩
  · exact ⟨id, by simp, .inl rfl⟩

end Store

def countCommit (core : Core) (r : EnsembleResult) : Core :=
  if r.decision = .committed then
    { core with
      counters := { core.counters with commitsAccepted := core.counters.commitsAccepted + 1 } }
  else core

def commitResult (f : Fabric) (r : EnsembleResult) : Fabric × Outcome EnsembleResult :=
  match commitTarget f r with
  | .error refusal => f.reject refusal
  | .ok (e, x) =>
      let x := { x with commitAttempts := x.commitAttempts + 1 }
      let attempted := f.store r.ensemble (e.holding x)
      match x.result with
      | some stored =>
          if stored.commitFingerprint = r.commitFingerprint then (attempted, .ok stored)
          else attempted.reject
            ⟨⟨.conflictingResultCommit,
              "this execution generation already committed a different authoritative result"⟩,
              .conflictingCommit⟩
      | none =>
          match commitAllowed e x with
          | .error error => (attempted, .error error)
          | .ok () =>
              match f.core.resultIds.allocate with
              | none => (attempted,
                  fail .resourceLimitExceeded "result identity space is exhausted")
              | some (id, resultIds) =>
                  let (sequence, core) := { f.core with resultIds }.nextSequence
                  let (x, stored) :=
                    storeResult f.config.limits e x (stampedResult r id sequence)
                  ({ f with core := countCommit core stored }.store r.ensemble (e.holding x),
                    .ok stored)

/-! ## Finalization -/

/-- The first section of `finalize`: the execution it may finalize. The preparation
and the commit are sections of their own. -/
def finalizeCheck (f : Fabric) (id : EnsembleId) (generation : EnsembleGeneration) :
    Outcome EnsembleExecutionId :=
  match f.find id with
  | none => fail .unknownEnsemble s!"unknown ensemble {id.toString}"
  | some e =>
      if e.spec.generation ≠ generation then
        fail .staleEnsembleGeneration "finalize targets a historical ensemble generation"
      else
        match e.execution with
        | none => fail .unknownExecution "the ensemble has no execution"
        | some x =>
            if !executionSettled e then
              fail .invalidStateTransition
                "the execution has not settled: candidates or evaluations are still in flight"
            else
              match x.status with
              | .revalidationRequired => fail .revalidationRequired
                  "the execution requires revalidation after coordinator recovery"
              | .cancelled => fail .ensembleCancelled "the execution was cancelled"
              | .superseded => fail .ensembleSuperseded "the execution generation is superseded"
              | _ =>
                  if e.superseded then
                    fail .ensembleSuperseded "the ensemble generation is superseded"
                  else .ok x.id

/-- Between the last two sections: the prepared result must still be about
the execution that was checked. -/
def finalizeCarry (checked : EnsembleExecutionId) (prepared : Outcome EnsembleResult) :
    Outcome EnsembleResult := do
  let result ← prepared
  if result.execution ≠ checked then
    fail .internalError "the execution generation changed during finalization"
  else return result

/-- What `finalize` answers after its commit section. -/
def finalizeAnswer (committed : Outcome EnsembleResult) : Outcome EnsembleResult := do
  let result ← committed
  if result.decision ≠ .committed then
    fail (consensusError result.consensus.state)
      s!"the ensemble reached a terminal non-success decision: {result.consensus.state.toString}"
  else return result

/-! ## Cancellation -/

def cancelledExecution (x : ExecutionRecord) (reason : String) (sequence : Sequence) :
    ExecutionRecord :=
  { x with
    cancellationRequested := true
    cancellationReason := reason
    cancelledSequence := sequence
    status := .cancelled
    committedSequence := {} }

def cancelEnsemble (f : Fabric) (id : EnsembleId) (generation : EnsembleGeneration)
    (reason : String) : Fabric × Status :=
  match f.find id with
  | none => (f, fail .unknownEnsemble s!"unknown ensemble {id.toString}")
  | some e =>
      if e.spec.generation ≠ generation then
        (f, fail .staleEnsembleGeneration "cancellation targets a historical ensemble generation")
      else
        match e.execution with
        | none => (f, fail .unknownExecution "the ensemble has no execution to cancel")
        | some x =>
            if x.result.isSome then
              (f, fail .resultAlreadyCommitted
                ("the execution already committed an authoritative result; cancellation does not "
                  ++ "revoke a committed result"))
            else if x.status = .cancelled then (f, okStatus)
            else
              let (sequence, core) := f.core.nextSequence
              let x := cancelledExecution x
                (sanitizeText reason f.config.limits.maxMetadataBytes) sequence
              ({ f with core }.store id (e.holding x), okStatus)

def currentResult (f : Fabric) (id : EnsembleId) : Outcome EnsembleResult :=
  match f.find id with
  | none => fail .unknownEnsemble s!"unknown ensemble {id.toString}"
  | some e =>
      match e.execution.bind (·.result) with
      | none => fail .notFound "the ensemble has not committed a result in this execution"
      | some result => .ok result

end EnsembleFabric

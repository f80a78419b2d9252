import EnsembleFabric.Records

/-!
# Reports

`computeReports` recomputes quorum, consensus and arbitration of an
execution from the evidence that is current (`fabric_commit.cpp`). It
changes the execution's report fields and the candidates' elimination
texts, and nothing else (the lemmas at the end say so field by field).

`summarizeCandidate` counts the current evaluations of a candidate's
current generation. The loops of the source that count become counts
over that list; the sums of scores and weights are folds over it, in the
order in which the evaluations arrived, since sums of doubles depend on
it. `summarizeCandidateIn` is the same in any arithmetic.

The three reports are computed one after the other and read each other:
consensus reads the quorum just computed, arbitration reads the evidence
only, and the fallback triggers that consensus asks for read the quorum
just computed and the consensus of the report before
(`withQuorum`, `computeReports_consensus`). So a report is a function of
the evidence and of the previous consensus.

Whether an execution is settled (`executionSettled`) is read off the
records and not off the reports.
-/

namespace EnsembleFabric

/-! ## Evidence about one candidate -/

/-- The evaluations that are evidence about the candidate as it stands. -/
def currentEvaluations (x : ExecutionRecord) (c : CandidateRecord) : List EvaluationRecord :=
  x.evaluations.filter fun e =>
    e.current && e.candidate == c.id && e.candidateGeneration == c.generation

theorem mem_currentEvaluations {x : ExecutionRecord} {c : CandidateRecord}
    {e : EvaluationRecord} :
    e ∈ currentEvaluations x c ↔ e ∈ x.evaluations ∧ e.current = true ∧ e.candidate = c.id
      ∧ e.candidateGeneration = c.generation := by
  simp [currentEvaluations, and_assoc]

def judged (judgment : CategoricalJudgment) (e : EvaluationRecord) : Bool :=
  e.judgment == judgment

def verified (verification : VerificationState) (e : EvaluationRecord) : Bool :=
  e.verification == verification

def isHard (e : EvaluationRecord) : Bool := e.kind == .hardPredicate

/-- The summary of the current evaluations, computed in an arithmetic. -/
def summarizeCandidateIn (ν : Type) [Arithmetic ν] (x : ExecutionRecord) (c : CandidateRecord) :
    CandidateEvaluationSummary ν :=
  let es := currentEvaluations x c
  let scored := es.filter (·.scoreDefined)
  let scores := scored.map fun e => Arithmetic.read e.score
  { candidate := c.id
    generation := c.generation
    evaluations := es.length
    accepts := es.countP (judged .accept)
    rejects := es.countP (judged .reject)
    abstentions := es.countP (judged .abstain)
    unknowns := es.countP (judged .unknown)
    distinctEvaluators := (es.map (·.evaluator)).eraseDups.length
    hardPredicates := es.countP isHard
    hardFailures := es.countP fun e => isHard e && verified .fail e
    hardUnknowns := es.countP fun e => isHard e && (verified .abstain e || verified .unknown e)
    verifierPass := es.countP (verified .pass)
    verifierFail := es.countP (verified .fail)
    verifierAbstain := es.countP (verified .abstain)
    verifierUnknown := es.countP (verified .unknown)
    weightedScoreSum := Arithmetic.sum (scored.map fun e =>
      Arithmetic.mul (Arithmetic.read e.score) (Arithmetic.read e.weight))
    weightSum := Arithmetic.sum (scored.map fun e => Arithmetic.read e.weight)
    minScore := scores.tail.foldl Arithmetic.lesser (scores.headD (Arithmetic.read .zero))
    maxScore := scores.tail.foldl Arithmetic.greater (scores.headD (Arithmetic.read .zero)) }

abbrev summarizeCandidate (x : ExecutionRecord) (c : CandidateRecord) :
    CandidateEvaluationSummary :=
  summarizeCandidateIn Double x c

/-! ## Settledness -/

/-- Every piece of work of the execution has resolved. A closed execution is
settled; an open one is once its stages are used up and nothing is in flight or
outstanding of a participant that can still act. -/
def executionSettled (e : EnsembleRecord) : Bool :=
  match e.execution with
  | none => false
  | some x =>
      let canAct := fun id => (e.participant? id).any (·.capable)
      if x.status ≠ .opened then true
      else if x.stageIndex < e.spec.effectiveStages.length + x.extraStages.length then false
      else
        x.candidates.all (fun c => !c.inFlight || !canAct c.participant)
          && x.pending.all fun p => p.answered || p.abandoned || !canAct p.evaluator

/-! ## Fallback -/

def fallbackTriggerFires (trigger : FallbackTrigger) (e : EnsembleRecord) (x : ExecutionRecord) :
    Bool :=
  match trigger with
  | .participantUnavailable => e.participants.any fun p =>
      p.declaration.required
        && (p.status == .unavailable || p.status == .fenced
          || (p.status == .failed && !p.registered))
  | .requiredParticipantFailed => e.participants.any fun p =>
      p.declaration.required && p.status == .failed
  | .retryExhausted => x.candidates.any fun c =>
      c.state == .failed && decide (e.spec.retry.maxAttempts.toNat ≤ c.attemptsUsed)
  | .allPrimaryInvalid =>
      let primary := x.candidates.filter (!·.fallback)
      !primary.isEmpty && primary.all fun c => !isContentState c.state
  | .quorumImpossible => x.quorum.state == .impossible
  | .requiredRoleUnavailable => e.spec.quorum.roleQuota.any fun q =>
      (e.participants.filter fun p =>
        p.declaration.roles.contains q.role && p.capable).length < q.minCount.toNat
  | .insufficientEvidence => e.spec.evaluatingParticipants.all fun declared =>
      !(e.participant? declared.id).any (·.capable)
  | .judgeDisagreement =>
      x.consensus.state == .disagreement || x.consensus.state == .tie
        || x.consensus.state == .insufficientEvidence

/-- A fallback candidate has produced content. -/
def fallbackContent (x : ExecutionRecord) : Bool :=
  x.candidates.any fun c => c.fallback && isContentState c.state

/-- An exhausted fallback policy still asks for a fallback: a trigger fires, and
no fallback candidate has content. -/
def fallbackRequired (e : EnsembleRecord) (x : ExecutionRecord) : Bool :=
  e.spec.fallback.enabled && decide (e.spec.fallback.maxDepth ≤ x.fallbackDepth)
    && !fallbackContent x
    && e.spec.fallback.triggers.any fun trigger => fallbackTriggerFires trigger e x

/-! ## Quorum inputs -/

def quorumMember (epoch : CoordinatorEpoch) (p : ParticipantRecord) : QuorumMember where
  participant := p.id
  generation := p.generation
  roles := p.declaration.roles
  required := p.declaration.required
  authorized := p.authoritative epoch
  available := p.status != .unavailable && p.status != .fenced && p.status != .retired
  failed := p.status == .failed
  fallback := p.fallbackActivated
  roleAvailable := p.status != .retired

def eligibleVote (e : EvaluationRecord) : EligibleVote where
  participant := e.evaluator
  generation := e.evaluatorGeneration
  role := e.role
  candidate := e.candidate
  candidateGeneration := e.candidateGeneration
  weight := e.weight
  abstained := e.judgment == .abstain || e.verification == .abstain

def eligibleVotes (x : ExecutionRecord) : List EligibleVote :=
  (x.evaluations.filter (·.current)).map eligibleVote

def validCandidates (x : ExecutionRecord) : Nat :=
  x.candidates.countP fun c => isContentState c.state

def invalidCandidates (x : ExecutionRecord) : Nat :=
  x.candidates.countP fun c =>
    !isContentState c.state && (c.state == .invalid || c.state == .failed)

/-- The quorum report of the current evidence. -/
def quorumReport (e : EnsembleRecord) (x : ExecutionRecord) (sequence : Sequence) :
    QuorumReport :=
  { computeQuorum e.spec.quorum (e.participants.map (quorumMember x.coordinatorEpoch))
      (eligibleVotes x) (validCandidates x) e.spec.generation x.coordinatorEpoch sequence with
    evaluations := (eligibleVotes x).length }

/-! ## Consensus inputs -/

def tallyCandidate (x : ExecutionRecord) (c : CandidateRecord) : CandidateTally :=
  let es := currentEvaluations x c
  { candidate := c.id
    generation := c.generation
    participant := c.participant
    eligible := isContentState c.state
    agreeing := es.countP (judged .accept)
    disagreeing := es.countP (judged .reject)
    abstaining := es.countP (judged .abstain)
    weightedAgree := Arithmetic.sum ((es.filter (judged .accept)).map (·.weight))
    agreeingMembers := (es.filter (judged .accept)).map (·.evaluator)
    disagreeingMembers := (es.filter (judged .reject)).map (·.evaluator)
    abstainingMembers := (es.filter (judged .abstain)).map (·.evaluator) }

def requiredParticipantFailed (e : EnsembleRecord) : Bool :=
  e.participants.any fun p => p.declaration.required && p.status == .failed

/-- What consensus looks at. The quorum report of `x` is the one just
computed; a trigger that reads the consensus reads the previous one. -/
def consensusInputs (e : EnsembleRecord) (x : ExecutionRecord) (sequence : Sequence) :
    ConsensusInputs where
  quorum := x.quorum
  tallies := x.candidates.map (tallyCandidate x)
  candidatesDeclared := x.candidates.length
  invalidCandidates := invalidCandidates x
  requiredParticipantFailed := requiredParticipantFailed e
  requireAllRequired := e.spec.completion.requireAllRequiredParticipants
  cancelled := x.status == .cancelled
  superseded := x.status == .superseded || e.superseded
  revalidationRequired := x.status == .revalidationRequired
  fallbackRequired := fallbackRequired e x
  requiresVotes := !e.spec.evaluatingParticipants.isEmpty
  ensembleGeneration := e.spec.generation
  coordinatorEpoch := x.coordinatorEpoch
  sequence

/-! ## Arbitration inputs -/

/-- A candidate as arbitration sees it, with a summary in an arithmetic. -/
def arbitrationInputIn (ν : Type) [Arithmetic ν] (e : EnsembleRecord) (x : ExecutionRecord)
    (c : CandidateRecord) : ArbitrationCandidateInput ν :=
  let participant := e.participant? c.participant
  { candidate := c.id
    generation := c.generation
    participant := c.participant
    participantGeneration := c.participantGeneration
    role := c.role
    state := c.state
    generationCurrent := c.current && c.generation.value != 0
    participantAuthoritative := participant.any (·.authoritative x.coordinatorEpoch)
    compatible := participant.any fun p =>
      (checkCompatibility p.declaration.compatibility p.profile).isOk
    requiredParticipant := participant.any (·.declaration.required)
    fallback := c.fallback
    roleSelectable := participant.any (·.declaration.selectable)
    participantPriority := (participant.map (·.declaration.priority)).getD 0
    executionCost := c.budgetUnitsUsed
    latency := c.latency
    specialistMatches :=
      if participant.any fun p =>
          p.declaration.domain != "" && p.declaration.domain == e.spec.taskClass then 1 else 0
    payloadBytes := c.payload.length
    evaluation := summarizeCandidateIn ν x c }

abbrev arbitrationInput (e : EnsembleRecord) (x : ExecutionRecord) (c : CandidateRecord) :
    ArbitrationCandidateInput :=
  arbitrationInputIn Double e x c

def arbitrationInputsIn (ν : Type) [Arithmetic ν] (e : EnsembleRecord) (x : ExecutionRecord)
    (sequence : Sequence) : ArbitrationInputs ν where
  candidates := x.candidates.map (arbitrationInputIn ν e x)
  policy := e.spec.arbitration
  aggregation := e.spec.aggregation
  evidence := e.spec.evidence
  quorumSatisfied := x.quorum.state == .reached
  ensembleGeneration := e.spec.generation
  coordinatorEpoch := x.coordinatorEpoch
  sequence

abbrev arbitrationInputs (e : EnsembleRecord) (x : ExecutionRecord) (sequence : Sequence) :
    ArbitrationInputs :=
  arbitrationInputsIn Double e x sequence

/-! ## The reports -/

/-- The elimination text a ranking gives the candidate it names. A candidate that
the ranking does not name keeps the text it had. -/
def markElimination (ranking : List CandidateRanking) (c : CandidateRecord) : CandidateRecord :=
  ranking.foldl
    (fun c r =>
      if c.id == r.candidate then
        { c with eliminationReason := if r.eligible then "" else r.elimination.toString }
      else c) c

def computeReports (e : EnsembleRecord) (x : ExecutionRecord) : ExecutionRecord :=
  let reportGeneration := x.reportGeneration + 1
  let sequence : Sequence := ⟨reportGeneration⟩
  let withQuorum := { x with reportGeneration, quorum := quorumReport e x sequence }
  let withConsensus :=
    { withQuorum with consensus := computeConsensus (consensusInputs e withQuorum sequence) }
  let arbitration := arbitrate (arbitrationInputs e withConsensus sequence)
  { withConsensus with
    arbitration
    candidates := x.candidates.map (markElimination arbitration.ranking) }

/-- The execution as consensus sees it: with the quorum just computed, and
the consensus of the report before. -/
def withQuorum (e : EnsembleRecord) (x : ExecutionRecord) : ExecutionRecord :=
  { x with
    reportGeneration := x.reportGeneration + 1
    quorum := quorumReport e x ⟨x.reportGeneration + 1⟩ }

theorem computeReports_consensus (e : EnsembleRecord) (x : ExecutionRecord) :
    (computeReports e x).consensus
      = computeConsensus (consensusInputs e (withQuorum e x) ⟨x.reportGeneration + 1⟩) := rfl

/-! ### What a report leaves alone -/

/-- Two candidates that differ in their elimination text at most. -/
def SameStanding (c c' : CandidateRecord) : Prop :=
  c' = { c with eliminationReason := c'.eliminationReason }

theorem markElimination_eq (ranking : List CandidateRanking) (c : CandidateRecord) :
    SameStanding c (markElimination ranking c) := by
  unfold markElimination
  induction ranking generalizing c with
  | nil => rfl
  | cons r rest ih =>
    rw [List.foldl_cons]
    split
    · exact ih { c with eliminationReason := if r.eligible then "" else r.elimination.toString }
    · exact ih c

section Candidate

variable (ranking : List CandidateRanking) (c : CandidateRecord)

@[simp] theorem markElimination_id : (markElimination ranking c).id = c.id := by
  rw [markElimination_eq ranking c]

@[simp] theorem markElimination_state : (markElimination ranking c).state = c.state := by
  rw [markElimination_eq ranking c]

@[simp] theorem markElimination_fallback :
    (markElimination ranking c).fallback = c.fallback := by
  rw [markElimination_eq ranking c]

@[simp] theorem markElimination_attemptsUsed :
    (markElimination ranking c).attemptsUsed = c.attemptsUsed := by
  rw [markElimination_eq ranking c]

/-- Arbitration sees a candidate the same with any elimination text. -/
theorem arbitrationInput_mark (e : EnsembleRecord) (x : ExecutionRecord) :
    arbitrationInput e x (markElimination ranking c) = arbitrationInput e x c := by
  rw [markElimination_eq ranking c]
  rfl

end Candidate

section Fields

variable (e : EnsembleRecord) (x : ExecutionRecord)

@[simp] theorem computeReports_id : (computeReports e x).id = x.id := rfl

@[simp] theorem computeReports_attemptGeneration :
    (computeReports e x).attemptGeneration = x.attemptGeneration := rfl

@[simp] theorem computeReports_status : (computeReports e x).status = x.status := rfl

@[simp] theorem computeReports_coordinatorEpoch :
    (computeReports e x).coordinatorEpoch = x.coordinatorEpoch := rfl

@[simp] theorem computeReports_evaluations :
    (computeReports e x).evaluations = x.evaluations := rfl

@[simp] theorem computeReports_pending : (computeReports e x).pending = x.pending := rfl

@[simp] theorem computeReports_extraStages :
    (computeReports e x).extraStages = x.extraStages := rfl

@[simp] theorem computeReports_stageIndex :
    (computeReports e x).stageIndex = x.stageIndex := rfl

@[simp] theorem computeReports_fallbackActivated :
    (computeReports e x).fallbackActivated = x.fallbackActivated := rfl

@[simp] theorem computeReports_fallbackDepth :
    (computeReports e x).fallbackDepth = x.fallbackDepth := rfl

@[simp] theorem computeReports_cancellationRequested :
    (computeReports e x).cancellationRequested = x.cancellationRequested := rfl

@[simp] theorem computeReports_result : (computeReports e x).result = x.result := rfl

@[simp] theorem computeReports_commits : (computeReports e x).commits = x.commits := rfl

theorem computeReports_candidates :
    (computeReports e x).candidates
      = x.candidates.map (markElimination (computeReports e x).arbitration.ranking) := rfl

/-- Reports are about the evidence, which they leave alone. -/
theorem computeReports_arbitrationCandidates :
    (computeReports e x).candidates.map (arbitrationInput e (computeReports e x))
      = x.candidates.map (arbitrationInput e x) := by
  rw [computeReports_candidates, List.map_map]
  refine List.map_congr_left fun c _ => ?_
  exact arbitrationInput_mark _ c e x

@[simp] theorem computeReports_fallbackContent :
    fallbackContent (computeReports e x) = fallbackContent x := by
  simp only [fallbackContent, computeReports_candidates, List.any_map]
  congr 1
  funext c
  simp

/-- A trigger that does not read the consensus reads the report just
computed. -/
theorem fallbackTriggerFires_computeReports {trigger : FallbackTrigger}
    (h : trigger ≠ .judgeDisagreement) :
    fallbackTriggerFires trigger e (computeReports e x)
      = fallbackTriggerFires trigger e { x with quorum := (computeReports e x).quorum } := by
  cases trigger with
  | retryExhausted =>
    simp only [fallbackTriggerFires, computeReports_candidates, List.any_map]
    congr 1
    funext c
    simp
  | allPrimaryInvalid =>
    have hprimary : ∀ ranking : List CandidateRanking,
        ((fun c : CandidateRecord => !c.fallback) ∘ markElimination ranking)
          = fun c => !c.fallback := by
      intro ranking
      funext c
      simp
    simp only [fallbackTriggerFires, computeReports_candidates, List.filter_map, hprimary,
      List.isEmpty_map, List.all_map]
    congr 2
    funext c
    simp
  | judgeDisagreement => exact absurd rfl h
  | _ => rfl

end Fields

end EnsembleFabric

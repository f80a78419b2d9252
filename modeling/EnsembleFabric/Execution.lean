import EnsembleFabric.Membership

/-!
# Opening and advancing executions

`openExecution` starts a fresh execution of the current generation.
`advance` computes the next actions: it declares and dispatches the
candidates of the current stage, plans and emits evaluations once the
stage plan is consumed, and activates fallback on an explicit trigger,
until a round makes no progress or 64 rounds have run
(`fabric_execution.cpp`).

The work is threaded through an `AdvanceState`. A round that hits a
resource bound stops with an error and keeps the changes made so far, so
the error carries the state it happened in.

A round is the nested loops of the source, one function each:

- `stageLoop` works off the stages: `declareStage` gives each member a
  candidate, `dispatchStage` hands out what can be handed out, and a
  stage that is complete makes way for the next one;
- `planEvaluations` and `emitEvaluations` follow once no stage is left:
  the first asks every evaluator about all content, the second hands out
  what the evaluators can serve now and gives up what they cannot;
- `activateFallback` synthesizes one more stage, and the next round
  works it off.

Every write to a candidate or a plan goes to a position (`setCandidate`,
`setPending`), as the source writes through references. An advance
answers its actions in the order in which the loops emit them.
-/

namespace EnsembleFabric

/-! ## Opening -/

def openExecution (f : Fabric) (id : EnsembleId) (generation : EnsembleGeneration) :
    Fabric × Outcome EnsembleExecutionId :=
  match f.find id with
  | none => (f, fail .unknownEnsemble s!"unknown ensemble {id.toString}")
  | some e =>
      if e.spec.generation ≠ generation then
        (f, fail .staleEnsembleGeneration
          (s!"execution requested for generation {generation.toString} but the current generation "
            ++ s!"is {e.spec.generation.toString}"))
      else if e.superseded then
        (f, fail .ensembleSuperseded "the ensemble generation is superseded")
      else if e.isOpen then
        (f, fail .invalidStateTransition
          "an execution is already open for this ensemble generation; cancel or commit it first")
      else if f.config.limits.maxInFlightExecutions.toNat ≤ f.openExecutions then
        (f, fail .resourceLimitExceeded "the in-flight execution bound is reached")
      else if e.execution.any fun x => x.id.value == lastWord then
        (f, fail .resourceLimitExceeded "execution identity space is exhausted")
      else
        let next : EnsembleExecutionId :=
          match e.execution with
          | some x => x.id.next
          | none => ⟨1⟩
        (f.store id (e.holding { id := next, coordinatorEpoch := f.core.epoch }), .ok next)

/-- `is_settled`. -/
def isSettled (f : Fabric) (id : EnsembleId) (generation : EnsembleGeneration) : Outcome Bool :=
  match f.find id with
  | none => fail .unknownEnsemble s!"unknown ensemble {id.toString}"
  | some e =>
      if e.spec.generation ≠ generation then
        fail .staleEnsembleGeneration "settled query targets a historical ensemble generation"
      else .ok (executionSettled e)

/-! ## Actions -/

structure DispatchAction where
  execution : ExecutionRef
  candidate : CandidateId
  candidateGeneration : CandidateGeneration
  participant : ParticipantId
  participantGeneration : ParticipantGeneration
  role : ParticipantRole
  stage : StageId
  attempt : Nat
  budgetUnits : UInt32
  deterministicSeed : UInt64
  domain : String
  request : List UInt8
  sequence : Sequence
deriving DecidableEq

structure EvaluationAction where
  execution : ExecutionRef
  evaluation : EvaluationId
  evaluationGeneration : EvaluationGeneration
  judge : ParticipantId
  judgeGeneration : ParticipantGeneration
  role : ParticipantRole
  candidate : CandidateId
  candidateGeneration : CandidateGeneration
  criterion : CriterionRef
  criterionKind : CriterionKind
  domain : String
  sequence : Sequence
deriving DecidableEq

structure CancelAction where
  execution : ExecutionRef
  participant : ParticipantId
  participantGeneration : ParticipantGeneration
  candidate : CandidateId
  candidateGeneration : CandidateGeneration
  reason : String
  sequence : Sequence
deriving DecidableEq

structure FallbackAction where
  execution : ExecutionRef
  participant : ParticipantId
  participantGeneration : ParticipantGeneration
  trigger : FallbackTrigger
  depth : UInt32
  sequence : Sequence
deriving DecidableEq

inductive FabricAction where
  | dispatch (action : DispatchAction)
  | evaluate (action : EvaluationAction)
  | cancel (action : CancelAction)
  | fallback (action : FallbackAction)
deriving DecidableEq

def executionRef (e : EnsembleRecord) (x : ExecutionRecord) : ExecutionRef where
  ensemble := e.spec.id
  ensembleGeneration := e.spec.generation
  execution := x.id
  attemptGeneration := x.attemptGeneration

/-! ## The state of an advance -/

/-- The state of an advance: the shared part of the runtime, the ensemble and its
execution as changed so far, the actions emitted so far, and whether the round
made progress. -/
structure AdvanceState where
  core : Core
  ensemble : EnsembleRecord
  execution : ExecutionRecord
  actions : List FabricAction := []
  progress : Bool := false

/-- The outcome of a part of an advance; an error keeps the state. -/
abbrev Advancing := Except (Error × AdvanceState) AdvanceState

namespace AdvanceState

/-- Stops the advance at a resource bound. -/
def exhausted (s : AdvanceState) (message : String) : Advancing :=
  .error (⟨.resourceLimitExceeded, message⟩, s)

def setCandidate (s : AdvanceState) (index : Nat) (c : CandidateRecord) : AdvanceState :=
  { s with execution := { s.execution with candidates := s.execution.candidates.set index c } }

def setPending (s : AdvanceState) (index : Nat) (p : PendingEvaluation) : AdvanceState :=
  { s with execution := { s.execution with pending := s.execution.pending.set index p } }

/-- The stages of the execution, fallback stages last. -/
def stages (s : AdvanceState) : List StageSpec :=
  s.ensemble.spec.effectiveStages ++ s.execution.extraStages

/-! ### Stage declaration -/

/-- The role a participant plays in a stage. -/
def stageRole (p : ParticipantSpec) (stage : StageSpec) : ParticipantRole :=
  if stage.fallbackStage && p.roles.contains .fallback then .fallback
  else if p.roles.contains .specialist then .specialist
  else if p.roles.contains .candidate then .candidate
  else .fallback

/-- The generation of a participant seat; 1 for a missing record. -/
def seatGeneration (e : EnsembleRecord) (id : ParticipantId) : ParticipantGeneration :=
  ((e.participant? id).map (·.generation)).getD ⟨1⟩

def declaredCandidate (e : EnsembleRecord) (stage : StageSpec) (declaration : ParticipantSpec)
    (participant : ParticipantId) (id : CandidateId) : CandidateRecord where
  id
  generation := ⟨1⟩
  participant
  participantGeneration := seatGeneration e participant
  role := stageRole declaration stage
  stage := stage.id
  domain := declaration.domain
  fallback := stage.fallbackStage

/-- Declares the candidate of one stage member, unless it exists. -/
def declareMember (limits : Limits) (stage : StageSpec) (s : AdvanceState)
    (participant : ParticipantId) : Advancing :=
  match s.ensemble.spec.findParticipant participant with
  | none => .ok s
  | some declaration =>
      if s.execution.candidates.any fun c => c.participant == participant && c.stage == stage.id
      then .ok s
      else if limits.maxCandidatesPerExecution.toNat ≤ s.execution.candidates.length then
        s.exhausted "the candidate bound for this execution is reached"
      else
        match s.core.candidateIds.allocate with
        | none => s.exhausted "candidate identity space is exhausted"
        | some (id, candidateIds) =>
            let c := declaredCandidate s.ensemble stage declaration participant id
            .ok { s with
              core := { s.core with candidateIds }
              execution := { s.execution with candidates := s.execution.candidates ++ [c] } }

def declareStage (limits : Limits) (stage : StageSpec) (s : AdvanceState) : Advancing :=
  if s.execution.declaredCurrentStage then .ok s
  else do
    let s ← stage.participants.foldlM (declareMember limits stage) s
    return { s with
      execution := { s.execution with declaredCurrentStage := true }
      progress := true }

/-! ### Dispatch -/

/-- An earlier candidate of a sequential stage is still in flight. -/
def earlierPending (x : ExecutionRecord) (stage : StageSpec) (c : CandidateRecord) : Bool :=
  x.candidates.any fun other =>
    other.stage == stage.id && other.id != c.id && decide (other.id.value < c.id.value)
      && other.inFlight

def dispatchedCandidate (core : Core) (p : ParticipantRecord) (sequence : Sequence)
    (c : CandidateRecord) : CandidateRecord :=
  { c with
    state := .dispatched
    dispatchSequence := sequence
    attemptsUsed := c.attemptsUsed + 1
    coordinatorEpoch := core.epoch
    worker := p.worker
    workerBoot := p.workerBoot }

def dispatchAction (e : EnsembleRecord) (x : ExecutionRecord) (p : ParticipantRecord)
    (c : CandidateRecord) (sequence : Sequence) : DispatchAction where
  execution := executionRef e x
  candidate := c.id
  candidateGeneration := c.generation
  participant := c.participant
  participantGeneration := p.generation
  role := c.role
  stage := c.stage
  attempt := c.attempt
  budgetUnits := p.declaration.executionBudgetUnits
  deterministicSeed := e.spec.deterministicSeed
  domain := c.domain
  request := textBytes e.spec.taskClass
  sequence

/-- Dispatches the declared candidate at a position. -/
def dispatchCandidate (s : AdvanceState) (index : Nat) (c : CandidateRecord)
    (p : ParticipantRecord) : AdvanceState :=
  let (sequence, core) := s.core.nextSequence
  { s.setCandidate index (dispatchedCandidate s.core p sequence c) with
    core
    actions := s.actions ++
      [.dispatch (dispatchAction s.ensemble s.execution p c sequence)]
    progress := true }

/-- A lost participant may still be replaced for this candidate: the policy
replaces participants, and the candidate has attempts left. -/
def awaitingReplacement (e : EnsembleRecord) (c : CandidateRecord) : Bool :=
  e.spec.retry.replaceParticipant && decide (c.attemptsUsed < e.spec.retry.maxAttempts.toNat)

/-- A declared candidate whose participant cannot serve it now. -/
def strandCandidate (s : AdvanceState) (index : Nat) (c : CandidateRecord)
    (p : ParticipantRecord) : AdvanceState :=
  if p.capable || awaitingReplacement s.ensemble c then s
  else
    let (ensemble, execution) := failCandidate s.ensemble s.execution index c
      .participantUnavailable
      s!"participant {p.id.toString} is {p.status.toString} and cannot serve this candidate"
    { s with ensemble, execution, progress := true }

/-- How the dispatch loop goes on after one candidate. -/
inductive DispatchNext where
  | proceed (dispatchedAny : Bool) (s : AdvanceState)
  | stop (s : AdvanceState)

/-- One candidate of the dispatch loop: adopted, dispatched, given up or left for
later. In a sequential stage nothing is dispatched behind a candidate that is
still in flight. -/
def dispatchOne (stage : StageSpec) (dispatchedAny : Bool) (s : AdvanceState) (index : Nat) :
    DispatchNext :=
  match s.execution.candidates[index]? with
  | none => .proceed dispatchedAny s
  | some c =>
      if c.stage ≠ stage.id ∨ c.state ≠ .declared then .proceed dispatchedAny s
      else
        match s.ensemble.participant? c.participant with
        | none => .proceed dispatchedAny s
        | some p =>
            let c := { c with participantGeneration := p.generation }
            let s := s.setCandidate index c
            if !p.authoritative s.core.epoch then
              .proceed dispatchedAny (s.strandCandidate index c p)
            else if stage.mode = .sequential ∧ dispatchedAny = false
                ∧ earlierPending s.execution stage c then .stop s
            else if stage.mode = .sequential then .stop (s.dispatchCandidate index c p)
            else .proceed true (s.dispatchCandidate index c p)

def dispatchLoop (stage : StageSpec) : List Nat → Bool → AdvanceState → AdvanceState
  | [], _, s => s
  | index :: rest, dispatchedAny, s =>
      match dispatchOne stage dispatchedAny s index with
      | .proceed dispatchedAny s => dispatchLoop stage rest dispatchedAny s
      | .stop s => s

/-- Dispatches every dispatchable candidate of the stage. -/
def dispatchStage (stage : StageSpec) (s : AdvanceState) : AdvanceState :=
  dispatchLoop stage (List.range s.execution.candidates.length) false s

def stageComplete (stage : StageSpec) (x : ExecutionRecord) : Bool :=
  stage.participants.all fun id =>
    let mine := x.candidates.filter fun c => c.participant == id && c.stage == stage.id
    !mine.isEmpty && mine.all fun c => !c.inFlight

/-- Declares and dispatches the remaining stages, as far as they complete. -/
def stageLoop (limits : Limits) : List StageSpec → AdvanceState → Advancing
  | [], s => .ok s
  | stage :: rest, s => do
      let s ← declareStage limits stage s
      let s := dispatchStage stage s
      if stageComplete stage s.execution then
        stageLoop limits rest
          { s with
            execution :=
              { s.execution with
                stageIndex := s.execution.stageIndex + 1
                declaredCurrentStage := false }
            progress := true }
      else return s

/-! ### Evaluation planning -/

/-- Some evaluation of the candidate was planned or received. -/
def everEvaluated (x : ExecutionRecord) (c : CandidateRecord) : Bool :=
  x.evaluations.any (·.candidate == c.id) || x.pending.any (·.candidate == c.id)

/-- Content that appeared after the plan was built asks for a new plan. -/
def reopenPlanning (s : AdvanceState) : AdvanceState :=
  if s.execution.planningComplete
      && (s.execution.candidates.any fun c =>
            isContentState c.state && !everEvaluated s.execution c)
      && !s.ensemble.spec.evaluatingParticipants.isEmpty then
    { s with execution := { s.execution with planningComplete := false }, progress := true }
  else s

/-- One planned evaluation before it has an identity. -/
structure PlanTarget where
  evaluator : ParticipantId
  role : ParticipantRole
  candidate : CandidateId
  candidateGeneration : CandidateGeneration
  criterion : CriterionRef
  kind : CriterionKind

/-- The evaluations one evaluator owes one candidate: as verifier the mandatory
criteria, as judge the judging criteria. -/
def evaluatorTargets (spec : EnsembleSpec) (c : CandidateRecord) (evaluator : ParticipantSpec) :
    List PlanTarget :=
  (if evaluator.roles.contains .verifier then
    spec.evidence.mandatoryCriteria.map fun criterion =>
      ⟨evaluator.id, .verifier, c.id, c.generation, criterion, .hardPredicate⟩
  else [])
  ++ (if evaluator.roles.contains .judge then
    spec.judgeCriteria.map fun criterion =>
      ⟨evaluator.id, .judge, c.id, c.generation, criterion, .rankingSignal⟩
  else [])

def planTargets (spec : EnsembleSpec) (candidates : List CandidateRecord) : List PlanTarget :=
  (candidates.filter fun c => isContentState c.state).flatMap fun c =>
    spec.evaluatingParticipants.flatMap (evaluatorTargets spec c)

def plannedEvaluation (e : EnsembleRecord) (t : PlanTarget) (id : EvaluationId) :
    PendingEvaluation where
  id
  generation := ⟨1⟩
  evaluator := t.evaluator
  evaluatorGeneration := seatGeneration e t.evaluator
  role := t.role
  candidate := t.candidate
  candidateGeneration := t.candidateGeneration
  criterion := t.criterion
  kind := t.kind

def planOne (s : AdvanceState) (t : PlanTarget) : Advancing :=
  match s.core.evaluationIds.allocate with
  | none => s.exhausted "evaluation identity space is exhausted"
  | some (id, evaluationIds) =>
      .ok { s with
        core := { s.core with evaluationIds }
        execution :=
          { s.execution with
            pending := s.execution.pending ++ [plannedEvaluation s.ensemble t id] } }

def planEvaluations (s : AdvanceState) : Advancing :=
  if s.execution.planningComplete then .ok s
  else do
    let planning := { s with execution := { s.execution with planningComplete := true } }
    let s ← (planTargets s.ensemble.spec s.execution.candidates).foldlM planOne planning
    return { s with progress := true }

/-! ### Evaluation emission -/

def abandonPending (s : AdvanceState) (index : Nat) (p : PendingEvaluation) : AdvanceState :=
  s.setPending index { p with abandoned := true }

def evaluationAction (e : EnsembleRecord) (x : ExecutionRecord) (p : PendingEvaluation)
    (evaluator : ParticipantRecord) (c : CandidateRecord) (sequence : Sequence) :
    EvaluationAction where
  execution := executionRef e x
  evaluation := p.id
  evaluationGeneration := p.generation
  judge := p.evaluator
  judgeGeneration := evaluator.generation
  role := p.role
  candidate := p.candidate
  candidateGeneration := p.candidateGeneration
  criterion := p.criterion
  criterionKind := p.kind
  domain := c.domain
  sequence

/-- The candidate a planned evaluation is about, when it still stands. -/
def standingTarget (x : ExecutionRecord) (p : PendingEvaluation) : Option CandidateRecord :=
  (x.candidate? p.candidate).filter fun c =>
    c.generation == p.candidateGeneration && isContentState c.state

/-- Emits, abandons or keeps the planned evaluation at a position. A plan that was
emitted is skipped before anything else about it is looked at. -/
def emitOne (s : AdvanceState) (index : Nat) : AdvanceState :=
  match s.execution.pending[index]? with
  | none => s
  | some p =>
      if p.answered || p.abandoned || p.emitted then s
      else
        match s.ensemble.participant? p.evaluator with
        | none => s.abandonPending index p
        | some evaluator =>
            if p.evaluatorGeneration ≠ evaluator.generation then s.abandonPending index p
            else if !evaluator.authoritative s.core.epoch then
              if evaluator.capable then s
              else { s.abandonPending index p with progress := true }
            else
              match standingTarget s.execution p with
              | none => { s.abandonPending index p with progress := true }
              | some c =>
                  let (sequence, core) := s.core.nextSequence
                  let action :=
                    evaluationAction s.ensemble s.execution p evaluator c sequence
                  { s.setPending index { p with emitted := true } with
                    core
                    actions := s.actions ++ [.evaluate action]
                    progress := true }

def emitEvaluations (s : AdvanceState) : AdvanceState :=
  (List.range s.execution.pending.length).foldl emitOne s

def report (s : AdvanceState) : AdvanceState :=
  { s with execution := computeReports s.ensemble s.execution }

/-! ### Fallback activation -/

/-- Emitted evaluations or candidates in flight are still outstanding. -/
def waiting (x : ExecutionRecord) : Bool :=
  (x.pending.any fun p => p.emitted && !p.answered && !p.abandoned)
    || x.candidates.any (·.inFlight)

/-- The first configured trigger that fires, when fallback may activate: it is
enabled, has not been activated, has depth left, and nothing is waited for. -/
def fallbackDecision (e : EnsembleRecord) (x : ExecutionRecord) : Option FallbackTrigger :=
  if e.spec.fallback.enabled && !x.fallbackActivated
      && decide (x.fallbackDepth < e.spec.fallback.maxDepth) && !waiting x then
    e.spec.fallback.triggers.find? fun trigger => fallbackTriggerFires trigger e x
  else none

def fallbackStage (spec : EnsembleSpec) (depth : UInt32) : StageSpec where
  id := ⟨(1000 + depth + 1).toUInt64⟩
  label := "fallback"
  participants := spec.fallback.fallbackParticipants
  fallbackStage := true

/-- The participants with one of them marked as activated. -/
def activatedParticipants (e : EnsembleRecord) (id : ParticipantId) : List ParticipantRecord :=
  match e.findParticipant id with
  | none => e.participants
  | some index => e.participants.modify index fun p => { p with fallbackActivated := true }

/-- Marks one fallback participant and requests it. -/
def activateMember (trigger : FallbackTrigger) (s : AdvanceState) (id : ParticipantId) :
    AdvanceState :=
  let (sequence, core) := s.core.nextSequence
  let action : FallbackAction :=
    { execution := executionRef s.ensemble s.execution
      participant := id
      participantGeneration := seatGeneration s.ensemble id
      trigger
      depth := s.execution.fallbackDepth
      sequence }
  { s with
    core
    ensemble := { s.ensemble with participants := activatedParticipants s.ensemble id }
    actions := s.actions ++ [.fallback action] }

/-- Synthesizes the fallback stage of the next depth. -/
def requestFallback (s : AdvanceState) : AdvanceState :=
  let counters := s.core.counters
  { s with
    core :=
      { s.core with
        counters := { counters with fallbackActivations := counters.fallbackActivations + 1 } }
    execution :=
      { s.execution with
        extraStages := s.execution.extraStages ++
          [fallbackStage s.ensemble.spec s.execution.fallbackDepth]
        fallbackActivated := true
        fallbackDepth := s.execution.fallbackDepth + 1
        planningComplete := false } }

def activateFallback (s : AdvanceState) : AdvanceState :=
  match fallbackDecision s.ensemble s.execution with
  | none => s
  | some trigger =>
      let members := s.ensemble.spec.fallback.fallbackParticipants
      { members.foldl (activateMember trigger) s.requestFallback with progress := true }

/-! ### Rounds -/

/-- The part of a round that follows a consumed stage plan. -/
def evaluationPhase (s : AdvanceState) : Advancing := do
  let s ← planEvaluations (reopenPlanning s)
  return activateFallback (report (emitEvaluations s))

def advanceRound (limits : Limits) (s : AdvanceState) : Advancing := do
  let s ← stageLoop limits (s.stages.drop s.execution.stageIndex) s
  if s.stages.length ≤ s.execution.stageIndex then evaluationPhase s else return s

/-- Rounds until one makes no progress, at most `fuel`. -/
def advanceLoop (limits : Limits) : Nat → AdvanceState → Advancing
  | 0, s => .ok s
  | fuel + 1, s =>
      if s.progress then do
        let s ← advanceRound limits { s with progress := false }
        advanceLoop limits fuel s
      else .ok s

end AdvanceState

/-! ## Advance -/

/-- Cancels the candidates in flight, in order. -/
def cancelInFlight (e : EnsembleRecord) (x : ExecutionRecord) :
    List CandidateRecord → Core → List CandidateRecord × List FabricAction × Core
  | [], core => ([], [], core)
  | c :: rest, core =>
      if c.inFlight then
        let (sequence, core) := core.nextSequence
        let action : CancelAction :=
          { execution := executionRef e x
            participant := c.participant
            participantGeneration := c.participantGeneration
            candidate := c.id
            candidateGeneration := c.generation
            reason := x.cancellationReason
            sequence }
        let (candidates, actions, core) := cancelInFlight e x rest core
        ({ c with state := .cancelled, current := false } :: candidates,
          .cancel action :: actions, core)
      else
        let (candidates, actions, core) := cancelInFlight e x rest core
        (c :: candidates, actions, core)

/-- What becomes of a candidate when the work in flight is cancelled. -/
def cancelledInFlight (c : CandidateRecord) : CandidateRecord :=
  if c.inFlight then { c with state := .cancelled, current := false } else c

theorem cancelInFlight_candidates (e : EnsembleRecord) (x : ExecutionRecord)
    (cs : List CandidateRecord) (core : Core) :
    (cancelInFlight e x cs core).1 = cs.map cancelledInFlight := by
  induction cs generalizing core with
  | nil => rfl
  | cons c cs ih =>
    rw [List.map_cons]
    unfold cancelInFlight cancelledInFlight
    split
    · exact congrArg (_ :: ·) (ih _)
    · exact congrArg (_ :: ·) (ih _)

/-- Only cancellations are sent. -/
theorem cancelInFlight_actions {e : EnsembleRecord} {x : ExecutionRecord}
    {cs : List CandidateRecord} {core : Core} {action : FabricAction}
    (h : action ∈ (cancelInFlight e x cs core).2.1) : ∃ cancel, action = .cancel cancel := by
  induction cs generalizing core with
  | nil => cases h
  | cons c cs ih =>
    unfold cancelInFlight at h
    split at h
    · rcases List.mem_cons.mp h with rfl | hlater
      · exact ⟨_, rfl⟩
      · exact ih hlater
    · exact ih h

/-- The one advance after a cancellation that withdraws the work. -/
def emitCancellation (core : Core) (e : EnsembleRecord) (x : ExecutionRecord) :
    ExecutionRecord × List FabricAction × Core :=
  let counted :=
    { core with
      counters := { core.counters with cancellations := core.counters.cancellations + 1 } }
  let (candidates, actions, core) := cancelInFlight e x x.candidates counted
  ({ x with
     cancellationEmitted := true
     candidates
     pending := x.pending.map fun p => { p with abandoned := true } }, actions, core)

/-- An execution of a superseded generation, closed by `advance`. -/
def closedExecution (x : ExecutionRecord) : ExecutionRecord :=
  { x with
    status := .superseded
    candidates := x.candidates.map fun c =>
      if c.inFlight then { c with state := .superseded, current := false } else c }

/-- `advance` on an open execution. -/
def advanceOpen (limits : Limits) (core : Core) (e : EnsembleRecord) (x : ExecutionRecord) :
    AdvanceState × Outcome (List FabricAction) :=
  let start : AdvanceState := { core, ensemble := e, execution := x, progress := true }
  match AdvanceState.advanceLoop limits 64 start with
  | .error (error, s) => (s, .error error)
  | .ok s => (s.report, .ok s.actions)

def advance (f : Fabric) (id : EnsembleId) (generation : EnsembleGeneration) :
    Fabric × Outcome (List FabricAction) :=
  match f.find id with
  | none => (f, fail .unknownEnsemble s!"unknown ensemble {id.toString}")
  | some e =>
      if e.spec.generation ≠ generation then
        (f, fail .staleEnsembleGeneration
          "advance requested for a historical ensemble generation")
      else
        match e.execution with
        | none => (f, .ok [])
        | some x =>
            match x.status with
            | .cancelled =>
                if x.cancellationEmitted then (f, .ok [])
                else
                  let (x, actions, core) := emitCancellation f.core e x
                  ({ f with core }.store id (e.holding x), .ok actions)
            | .opened =>
                if e.superseded then (f.store id (e.holding (closedExecution x)), .ok [])
                else
                  let (s, outcome) := advanceOpen f.config.limits f.core e x
                  ({ f with core := s.core }.store id (s.ensemble.holding s.execution), outcome)
            | _ => (f, .ok [])

end EnsembleFabric

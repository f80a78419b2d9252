import EnsembleFabric.Coordinator
import EnsembleFabric.LocalDriver

/-!
# The worker

A worker serves its participants over one connection: a dispatch or an
evaluation request that can be decoded is one call of the backend, and what
the backend answers goes back in one frame. `asked` is what the backend has
been asked, `sent` the frames handed to the channel.

The two requests are not treated alike where the backend fails. An error of
a dispatch is reported as the failure of the candidate, in the class
`failureKindFor` gives it; an error of an evaluation is dropped, since the
protocol has no message for the failure of an evaluation. A request that
cannot be decoded is dropped without an answer.
-/

namespace EnsembleFabric

/-- What `handle_frame` reads of the configuration. -/
structure WorkerConfig where
  worker : WorkerId
  workerBoot : WorkerBootId
  limits : Limits := {}
deriving DecidableEq

structure EnsembleWorker (σ : Type) where
  config : WorkerConfig
  backend : ParticipantBackend σ
  world : σ
  coordinatorEpoch : CoordinatorEpoch := {}
  sequence : Sequence := {}
  stop : Bool := false
  handled : UInt64 := 0
  cancelled : List CandidateId := []
  asked : List BackendRequest := []
  sent : List Frame := []

namespace EnsembleWorker

variable {σ : Type}

/-- The participant failure class of an error of the backend. -/
def failureKindFor : EnsembleError → ParticipantFailureKind
  | .participantUnavailable => .unavailable
  | .transportError => .transportError
  | .malformedCandidate => .malformedOutput
  | .malformedEvaluation => .malformedOutput
  | _ => .internalError

/-- The worker has asked its backend, sends the answer and has handled the
frame. -/
def reply (w : EnsembleWorker σ) (frame : Frame) (request : BackendRequest) (world : σ)
    (type : MessageType) (writes : List Write) : EnsembleWorker σ :=
  let sequence : Sequence := ⟨w.sequence.value + 1⟩
  { w with
    world
    sequence
    handled := w.handled + 1
    asked := w.asked ++ [request]
    sent := w.sent ++
      [{ type
         correlation := frame.correlation
         epoch := w.coordinatorEpoch
         workerBoot := w.config.workerBoot
         sequence
         payload := Encoder.buffer w.config.limits writes }] }

/-- Under what the worker answers for a participant. -/
def authority (w : EnsembleWorker σ) (ensemble : EnsembleId) (generation : EnsembleGeneration)
    (participant : ParticipantId) (participantGeneration : ParticipantGeneration) :
    ParticipantAuthority where
  ensemble
  ensembleGeneration := generation
  participant
  participantGeneration
  worker := w.config.worker
  workerBoot := w.config.workerBoot
  coordinatorEpoch := w.coordinatorEpoch

def dispatchAuthority (w : EnsembleWorker σ) (m : DispatchCandidateMessage) :
    CandidateAuthority where
  participant := w.authority m.ensemble m.ensembleGeneration m.participant m.participantGeneration
  execution := m.execution
  attemptGeneration := m.attemptGeneration
  candidate := m.candidate
  candidateGeneration := m.candidateGeneration

/-- The message a production is sent back in. -/
def productionMessage (authority : CandidateAuthority) :
    Outcome ParticipantProduction → MessageType × List Write
  | .error error =>
      (.candidateFailure, encodeCandidateFailure
        { authority, kind := failureKindFor error.code, detail := textBytes error.message })
  | .ok production =>
      match production.kind with
      | .failure =>
          (.candidateFailure, encodeCandidateFailure
            { authority, kind := production.failure, detail := textBytes production.detail })
      | .abstention =>
          (.candidateAbstention, encodeCandidateAbstention
            { authority, rationale := textBytes production.detail })
      | .content =>
          (.candidateResult, encodeCandidateResult
            { authority, payload := production.payload
              producedUnits := production.budgetUnitsUsed })

def handleDispatch (w : EnsembleWorker σ) (frame : Frame) (m : DispatchCandidateMessage) :
    EnsembleWorker σ :=
  let (production, world) := w.backend.produce m w.world
  let (type, writes) := productionMessage (w.dispatchAuthority m) production
  w.reply frame (.produce m) world type writes

def evaluationAnswer (w : EnsembleWorker σ) (m : EvaluationRequestMessage)
    (evaluation : ParticipantEvaluation) : EvaluationResultMessage where
  authority :=
    { evaluator := w.authority m.ensemble m.ensembleGeneration m.judge m.judgeGeneration
      execution := m.execution
      attemptGeneration := m.attemptGeneration
      evaluation := m.evaluation
      evaluationGeneration := m.evaluationGeneration
      candidate := m.candidate
      candidateGeneration := m.candidateGeneration }
  criterion := m.criterion
  criterionKind := m.criterionKind
  verification := evaluation.verification
  judgment := evaluation.judgment
  scoreDefined := evaluation.scoreDefined
  score := evaluation.score
  weight := evaluation.weight
  evidence := evaluation.evidence
  rationale := textBytes evaluation.rationale

/-- An error of the backend is not answered. -/
def handleEvaluation (w : EnsembleWorker σ) (frame : Frame) (m : EvaluationRequestMessage) :
    EnsembleWorker σ :=
  match w.backend.evaluate m w.world with
  | (.error _, world) => { w with world, asked := w.asked ++ [.evaluate m] }
  | (.ok evaluation, world) =>
      w.reply frame (.evaluate m) world .evaluationResult
        (encodeEvaluationResult (w.evaluationAnswer m evaluation))

def handleFrame (w : EnsembleWorker σ) (frame : Frame) : EnsembleWorker σ :=
  match frame.type with
  | .dispatchCandidate =>
      match Coordinator.decodeWhole decodeDispatchCandidate "candidate dispatch" frame with
      | .error _ => w
      | .ok m => w.handleDispatch frame m
  | .evaluationRequest =>
      match Coordinator.decodeWhole decodeEvaluationRequest "evaluation request" frame with
      | .error _ => w
      | .ok m => w.handleEvaluation frame m
  | .cancel =>
      match Coordinator.decodeFront decodeCancel frame with
      | .error _ => w
      | .ok m => { w with cancelled := m.candidate :: w.cancelled, handled := w.handled + 1 }
  | .goodbye => { w with stop := true }
  | _ => w

end EnsembleWorker

end EnsembleFabric

import EnsembleFabric.Commit
import EnsembleFabric.Library.EventSystem

/-!
# The concurrent runtime

One runtime shared by any number of clients. Every critical section of
the runtime is one atomic event. Most operations are a single section;
`finalize` (check, prepare, commit) and `restart` (epoch check,
invalidation, epoch bump) are three, and a client that is inside one of
them is remembered in its `ClientPhase`. `resume` runs the next section
of a client's operation, so that the sections of different clients
interleave in every order.

`prepared` records every value that a preparation returned to a client:
the values clients may later pass to the commit gate. The value `finalize`
prepares stays inside the operation. Read-only operations change nothing
and are not events.
-/

namespace EnsembleFabric

/-- How far a client is inside an operation of several sections, with what the
sections so far have found. -/
inductive ClientPhase where
  | idle
  | finalizePreparing (id : EnsembleId) (generation : EnsembleGeneration)
      (checked : EnsembleExecutionId)
  | finalizeCommitting (result : EnsembleResult)
  | restartInvalidating (reason : String)
  | restartBumping
deriving DecidableEq

/-- The runtime, the clients inside an operation, and the values that preparations
have returned to clients so far. -/
structure System where
  fabric : Fabric
  prepared : List EnsembleResult := []
  clients : Nat → ClientPhase := fun _ => .idle

/-- What may happen to the runtime: one critical section of one operation. The
operations of several sections begin with an event of their own, and `resume`
runs their next section. -/
inductive Event where
  | defineEnsemble (spec : EnsembleSpec)
  | supersedeEnsemble (id : EnsembleId) (generation : EnsembleGeneration)
  | registerParticipant (registration : ParticipantRegistration)
  | openExecution (id : EnsembleId) (generation : EnsembleGeneration)
  | advance (id : EnsembleId) (generation : EnsembleGeneration)
  | submitCandidate (submission : CandidateSubmission)
  | submitCandidateFailure (submission : CandidateFailureSubmission)
  | submitCandidateAbstention (submission : CandidateAbstentionSubmission)
  | submitEvaluation (submission : EvaluationSubmission)
  | reportParticipantFailure (authority : ParticipantAuthority) (kind : ParticipantFailureKind)
      (detail : String)
  | cancelEnsemble (id : EnsembleId) (generation : EnsembleGeneration) (reason : String)
  | invalidateDynamicAuthority (reason : String)
  | prepareResult (id : EnsembleId) (generation : EnsembleGeneration)
  | commitResult (result : EnsembleResult)
  | finalize (client : Nat) (id : EnsembleId) (generation : EnsembleGeneration)
  | restart (client : Nat) (reason : String)
  /-- The next section of a client's operation; `boot` is the incarnation a
  restart draws when none is configured. -/
  | resume (client : Nat) (boot : WorkerBootId)

/-- What an event answers its client. -/
inductive Response where
  | silent
  | status (outcome : Status)
  | generation (outcome : Outcome EnsembleGeneration)
  | seated (outcome : Outcome ParticipantGeneration)
  | opened (outcome : Outcome EnsembleExecutionId)
  | actions (outcome : Outcome (List FabricAction))
  | evaluation (outcome : Outcome EvaluationId)
  | prepared (outcome : Outcome EnsembleResult)
  | committed (outcome : Outcome EnsembleResult)
  | epoch (outcome : Outcome CoordinatorEpoch)

namespace System

/-- A runtime nobody has used yet. -/
def initial (config : FabricConfig) : System where
  fabric := .create config

def setClient (s : System) (client : Nat) (phase : ClientPhase) : System :=
  { s with clients := Function.update s.clients client phase }

/-- An operation of one section. -/
def answer {α : Type} (s : System) (reply : α → Response) (result : Fabric × α) :
    System × Response :=
  ({ s with fabric := result.1 }, reply result.2)

/-- Remembers a value that a preparation returned. -/
def remember (s : System) (outcome : Outcome EnsembleResult) : System :=
  match outcome with
  | .ok result => { s with prepared := result :: s.prepared }
  | .error _ => s

/-- The last section of `restart`. -/
def bumpEpoch (f : Fabric) (boot : WorkerBootId) : Fabric :=
  { f with
    core :=
      { f.core with
        epoch := f.core.epoch.next
        coordinatorBoot :=
          if f.config.coordinatorBoot.valid then f.config.coordinatorBoot else boot } }

/-- The next section of the operation a client is in. -/
def resume (s : System) (client : Nat) (boot : WorkerBootId) : System × Response :=
  match s.clients client with
  | .idle => (s, .silent)
  | .finalizePreparing id generation checked =>
      let (fabric, prepared) := prepareResult s.fabric id generation
      let s := { s with fabric }
      match finalizeCarry checked prepared with
      | .error error => (s.setClient client .idle, .committed (.error error))
      | .ok result => (s.setClient client (.finalizeCommitting result), .silent)
  | .finalizeCommitting result =>
      let (fabric, committed) := commitResult s.fabric result
      ({ s with fabric }.setClient client .idle, .committed (finalizeAnswer committed))
  | .restartInvalidating reason =>
      ({ s with fabric := invalidateDynamicAuthority s.fabric reason }.setClient client
        .restartBumping, .silent)
  | .restartBumping =>
      let fabric := bumpEpoch s.fabric boot
      ({ s with fabric }.setClient client .idle, .epoch (.ok fabric.core.epoch))

def step (s : System) : Event → System × Response
  | .defineEnsemble spec => s.answer .generation (defineEnsemble s.fabric spec)
  | .supersedeEnsemble id generation =>
      s.answer .status (supersedeEnsemble s.fabric id generation)
  | .registerParticipant registration =>
      s.answer .seated (registerParticipant s.fabric registration)
  | .openExecution id generation => s.answer .opened (openExecution s.fabric id generation)
  | .advance id generation => s.answer .actions (advance s.fabric id generation)
  | .submitCandidate submission => s.answer .status (submitCandidate s.fabric submission)
  | .submitCandidateFailure submission =>
      s.answer .status (submitCandidateFailure s.fabric submission)
  | .submitCandidateAbstention submission =>
      s.answer .status (submitCandidateAbstention s.fabric submission)
  | .submitEvaluation submission =>
      s.answer .evaluation (submitEvaluation s.fabric submission)
  | .reportParticipantFailure authority kind detail =>
      s.answer .status (reportParticipantFailure s.fabric authority kind detail)
  | .cancelEnsemble id generation reason =>
      s.answer .status (cancelEnsemble s.fabric id generation reason)
  | .invalidateDynamicAuthority reason =>
      s.answer .status (invalidateDynamicAuthority s.fabric reason, okStatus)
  | .prepareResult id generation =>
      let (fabric, prepared) := prepareResult s.fabric id generation
      ({ s with fabric }.remember prepared, .prepared prepared)
  | .commitResult result => s.answer .committed (commitResult s.fabric result)
  | .finalize client id generation =>
      -- a client inside another operation does not start a new one
      if s.clients client ≠ .idle then (s, .silent)
      else
        match finalizeCheck s.fabric id generation with
        | .error error => (s, .committed (.error error))
        | .ok checked => (s.setClient client (.finalizePreparing id generation checked), .silent)
  | .restart client reason =>
      if s.clients client ≠ .idle then (s, .silent)
      else if s.fabric.core.epoch.value = lastWord then
        (s, .epoch (fail .resourceLimitExceeded "coordinator epoch space is exhausted"))
      else (s.setClient client (.restartInvalidating reason), .silent)
  | .resume client boot => s.resume client boot

/-- The state after an event. -/
def next (s : System) (event : Event) : System := (s.step event).1

/-- What an event answers in a state. -/
def reply (s : System) (event : Event) : Response := (s.step event).2

/-- The state after a run of events. -/
abbrev run (s : System) (events : List Event) : System := EventSystem.run next s events

end System

/-! ## Concrete runs

Events of ensemble 1, generation 1, execution 1, in which participant `p`
is served by worker `p`. Runs that refute something are made of these. -/

namespace Sample

def participant (id : UInt64) (roles : RoleSet) : ParticipantSpec where
  id := ⟨id⟩
  roles

def candidateRole : RoleSet := ⟨ParticipantRole.candidate.bit⟩

def judgeRole : RoleSet := ⟨ParticipantRole.judge.bit⟩

def verifierRole : RoleSet := ⟨ParticipantRole.verifier.bit⟩

def fallbackRole : RoleSet := ⟨ParticipantRole.fallback.bit⟩

def register (p : UInt64) : Event :=
  .registerParticipant
    { ensemble := ⟨1⟩, ensembleGeneration := ⟨1⟩, participant := ⟨p⟩, worker := ⟨p⟩
      workerBoot := ⟨p⟩, coordinatorEpoch := ⟨1⟩ }

def authority (p : UInt64) : ParticipantAuthority where
  ensemble := ⟨1⟩
  ensembleGeneration := ⟨1⟩
  participant := ⟨p⟩
  participantGeneration := ⟨1⟩
  worker := ⟨p⟩
  workerBoot := ⟨p⟩
  coordinatorEpoch := ⟨1⟩

def candidateAuthority (p c : UInt64) : CandidateAuthority where
  participant := authority p
  execution := ⟨1⟩
  attemptGeneration := ⟨1⟩
  candidate := ⟨c⟩
  candidateGeneration := ⟨1⟩

def evaluationAuthority (p c e : UInt64) : EvaluationAuthority where
  evaluator := authority p
  execution := ⟨1⟩
  attemptGeneration := ⟨1⟩
  evaluation := ⟨e⟩
  evaluationGeneration := ⟨1⟩
  candidate := ⟨c⟩
  candidateGeneration := ⟨1⟩

def advance : Event := .advance ⟨1⟩ ⟨1⟩

/-- Defines the ensemble, seats every participant and dispatches the first
candidates. -/
def start (spec : EnsembleSpec) : List Event :=
  .defineEnsemble spec :: spec.participants.map (fun p => register p.id.value)
    ++ [.openExecution ⟨1⟩ ⟨1⟩, advance]

/-- Participant `p` submits content for its candidate `c`. -/
def content (p c : UInt64) (payload : List UInt8) : Event :=
  .submitCandidate { authority := candidateAuthority p c, payload }

/-- Judge `p` judges candidate `c` on a criterion; the evaluation was planned
as `e`. -/
def judge (p c e : UInt64) (criterion : UInt32) (judgment : CategoricalJudgment) : Event :=
  .submitEvaluation
    { authority := evaluationAuthority p c e, criterion := ⟨criterion, 1⟩, judgment }

/-- Verifier `p` answers a mandatory criterion. -/
def verify (p c e : UInt64) (criterion : UInt32) (verification : VerificationState) : Event :=
  .submitEvaluation
    { authority := evaluationAuthority p c e, criterion := ⟨criterion, 1⟩, kind := .hardPredicate
      verification }

/-- The state after a run on an unused runtime. -/
def reached (events : List Event) : System := (System.initial {}).run events

/-- The ensemble of the run. -/
def ensemble (events : List Event) : Option EnsembleRecord := (reached events).fabric.find ⟨1⟩

/-- The execution of the run. -/
def execution (events : List Event) : Option ExecutionRecord :=
  (ensemble events).bind (·.execution)

/-- The result a preparation returns after the run. -/
def prepared (events : List Event) : EnsembleResult :=
  match (prepareResult (reached events).fabric ⟨1⟩ ⟨1⟩).2 with
  | .ok result => result
  | .error _ => {}

end Sample

end EnsembleFabric

import EnsembleFabric.Frame
import EnsembleFabric.Inspect
import EnsembleFabric.Message

/-!
# The local driver

`LocalEnsembleDriver` performs the actions of the runtime against
participants of its own process: every dispatch and every evaluation is one
call of a backend, whose answer is submitted at once.

A backend is code of the embedding application. What it answers may depend
on what it has been asked before, and backends may share what they remember;
`σ` is the state all of them are in. `asked` is what the backends have been
asked, in order.

A participant is attached first and registered later, under the generation
the runtime answers. `kill` reports its failure to the runtime; it then
serves nobody, and an action for it is counted and nothing more. The payload
a judge is shown is looked up in a snapshot of the ensemble, taken when the
evaluation is performed.
-/

namespace EnsembleFabric

/-! ## Backends -/

inductive ProductionKind where
  | content
  | abstention
  | failure
deriving DecidableEq

/-- What a backend produces for one dispatched candidate slot. -/
structure ParticipantProduction where
  kind : ProductionKind := .content
  payload : List UInt8 := []
  failure : ParticipantFailureKind := .internalError
  detail : String := ""
  budgetUnitsUsed : UInt32 := 0
deriving DecidableEq

/-- What a backend answers to one evaluation request. -/
structure ParticipantEvaluation where
  verification : VerificationState := .unknown
  judgment : CategoricalJudgment := .unknown
  scoreDefined : Bool := false
  score : Double := .zero
  weight : Double := .one
  evidence : List UInt8 := []
  rationale : String := ""
deriving DecidableEq

structure ParticipantBackend (σ : Type) where
  produce : DispatchCandidateMessage → σ → Outcome ParticipantProduction × σ
  evaluate : EvaluationRequestMessage → σ → Outcome ParticipantEvaluation × σ

/-- A call of a backend. -/
inductive BackendRequest where
  | produce (request : DispatchCandidateMessage)
  | evaluate (request : EvaluationRequestMessage)
deriving DecidableEq

/-! ## The driver -/

/-- One participant served inside the current process. -/
structure LocalParticipant (σ : Type) where
  id : ParticipantId
  generation : ParticipantGeneration := {}
  worker : WorkerId
  workerBoot : WorkerBootId
  roles : RoleSet := {}
  profile : CompatibilityProfile := {}
  domain : String := ""
  backend : Option (ParticipantBackend σ)
  registered : Bool := false
  alive : Bool := true

def LocalParticipant.authoritative {σ : Type} (p : LocalParticipant σ) : Bool :=
  p.registered && p.alive

structure LocalEnsembleDriver (σ : Type) where
  fabric : Fabric
  ensemble : EnsembleId := {}
  ensembleGeneration : EnsembleGeneration := {}
  participants : List (LocalParticipant σ) := []
  world : σ
  asked : List BackendRequest := []

namespace LocalEnsembleDriver

variable {σ : Type}

/-- `attach`; the position of the new participant stands for the reference. -/
def attach (d : LocalEnsembleDriver σ) (ensemble : EnsembleId) (generation : EnsembleGeneration)
    (declaration : ParticipantSpec) (backend : Option (ParticipantBackend σ)) (worker : WorkerId)
    (workerBoot : WorkerBootId) (profile : CompatibilityProfile) : LocalEnsembleDriver σ × Nat :=
  let p : LocalParticipant σ :=
    { id := declaration.id
      roles := declaration.roles
      domain := declaration.domain
      backend
      worker
      workerBoot
      profile :=
        { profile with
          protocolVersion :=
            if profile.protocolVersion == 0 then protocolVersion else profile.protocolVersion
          taskClass := declaration.compatibility.requiredTaskClass } }
  ({ d with
    participants := d.participants ++ [p]
    ensemble
    ensembleGeneration := generation }, d.participants.length)

def registration (d : LocalEnsembleDriver σ) (p : LocalParticipant σ) :
    ParticipantRegistration where
  ensemble := d.ensemble
  ensembleGeneration := d.ensembleGeneration
  participant := p.id
  worker := p.worker
  workerBoot := p.workerBoot
  coordinatorEpoch := d.fabric.core.epoch
  profile := p.profile
  claimedRoles := p.roles

/-- `register_participant` of the participant at a position. -/
def registerAt (d : LocalEnsembleDriver σ) (index : Nat) : LocalEnsembleDriver σ × Status :=
  match d.participants[index]? with
  | none => (d, okStatus)
  | some p =>
      match registerParticipant d.fabric (d.registration p) with
      | (fabric, .error error) => ({ d with fabric }, .error error)
      | (fabric, .ok generation) =>
          ({ d with
            fabric
            participants :=
              d.participants.set index { p with generation, registered := true, alive := true } },
            okStatus)

/-- The rounds of `register_all`, from a position on. -/
def registerFrom (d : LocalEnsembleDriver σ) (index : Nat) :
    Nat → LocalEnsembleDriver σ × Status
  | 0 => (d, okStatus)
  | rounds + 1 =>
      match d.registerAt index with
      | (d, .error error) => (d, .error error)
      | (d, .ok ()) => d.registerFrom (index + 1) rounds

def registerAll (d : LocalEnsembleDriver σ) : LocalEnsembleDriver σ × Status :=
  d.registerFrom 0 d.participants.length

def authorityOf (d : LocalEnsembleDriver σ) (p : LocalParticipant σ) : ParticipantAuthority where
  ensemble := d.ensemble
  ensembleGeneration := d.ensembleGeneration
  participant := p.id
  participantGeneration := p.generation
  worker := p.worker
  workerBoot := p.workerBoot
  coordinatorEpoch := d.fabric.core.epoch

def find (d : LocalEnsembleDriver σ) (id : ParticipantId) : Option (LocalParticipant σ) :=
  d.participants.find? (·.id == id)

/-- The participant and its backend, if the participant is able to serve. -/
def serving (d : LocalEnsembleDriver σ) (id : ParticipantId) :
    Option (LocalParticipant σ × ParticipantBackend σ) := do
  let p ← d.find id
  if !p.authoritative then none
  else
    let backend ← p.backend
    return (p, backend)

/-! ## Performing an action -/

def dispatchRequest (d : LocalEnsembleDriver σ) (a : DispatchAction) :
    DispatchCandidateMessage where
  ensemble := a.execution.ensemble
  ensembleGeneration := a.execution.ensembleGeneration
  execution := a.execution.execution
  attemptGeneration := a.execution.attemptGeneration
  participant := a.participant
  participantGeneration := a.participantGeneration
  coordinatorEpoch := d.fabric.core.epoch
  candidate := a.candidate
  candidateGeneration := a.candidateGeneration
  role := a.role
  stage := a.stage
  attempt := UInt32.ofNat a.attempt
  budgetUnits := a.budgetUnits
  deterministicSeed := a.deterministicSeed
  domain := textBytes a.domain
  request := a.request

def evaluationRequest (d : LocalEnsembleDriver σ) (a : EvaluationAction) (payload : List UInt8) :
    EvaluationRequestMessage where
  ensemble := a.execution.ensemble
  ensembleGeneration := a.execution.ensembleGeneration
  execution := a.execution.execution
  attemptGeneration := a.execution.attemptGeneration
  judge := a.judge
  judgeGeneration := a.judgeGeneration
  coordinatorEpoch := d.fabric.core.epoch
  evaluation := a.evaluation
  evaluationGeneration := a.evaluationGeneration
  role := a.role
  candidate := a.candidate
  candidateGeneration := a.candidateGeneration
  criterion := a.criterion
  criterionKind := a.criterionKind
  candidatePayload := payload
  domain := textBytes a.domain

/-- The payload of a candidate in a snapshot; the last candidate of the
identity counts. -/
def shownPayload (snapshot : EnsembleSnapshot) (candidate : CandidateId) : List UInt8 :=
  snapshot.candidates.foldl (fun payload c => if c.id = candidate then c.payload else payload) []

/-- A submission to the runtime, and whether it was accepted. -/
def submit {α : Type} (d : LocalEnsembleDriver σ) (result : Fabric × Outcome α) :
    LocalEnsembleDriver σ × Bool :=
  ({ d with fabric := result.1 }, result.2.isOk)

def submitProduction (d : LocalEnsembleDriver σ) (authority : CandidateAuthority) :
    Outcome ParticipantProduction → LocalEnsembleDriver σ × Bool
  | .error _ =>
      d.submit (submitCandidateFailure d.fabric
        { authority
          participantFailure := ParticipantFailureKind.internalError.number.toUInt32 })
  | .ok production =>
      match production.kind with
      | .content =>
          d.submit (submitCandidate d.fabric { authority, payload := production.payload })
      | .abstention =>
          d.submit (submitCandidateAbstention d.fabric
            { authority, rationale := production.detail })
      | .failure =>
          d.submit (submitCandidateFailure d.fabric
            { authority, participantFailure := production.failure.number.toUInt32 })

def performDispatch (d : LocalEnsembleDriver σ) (a : DispatchAction) :
    LocalEnsembleDriver σ × Bool :=
  match d.serving a.participant with
  | none => (d, false)
  | some (p, backend) =>
      let request := d.dispatchRequest a
      let authority : CandidateAuthority :=
        { participant := d.authorityOf p
          execution := a.execution.execution
          attemptGeneration := a.execution.attemptGeneration
          candidate := a.candidate
          candidateGeneration := a.candidateGeneration }
      let (production, world) := backend.produce request d.world
      { d with world, asked := d.asked ++ [BackendRequest.produce request] }.submitProduction
        authority production

def performEvaluation (d : LocalEnsembleDriver σ) (a : EvaluationAction) :
    LocalEnsembleDriver σ × Bool :=
  match d.serving a.judge with
  | none => (d, false)
  | some (p, backend) =>
      match inspect d.fabric d.ensemble with
      | .error _ => (d, false)
      | .ok snapshot =>
          let request := d.evaluationRequest a (shownPayload snapshot a.candidate)
          let (evaluation, world) := backend.evaluate request d.world
          let d := { d with world, asked := d.asked ++ [.evaluate request] }
          match evaluation with
          | .error _ => (d, false)
          | .ok evaluation =>
              d.submit (submitEvaluation d.fabric
                { authority :=
                    { evaluator := d.authorityOf p
                      execution := a.execution.execution
                      attemptGeneration := a.execution.attemptGeneration
                      evaluation := a.evaluation
                      evaluationGeneration := a.evaluationGeneration
                      candidate := a.candidate
                      candidateGeneration := a.candidateGeneration }
                  criterion := a.criterion
                  kind := a.criterionKind
                  verification := evaluation.verification
                  judgment := evaluation.judgment
                  scoreDefined := evaluation.scoreDefined
                  score := evaluation.score
                  weight := evaluation.weight
                  evidence := evaluation.evidence
                  rationale := evaluation.rationale })

/-- One action of `step`; the other actions are only counted. -/
def perform (d : LocalEnsembleDriver σ) : FabricAction → LocalEnsembleDriver σ × Bool
  | .dispatch a => d.performDispatch a
  | .evaluate a => d.performEvaluation a
  | .cancel _ => (d, true)
  | .fallback _ => (d, true)

/-- The actions of a round, and how many were performed. -/
def performAll (d : LocalEnsembleDriver σ) : List FabricAction → LocalEnsembleDriver σ × Nat
  | [] => (d, 0)
  | a :: actions =>
      let (d, performed) := d.perform a
      let (d, count) := d.performAll actions
      (d, if performed then count + 1 else count)

/-! ## Rounds -/

def withFabric (d : LocalEnsembleDriver σ) (fabric : Fabric) : LocalEnsembleDriver σ :=
  { d with fabric }

def step (d : LocalEnsembleDriver σ) : LocalEnsembleDriver σ × Outcome Nat :=
  match advance d.fabric d.ensemble d.ensembleGeneration with
  | (fabric, .error error) => (d.withFabric fabric, .error error)
  | (fabric, .ok actions) =>
      let (d, performed) := (d.withFabric fabric).performAll actions
      (d, .ok performed)

def run (d : LocalEnsembleDriver σ) : Nat → LocalEnsembleDriver σ × Status
  | 0 => (d, fail .resourceLimitExceeded "the local driver exceeded its round budget")
  | rounds + 1 =>
      match d.step with
      | (d, .error error) => (d, .error error)
      | (d, .ok performed) => if performed = 0 then (d, okStatus) else d.run rounds

/-- `kill` of the participant at a position. -/
def kill (d : LocalEnsembleDriver σ) (index : Nat) (detail : String) :
    LocalEnsembleDriver σ × Status :=
  match d.participants[index]? with
  | none => (d, okStatus)
  | some p =>
      if !p.registered then
        (d, fail .participantNotAuthoritative "participant is not registered and cannot be killed")
      else
        let (fabric, reported) :=
          reportParticipantFailure d.fabric (d.authorityOf p) .unavailable detail
        ({ d with
          fabric
          participants := d.participants.set index { p with alive := false, registered := false } },
          reported)

end LocalEnsembleDriver

end EnsembleFabric

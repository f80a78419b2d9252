import EnsembleFabric.Commit

/-!
# Inspection

`inspect` answers a snapshot of an ensemble: its participants, and of its
execution the status, the reports as they were last computed, and as many
candidates and evaluations as a snapshot may hold (`fabric_inspect.cpp`).
It reads the runtime and changes nothing. The quorum report is patched on
the way: it states how many evaluations there are now, while the other
numbers are those of the last computation.

Snapshots are what the inspection replies of the coordinator are printed
from (`Rendering`), and what the published quorum of an ensemble means
(`PublishedQuorum`).
-/

namespace EnsembleFabric

structure ParticipantSnapshot where
  id : ParticipantId
  generation : ParticipantGeneration
  label : String
  roles : RoleSet
  required : Bool
  domain : String
  priority : UInt32
  status : ParticipantStatus
  worker : WorkerId
  workerBoot : WorkerBootId
  coordinatorEpoch : CoordinatorEpoch
  profile : CompatibilityProfile
  replacementCount : Nat
  candidatesCompleted : Nat
  candidatesFailed : Nat
  candidatesAbstained : Nat
  evaluationsSubmitted : Nat
  retriesConsumed : Nat
  fallbackActivated : Bool
  authoritative : Bool
deriving DecidableEq

/-- The view of an ensemble; the fields of an execution are those of none
where it has not been opened. -/
structure EnsembleSnapshot where
  id : EnsembleId
  generation : EnsembleGeneration
  label : String
  taskClass : String
  specFingerprint : UInt64
  coordinatorEpoch : CoordinatorEpoch
  execution : EnsembleExecutionId := {}
  attemptGeneration : EnsembleAttemptGeneration := {}
  executionStatus : ExecutionStatus := .none
  cancelled : Bool := false
  superseded : Bool
  revalidationRequired : Bool := false
  fallbackActivated : Bool := false
  fallbackDepth : UInt32 := 0
  participants : List ParticipantSnapshot
  candidates : List CandidateSnapshot := []
  evaluations : List EvaluationSnapshot := []
  quorum : QuorumReport := {}
  consensus : ConsensusReport := {}
  arbitration : ArbitrationReport := {}
  commits : List CommitRecord := []
  result : Option EnsembleResult := none
  -- nothing ever writes the explanation of an execution
  explanation : List ExplanationEntry := []
  spec : EnsembleSpec
deriving DecidableEq

def snapshotParticipant (epoch : CoordinatorEpoch) (p : ParticipantRecord) :
    ParticipantSnapshot where
  id := p.id
  generation := p.generation
  label := p.declaration.label
  roles := p.declaration.roles
  required := p.declaration.required
  domain := p.declaration.domain
  priority := p.declaration.priority
  status := p.status
  worker := p.worker
  workerBoot := p.workerBoot
  coordinatorEpoch := p.coordinatorEpoch
  profile := p.profile
  replacementCount := p.replacementCount
  candidatesCompleted := p.candidatesCompleted
  candidatesFailed := p.candidatesFailed
  candidatesAbstained := p.candidatesAbstained
  evaluationsSubmitted := p.evaluationsSubmitted
  retriesConsumed := p.retriesConsumed
  fallbackActivated := p.fallbackActivated
  authoritative := p.authoritative epoch

/-- The snapshot before the execution is looked at. -/
def snapshotEnsemble (epoch : CoordinatorEpoch) (e : EnsembleRecord) : EnsembleSnapshot where
  id := e.spec.id
  generation := e.spec.generation
  label := e.spec.label
  taskClass := e.spec.taskClass
  specFingerprint := e.spec.fingerprint
  coordinatorEpoch := epoch
  superseded := e.superseded
  spec := e.spec
  participants := e.participants.map (snapshotParticipant epoch)

/-- The quorum report as `inspect` shows it. -/
def inspectedQuorum (x : ExecutionRecord) : QuorumReport :=
  { x.quorum with evaluations := x.evaluations.length }

def inspect (f : Fabric) (id : EnsembleId) : Outcome EnsembleSnapshot :=
  match f.find id with
  | none => fail .unknownEnsemble s!"unknown ensemble {id.toString}"
  | some e =>
      let snapshot := snapshotEnsemble f.core.epoch e
      match e.execution with
      | none => .ok snapshot
      | some x =>
          let bound := f.config.limits.maxRecordsPerSnapshot.toNat
          .ok { snapshot with
            execution := x.id
            attemptGeneration := x.attemptGeneration
            executionStatus := x.status
            cancelled := x.status == .cancelled
            revalidationRequired := x.status == .revalidationRequired
            fallbackActivated := x.fallbackActivated
            fallbackDepth := x.fallbackDepth
            quorum := inspectedQuorum x
            consensus := x.consensus
            arbitration := x.arbitration
            commits := x.commits
            result := x.result
            candidates := (x.candidates.take bound).map (snapshotCandidate e x)
            evaluations := (x.evaluations.take bound).map (snapshotEvaluation e x) }

end EnsembleFabric

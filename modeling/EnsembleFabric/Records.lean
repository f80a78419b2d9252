import Std.Data.TreeMap
import EnsembleFabric.Result

/-!
# Runtime records

The mutable records of one runtime instance (`fabric_internal.hpp`). The
source holds an execution and a result next to a flag saying whether they
are there; here the flag and the value are one `Option`, so a result that
is not there cannot be read. The map of ensembles is ordered by identity,
as in the source; listings and files follow that order.

A reference into a vector is modelled by its position: `find…` functions
return the position of the first match, and a write is a `List.set`. The
functions with a question mark return the record instead, where the
source only reads.

Operations are state transformers on `Fabric`. What they share with all
ensembles is the `Core`: the epoch, the allocators and the counters. A
rejection is a `Refusal`, a typed error with the counter it is recorded
under, and `Fabric.reject` is the only thing a rejected call does to the
state. The simp lemmas beside the definitions say what a write leaves
alone.
-/

namespace EnsembleFabric

structure FabricConfig where
  limits : Limits := {}
  initialEpoch : CoordinatorEpoch := ⟨1⟩
  coordinatorBoot : WorkerBootId := {}
deriving DecidableEq

inductive ExecutionStatus where
  | none
  | opened
  | committed
  | cancelled
  | superseded
  | revalidationRequired
  | failed
  | noEligibleCandidate
deriving DecidableEq

/-! ## Records -/

/-- A logical participant and the worker incarnation that serves it. The
incarnation is `generation`; it moves on when another process takes over. -/
structure ParticipantRecord where
  id : ParticipantId
  generation : ParticipantGeneration
  declaration : ParticipantSpec
  status : ParticipantStatus := .revalidationRequired
  worker : WorkerId := {}
  workerBoot : WorkerBootId := {}
  coordinatorEpoch : CoordinatorEpoch := {}
  profile : CompatibilityProfile := {}
  registered : Bool := false
  failureDetail : String := ""
  replacementCount : Nat := 0
  candidatesCompleted : Nat := 0
  candidatesFailed : Nat := 0
  candidatesAbstained : Nat := 0
  evaluationsSubmitted : Nat := 0
  retriesConsumed : Nat := 0
  fallbackActivated : Bool := false
deriving DecidableEq

namespace ParticipantRecord

def authoritative (p : ParticipantRecord) (currentEpoch : CoordinatorEpoch) : Bool :=
  p.registered && p.status == .current && p.coordinatorEpoch == currentEpoch

def capable (p : ParticipantRecord) : Bool :=
  p.status == .current || p.status == .revalidationRequired

end ParticipantRecord

/-- One logical candidate slot with its retry attempts. The slot stays where it is
in the list of its execution; attempts are counted in place. -/
structure CandidateRecord where
  id : CandidateId
  generation : CandidateGeneration
  participant : ParticipantId
  participantGeneration : ParticipantGeneration
  role : ParticipantRole := .candidate
  stage : StageId
  state : CandidateState := .declared
  attempt : Nat := 1
  attemptsUsed : Nat := 0
  domain : String := ""
  payload : List UInt8 := []
  payloadDigest : UInt64 := 0
  receivedSequence : Sequence := {}
  worker : WorkerId := {}
  workerBoot : WorkerBootId := {}
  coordinatorEpoch : CoordinatorEpoch := {}
  dispatchSequence : Sequence := {}
  failure : EnsembleError := .ok
  failureDetail : String := ""
  evaluationCount : Nat := 0
  hardFailures : Nat := 0
  hardUnknowns : Nat := 0
  hardPredicates : Nat := 0
  budgetUnitsUsed : UInt32 := 0
  latency : UInt32 := 0
  fallback : Bool := false
  current : Bool := true
  eliminationReason : String := ""
deriving DecidableEq

def CandidateRecord.inFlight (c : CandidateRecord) : Bool := permitsOutput c.state

structure EvaluationRecord where
  id : EvaluationId
  generation : EvaluationGeneration
  evaluator : ParticipantId
  evaluatorGeneration : ParticipantGeneration
  role : ParticipantRole
  candidate : CandidateId
  candidateGeneration : CandidateGeneration
  criterion : CriterionRef
  kind : CriterionKind
  verification : VerificationState
  judgment : CategoricalJudgment
  scoreDefined : Bool
  score : Double
  weight : Double
  evidence : List UInt8
  rationale : String
  receivedSequence : Sequence
  coordinatorEpoch : CoordinatorEpoch
  worker : WorkerId
  workerBoot : WorkerBootId
  fingerprint : UInt64
  current : Bool := true
deriving DecidableEq

structure PendingEvaluation where
  id : EvaluationId
  generation : EvaluationGeneration
  evaluator : ParticipantId
  evaluatorGeneration : ParticipantGeneration
  role : ParticipantRole
  candidate : CandidateId
  candidateGeneration : CandidateGeneration
  criterion : CriterionRef
  kind : CriterionKind
  emitted : Bool := false
  answered : Bool := false
  abandoned : Bool := false
deriving DecidableEq

structure ExecutionRecord where
  id : EnsembleExecutionId
  attemptGeneration : EnsembleAttemptGeneration := ⟨1⟩
  status : ExecutionStatus := .opened
  coordinatorEpoch : CoordinatorEpoch
  candidates : List CandidateRecord := []
  evaluations : List EvaluationRecord := []
  pending : List PendingEvaluation := []
  extraStages : List StageSpec := []
  stageIndex : Nat := 0
  declaredCurrentStage : Bool := false
  planningComplete : Bool := false
  fallbackActivated : Bool := false
  fallbackDepth : UInt32 := 0
  cancelledSequence : Sequence := {}
  cancellationReason : String := ""
  cancellationRequested : Bool := false
  cancellationEmitted : Bool := false
  result : Option EnsembleResult := none
  commits : List CommitRecord := []
  commitAttempts : Nat := 0
  reportGeneration : UInt64 := 0
  quorum : QuorumReport := {}
  consensus : ConsensusReport := {}
  arbitration : ArbitrationReport := {}
  committedSequence : Sequence := {}
deriving DecidableEq

structure EnsembleRecord where
  spec : EnsembleSpec
  participants : List ParticipantRecord := []
  execution : Option ExecutionRecord := none
  superseded : Bool := false
  history : List EnsembleResult := []
deriving DecidableEq

namespace EnsembleRecord

/-- The position of a logical participant. -/
def findParticipant (e : EnsembleRecord) (id : ParticipantId) : Option Nat :=
  e.participants.findIdx? (·.id == id)

/-- The record of a logical participant. -/
def participant? (e : EnsembleRecord) (id : ParticipantId) : Option ParticipantRecord :=
  e.participants.find? (·.id == id)

/-- The record with its execution replaced. -/
def holding (e : EnsembleRecord) (x : ExecutionRecord) : EnsembleRecord :=
  { e with execution := some x }

@[simp] theorem holding_spec (e : EnsembleRecord) (x : ExecutionRecord) :
    (e.holding x).spec = e.spec := rfl

@[simp] theorem holding_participants (e : EnsembleRecord) (x : ExecutionRecord) :
    (e.holding x).participants = e.participants := rfl

@[simp] theorem holding_execution (e : EnsembleRecord) (x : ExecutionRecord) :
    (e.holding x).execution = some x := rfl

@[simp] theorem holding_superseded (e : EnsembleRecord) (x : ExecutionRecord) :
    (e.holding x).superseded = e.superseded := rfl

@[simp] theorem holding_history (e : EnsembleRecord) (x : ExecutionRecord) :
    (e.holding x).history = e.history := rfl

@[simp] theorem holding_holding (e : EnsembleRecord) (x y : ExecutionRecord) :
    (e.holding x).holding y = e.holding y := rfl

/-- Writing back the execution a record already holds changes nothing. -/
theorem holding_self {e : EnsembleRecord} {x : ExecutionRecord} (h : e.execution = some x) :
    e.holding x = e := by
  cases e
  simp_all [holding]

end EnsembleRecord

namespace ExecutionRecord

def findCandidate (x : ExecutionRecord) (id : CandidateId) : Option Nat :=
  x.candidates.findIdx? (·.id == id)

def candidate? (x : ExecutionRecord) (id : CandidateId) : Option CandidateRecord :=
  x.candidates.find? (·.id == id)

def findPending (x : ExecutionRecord) (id : EvaluationId) : Option Nat :=
  x.pending.findIdx? (·.id == id)

end ExecutionRecord

/-! ## The runtime -/

structure Counters where
  commitsAccepted : Nat := 0
  commitsRejectedConflicting : Nat := 0
  commitsRejectedStale : Nat := 0
  staleSubmissionsRejected : Nat := 0
  duplicateSubmissionsSuppressed : Nat := 0
  duplicateVotesSuppressed : Nat := 0
  fallbackActivations : Nat := 0
  cancellations : Nat := 0
  supersessions : Nat := 0
  revalidationsRequired : Nat := 0
deriving DecidableEq

/-- What a rejection adds to the counters. -/
inductive Tally where
  | uncounted
  | staleSubmission
  | duplicateSubmission
  | duplicateVote
  | staleCommit
  | conflictingCommit
deriving DecidableEq

def Counters.count (k : Counters) : Tally → Counters
  | .uncounted => k
  | .staleSubmission => { k with staleSubmissionsRejected := k.staleSubmissionsRejected + 1 }
  | .duplicateSubmission =>
      { k with duplicateSubmissionsSuppressed := k.duplicateSubmissionsSuppressed + 1 }
  | .duplicateVote => { k with duplicateVotesSuppressed := k.duplicateVotesSuppressed + 1 }
  | .staleCommit => { k with commitsRejectedStale := k.commitsRejectedStale + 1 }
  | .conflictingCommit =>
      { k with commitsRejectedConflicting := k.commitsRejectedConflicting + 1 }

/-- The state of the runtime that belongs to no ensemble: the epoch, the
allocators and the counters. Every operation may draw on it, and none takes
an identity back. -/
structure Core where
  epoch : CoordinatorEpoch := ⟨1⟩
  coordinatorBoot : WorkerBootId := ⟨1⟩
  ensembleIds : IdAllocator .ensemble := {}
  candidateIds : IdAllocator .candidate := {}
  evaluationIds : IdAllocator .evaluation := {}
  resultIds : IdAllocator .result := {}
  sequences : IdAllocator .sequence := {}
  counters : Counters := {}
deriving DecidableEq

/-- `next_sequence`: a fresh sequence number, or 1 once they run out. -/
def Core.nextSequence (k : Core) : Sequence × Core :=
  match k.sequences.allocate with
  | some (sequence, sequences) => (sequence, { k with sequences })
  | none => (⟨1⟩, k)

def Core.count (k : Core) (t : Tally) : Core := { k with counters := k.counters.count t }

abbrev EnsembleMap := Std.TreeMap UInt64 EnsembleRecord

structure Fabric where
  config : FabricConfig := {}
  core : Core := {}
  ensembles : EnsembleMap := {}

namespace Fabric

/-- The constructor of the runtime. -/
def create (config : FabricConfig) : Fabric where
  config
  core :=
    { epoch := if config.initialEpoch.valid then config.initialEpoch else ⟨1⟩
      coordinatorBoot := if config.coordinatorBoot.valid then config.coordinatorBoot else ⟨1⟩ }

def find (f : Fabric) (id : EnsembleId) : Option EnsembleRecord := f.ensembles[id.value]?

def store (f : Fabric) (id : EnsembleId) (e : EnsembleRecord) : Fabric :=
  { f with ensembles := f.ensembles.insert id.value e }

@[simp] theorem store_config (f : Fabric) (id : EnsembleId) (e : EnsembleRecord) :
    (f.store id e).config = f.config := rfl

@[simp] theorem store_core (f : Fabric) (id : EnsembleId) (e : EnsembleRecord) :
    (f.store id e).core = f.core := rfl

theorem find_store (f : Fabric) (id other : EnsembleId) (e : EnsembleRecord) :
    (f.store id e).find other = if id = other then some e else f.find other := by
  simp only [find, store, Std.TreeMap.getElem?_insert, Std.compare_eq_iff_eq]
  by_cases h : id = other
  · simp [h]
  · have hv : id.value ≠ other.value := fun heq => h (by cases id; cases other; simp_all)
    simp [h, hv]

@[simp] theorem find_store_self (f : Fabric) (id : EnsembleId) (e : EnsembleRecord) :
    (f.store id e).find id = some e := by
  simp [find_store]

end Fabric

/-! ## Rejections -/

/-- A typed rejection and the counter it is recorded under. Inside an operation
the rejection is carried to the end; only there the counter moves. -/
structure Refusal where
  error : Error
  tally : Tally := .uncounted
deriving DecidableEq

def refuse {α : Type} (code : EnsembleError) (message : String) (tally : Tally := .uncounted) :
    Except Refusal α :=
  .error ⟨⟨code, message⟩, tally⟩

/-- Refuses unless the condition holds. -/
def demand (condition : Bool) (code : EnsembleError) (message : String)
    (tally : Tally := .uncounted) : Except Refusal Unit :=
  if condition then .ok () else refuse code message tally

/-- The value, refusing when it is absent. -/
def located {α : Type} (value : Option α) (code : EnsembleError) (message : String)
    (tally : Tally := .uncounted) : Except Refusal α :=
  match value with
  | some a => .ok a
  | none => refuse code message tally

/-- A check whose failure no counter records. -/
def uncounted {α : Type} (outcome : Outcome α) : Except Refusal α :=
  outcome.mapError fun error => ⟨error, .uncounted⟩

@[simp] theorem demand_eq_ok {condition : Bool} {code : EnsembleError} {message : String}
    {tally : Tally} {u : Unit} :
    demand condition code message tally = .ok u ↔ condition = true := by
  unfold demand refuse
  split <;> simp_all

@[simp] theorem located_eq_ok {α : Type} {value : Option α} {code : EnsembleError}
    {message : String} {tally : Tally} {a : α} :
    located value code message tally = .ok a ↔ value = some a := by
  unfold located refuse
  cases value <;> simp

@[simp] theorem uncounted_eq_ok {α : Type} {outcome : Outcome α} {a : α} :
    uncounted outcome = .ok a ↔ outcome = .ok a := by
  cases outcome <;> simp [uncounted, Except.mapError]

/-- The state and answer of a rejected call. -/
def Fabric.reject {α : Type} (f : Fabric) (r : Refusal) : Fabric × Outcome α :=
  ({ f with core := f.core.count r.tally }, .error r.error)

end EnsembleFabric

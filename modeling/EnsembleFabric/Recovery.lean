import EnsembleFabric.Commit

/-!
# The tail of a recovery

A state file, once it is read and decoded, is a `StoredState`. The tail of
`recover_state` is two critical sections. The first, `adoptState`, puts the
stored ensembles in the place of those of the runtime, under the epoch after
the stored one; the second is `invalidateDynamicAuthority`.

The allocators of the runtime keep their marks and are raised past every
identity that was stored: the stored marks first, then, ensemble by ensemble,
the identities of what the ensembles hold. So a runtime that takes up a file
never hands out an identity of it again, and none of its own either.

Reports are not stored. The first section computes those of an ensemble with
an execution again, from the evidence that was stored, which is why it comes
before the invalidation.
-/

namespace EnsembleFabric

/-- What a state file holds. The marks are the next values of the
allocators; the ensembles are entered under their own identities. Nothing of
it refers to the file it was read from. -/
structure StoredState where
  epoch : CoordinatorEpoch
  coordinatorBoot : WorkerBootId
  ensembleMark : UInt64
  candidateMark : UInt64
  evaluationMark : UInt64
  resultMark : UInt64
  sequenceMark : UInt64
  counters : Counters
  ensembles : EnsembleMap
  named : ∀ (id : UInt64) (e : EnsembleRecord), ensembles[id]? = some e → e.spec.id.value = id

/-- Raises an allocator to a stored mark. -/
def IdAllocator.observeMark {domain : IdDomain} (a : IdAllocator domain) (mark : UInt64) :
    IdAllocator domain :=
  if mark = 0 then a else a.observe ⟨mark - 1⟩

namespace Core

def observeCandidate (k : Core) (c : CandidateRecord) : Core :=
  { k with
    candidateIds := k.candidateIds.observe c.id
    sequences := (k.sequences.observe c.receivedSequence).observe c.dispatchSequence }

def observeEvaluation (k : Core) (r : EvaluationRecord) : Core :=
  { k with
    evaluationIds := k.evaluationIds.observe r.id
    sequences := k.sequences.observe r.receivedSequence }

def observeResult (k : Core) (r : EnsembleResult) : Core :=
  { k with
    resultIds := k.resultIds.observe r.id
    sequences := k.sequences.observe r.commitSequence }

def observeExecution (k : Core) (x : ExecutionRecord) : Core :=
  x.result.toList.foldl observeResult
    (x.evaluations.foldl observeEvaluation (x.candidates.foldl observeCandidate k))

def observeEnsemble (k : Core) (e : EnsembleRecord) : Core :=
  e.execution.toList.foldl observeExecution
    { k with ensembleIds := k.ensembleIds.observe e.spec.id }

/-- The shared state under the epoch after the stored one. -/
def adopted (k : Core) (config : FabricConfig) (stored : StoredState) (boot : WorkerBootId) :
    Core where
  epoch := stored.epoch.next
  coordinatorBoot := if config.coordinatorBoot.valid then config.coordinatorBoot else boot
  ensembleIds := k.ensembleIds.observeMark stored.ensembleMark
  candidateIds := k.candidateIds.observeMark stored.candidateMark
  evaluationIds := k.evaluationIds.observeMark stored.evaluationMark
  resultIds := k.resultIds.observeMark stored.resultMark
  sequences := k.sequences.observeMark stored.sequenceMark
  counters := stored.counters

end Core

/-- The reports are not stored; they are computed again. -/
def reportedEnsemble (e : EnsembleRecord) : EnsembleRecord :=
  { e with execution := e.execution.map (computeReports e) }

/-- The first section of the tail; `boot` is the incarnation drawn when none
is configured. -/
def adoptState (f : Fabric) (stored : StoredState) (boot : WorkerBootId) :
    Fabric × Outcome CoordinatorEpoch :=
  if stored.epoch.value = lastWord then
    (f, fail .resourceLimitExceeded "coordinator epoch space is exhausted")
  else
    ({ f with
       core := stored.ensembles.values.foldl Core.observeEnsemble
         (f.core.adopted f.config stored boot)
       ensembles := stored.ensembles.map fun _ e => reportedEnsemble e },
      .ok stored.epoch.next)

/-- The reason under which a recovery invalidates live authority. -/
def recoveryReason : String := "coordinator recovery: live authority is not durable"

/-- The tail of `recover_state`, both sections. -/
def recoverTail (f : Fabric) (stored : StoredState) (boot : WorkerBootId) :
    Fabric × Outcome CoordinatorEpoch :=
  match adoptState f stored boot with
  | (f, .error error) => (f, .error error)
  | (f, .ok epoch) => (invalidateDynamicAuthority f recoveryReason, .ok epoch)

end EnsembleFabric

import EnsembleFabric.Outcome

/-!
# Limits

Every untrusted quantity of the runtime has an explicit bound: counts,
sizes of texts and payloads, depths, frame sizes. The bounds are data
of one record, kept at the widths of the source, with the defaults of
the source; `Limits.validate` (`limits.cpp`) rejects configurations that
make no sense, and names the first bound it rejects.

The module also has the one check that validation is made of. `require`
refuses with a code and a message unless its condition holds;
`require_eq_ok` turns a passed check into the condition, and all the
validation functions of the model are read through it. `checkedAdd` is
the bounded sum the encoders use for sizes: a sum that leaves the bound
is no number at all, rather than a wrapped one.
-/

namespace EnsembleFabric

structure Limits where
  maxParticipantsPerEnsemble : UInt32 := 64
  maxStagesPerEnsemble : UInt32 := 16
  maxParallelBranches : UInt32 := 64
  maxRoleQuotaEntries : UInt32 := 16
  maxQueuedExecutions : UInt32 := 1024
  maxInFlightExecutions : UInt32 := 64
  maxCandidatesPerExecution : UInt32 := 256
  maxEvaluationsPerCandidate : UInt32 := 32
  maxEvaluationsPerExecution : UInt32 := 4096
  maxRetries : UInt32 := 8
  maxFallbackDepth : UInt32 := 4
  maxCandidatePayloadBytes : UInt32 := 1048576
  maxEvaluationPayloadBytes : UInt32 := 65536
  maxMetadataBytes : UInt32 := 4096
  maxFrameBytes : UInt32 := 4194304
  maxConnections : UInt32 := 256
  maxPersistenceBytes : UInt32 := 33554432
  maxRecordsPerSnapshot : UInt32 := 4096
  maxRetainedResults : UInt32 := 64
  maxRetainedCommits : UInt32 := 256
  maxExplanationEntries : UInt32 := 256
  maxLabelBytes : UInt32 := 128
deriving DecidableEq

/-- Refuses with `code` and `message` unless the condition holds. -/
def require (condition : Bool) (code : EnsembleError) (message : String) : Status :=
  if condition then okStatus else fail code message

@[simp] theorem require_eq_ok {condition : Bool} {code : EnsembleError} {message : String}
    {u : Unit} : require condition code message = .ok u ↔ condition = true := by
  unfold require okStatus fail
  split <;> simp_all

def Limits.validate (l : Limits) : Status := do
  require (l.maxParticipantsPerEnsemble != 0 && l.maxStagesPerEnsemble != 0
      && l.maxParallelBranches != 0 && l.maxRoleQuotaEntries != 0) .invalidArgument
    "limits: participant, stage, branch, and role-quota bounds must be positive"
  require (l.maxInFlightExecutions != 0) .invalidArgument
    "limits: max_in_flight_executions must be positive"
  require (l.maxCandidatesPerExecution != 0 && l.maxEvaluationsPerCandidate != 0
      && l.maxEvaluationsPerExecution != 0) .invalidArgument
    "limits: candidate and evaluation bounds must be positive"
  require (l.maxCandidatePayloadBytes != 0 && l.maxEvaluationPayloadBytes != 0) .invalidArgument
    "limits: payload bounds must be positive"
  require (128 ≤ l.maxFrameBytes) .invalidArgument "limits: max_frame_bytes must hold a header"
  require (l.maxCandidatePayloadBytes ≤ l.maxFrameBytes) .invalidArgument
    "limits: candidate payloads must fit inside the maximum frame size"
  require (l.maxMetadataBytes != 0 && l.maxLabelBytes != 0) .invalidArgument
    "limits: metadata bounds must be positive"
  require (l.maxRecordsPerSnapshot != 0 && l.maxRetainedResults != 0) .invalidArgument
    "limits: persistence bounds must be positive"
  require (256 ≤ l.maxPersistenceBytes) .invalidArgument
    "limits: max_persistence_bytes is too small"
  require (l.maxEvaluationsPerCandidate ≤ 0xFFFFFFFF / 2) .invalidArgument
    "limits: evaluation bound is unreasonable"

/-- `checked_add`: the sum, when it stays inside the bound. The source tests for
wrapping before it adds; on natural numbers only the bound is left to test. -/
def checkedAdd (lhs rhs limit : Nat) : Option Nat :=
  if limit < lhs ∨ limit < rhs then none
  else if lhs + rhs ≤ limit then some (lhs + rhs) else none

end EnsembleFabric

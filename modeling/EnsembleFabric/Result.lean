import EnsembleFabric.Arbitration
import EnsembleFabric.Consensus

/-!
# Results

The authoritative result of an execution, its commit record, and the
fingerprint that decides whether two commits are the same commit
(`result.hpp`, `result.cpp`).

A result carries everything it was decided from: the reports of quorum,
consensus and arbitration, copies of candidates and evaluations, what
became of each participant, and lines of explanation. It is a value. The
record keeps it next to the execution, `commit_result` accepts one from
a caller, and the codecs write all of it; nothing in it refers back to
the state of the runtime.

`commitFingerprint` hashes what makes a commit authoritative, in the
order of the source: the execution and its epoch, the decision, the
selected candidate with its participant and payload digest, the use of
fallback, and the state of consensus. The copies, the explanation and
the other reports do not enter it.
-/

namespace EnsembleFabric

inductive EnsembleDecision where
  | pending
  | committed
  | cancelled
  | superseded
  | failed
  | revalidationRequired
  | noEligibleCandidate
  | fallbackRequired
deriving DecidableEq

def EnsembleDecision.word : EnsembleDecision → UInt64
  | .pending => 0
  | .committed => 1
  | .cancelled => 2
  | .superseded => 3
  | .failed => 4
  | .revalidationRequired => 5
  | .noEligibleCandidate => 6
  | .fallbackRequired => 7

/-- One deterministic explanation line. -/
structure ExplanationEntry where
  subject : String
  detail : String
deriving DecidableEq

/-- Per-participant contribution record carried by the result. -/
structure ParticipantOutcome where
  id : ParticipantId
  generation : ParticipantGeneration
  roles : RoleSet
  required : Bool
  finalStatus : ParticipantStatus
  candidates : Nat
  candidatesValid : Nat
  candidatesFailed : Nat
  candidatesAbstained : Nat
  evaluations : Nat
  retries : Nat
  fallback : Bool
  authoritative : Bool
deriving DecidableEq

structure CommitRecord where
  result : ResultId
  generation : ResultGeneration
  sequence : Sequence
  coordinatorEpoch : CoordinatorEpoch
  execution : EnsembleExecutionId
  attemptGeneration : EnsembleAttemptGeneration
  decision : EnsembleDecision
  commitFingerprint : UInt64
deriving DecidableEq

structure EnsembleResult where
  id : ResultId := {}
  generation : ResultGeneration := {}
  ensemble : EnsembleId := {}
  ensembleGeneration : EnsembleGeneration := {}
  execution : EnsembleExecutionId := {}
  attemptGeneration : EnsembleAttemptGeneration := {}
  coordinatorEpoch : CoordinatorEpoch := {}
  decision : EnsembleDecision := .pending
  hasSelected : Bool := false
  selectedCandidate : CandidateId := {}
  selectedCandidateGeneration : CandidateGeneration := {}
  selectedParticipant : ParticipantId := {}
  selectedParticipantGeneration : ParticipantGeneration := {}
  selectedRole : ParticipantRole := .candidate
  payload : List UInt8 := []
  payloadDigest : UInt64 := 0
  payloadBytes : Nat := 0
  quorum : QuorumReport := {}
  consensus : ConsensusReport := {}
  arbitration : ArbitrationReport := {}
  participants : List ParticipantOutcome := []
  candidates : List CandidateSnapshot := []
  evaluations : List EvaluationSnapshot := []
  explanation : List ExplanationEntry := []
  fallbackUsed : Bool := false
  fallbackDepth : UInt32 := 0
  commitSequence : Sequence := {}
  commitFingerprint : UInt64 := 0
deriving DecidableEq

/-- Fingerprint of everything that makes a commit authoritative. A second commit
with the fingerprint of the stored result is a repetition of the first. -/
def commitFingerprint (r : EnsembleResult) : UInt64 :=
  fnv1a64
    [.word r.ensemble.value,
     .word r.ensembleGeneration.value,
     .word r.execution.value,
     .word r.attemptGeneration.value,
     .word r.coordinatorEpoch.value,
     .word r.decision.word,
     .word (flagWord r.hasSelected),
     .word r.selectedCandidate.value,
     .word r.selectedCandidateGeneration.value,
     .word r.selectedParticipant.value,
     .word r.payloadDigest,
     .word (flagWord r.fallbackUsed),
     .word r.fallbackDepth.toUInt64,
     .word r.consensus.state.word]

end EnsembleFabric

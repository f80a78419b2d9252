import EnsembleFabric.Spec
import EnsembleFabric.Scores
import EnsembleFabric.Sha256

/-!
# Evaluations

An evaluation names its evaluator and evaluator generation, the candidate
generation it judges and the criterion it applies. Per candidate the
current evaluations are summarized for arbitration; hard predicates and
ranking signals are never merged into one number (`evaluation.hpp`,
`evaluation.cpp`).

The summary holds counts of verdicts and judgments and two sums, that of
the weighted scores and that of the weights. The sums are in an
`Arithmetic`: the doubles of the source, or the rationals with which an
exact claim about scores is stated. `meanScore` divides one by the other,
and is zero where the weights do not add up to something positive.

The fingerprint of a submission covers its scored content, and is what a
repeated submission is recognized by.
-/

namespace EnsembleFabric

structure EvaluationSubmission where
  authority : EvaluationAuthority
  criterion : CriterionRef := {}
  kind : CriterionKind := .rankingSignal
  verification : VerificationState := .unknown
  judgment : CategoricalJudgment := .unknown
  scoreDefined : Bool := false
  score : Double := {}
  weight : Double := .one
  evidence : List UInt8 := []
  rationale : String := ""
deriving DecidableEq

/-- Point-in-time view of one evaluation. -/
structure EvaluationSnapshot where
  id : EvaluationId
  generation : EvaluationGeneration
  ensemble : EnsembleId
  ensembleGeneration : EnsembleGeneration
  execution : EnsembleExecutionId
  attemptGeneration : EnsembleAttemptGeneration
  evaluator : ParticipantId
  evaluatorGeneration : ParticipantGeneration
  evaluatorRole : ParticipantRole
  candidate : CandidateId
  candidateGeneration : CandidateGeneration
  criterion : CriterionRef
  kind : CriterionKind
  verification : VerificationState
  judgment : CategoricalJudgment
  scoreDefined : Bool
  score : Double
  weight : Double
  evidence : List UInt8
  rationale : String
  receivedSequence : Sequence
  coordinatorEpoch : CoordinatorEpoch
  worker : WorkerId
  workerBoot : WorkerBootId
  current : Bool
  superseded : Bool
deriving DecidableEq

/-- Per-candidate evaluation summary used by arbitration. Counts are of the
evaluations in force; sums are in the arithmetic `ν`, doubles in the runtime. -/
structure CandidateEvaluationSummary (ν : Type := Double) where
  candidate : CandidateId
  generation : CandidateGeneration
  evaluations : Nat := 0
  accepts : Nat := 0
  rejects : Nat := 0
  abstentions : Nat := 0
  unknowns : Nat := 0
  distinctEvaluators : Nat := 0
  hardPredicates : Nat := 0
  hardFailures : Nat := 0
  hardUnknowns : Nat := 0
  verifierPass : Nat := 0
  verifierFail : Nat := 0
  verifierAbstain : Nat := 0
  verifierUnknown : Nat := 0
  weightedScoreSum : ν
  weightSum : ν
  minScore : ν
  maxScore : ν
deriving DecidableEq

def CandidateEvaluationSummary.meanScore {ν : Type} [Arithmetic ν]
    (s : CandidateEvaluationSummary ν) : ν :=
  if Arithmetic.less (Arithmetic.read .zero) s.weightSum then
    Arithmetic.div s.weightedScoreSum s.weightSum
  else Arithmetic.read .zero

/-- Fingerprint of an evaluation's scored content, for duplicate detection. -/
def fingerprintEvaluation (s : EvaluationSubmission) : UInt64 :=
  fnv1a64
    [.word s.authority.evaluator.participant.value,
     .word s.authority.evaluator.participantGeneration.value,
     .word s.authority.candidate.value,
     .word s.authority.candidateGeneration.value,
     .word s.criterion.id.toUInt64,
     .word s.criterion.version.toUInt64,
     .word s.kind.word,
     .word s.verification.word,
     .word s.judgment.word,
     .word (flagWord s.scoreDefined),
     .word s.score.bits,
     .word s.weight.bits,
     .word (sha256Digest64 s.evidence),
     .text s.rationale]

end EnsembleFabric

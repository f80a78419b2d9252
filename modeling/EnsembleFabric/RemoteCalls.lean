import EnsembleFabric.Client

/-!
# Remote calls

A controller defines ensembles, opens and cancels executions and looks at
results over the wire. Each of its calls is an operation of the runtime of
the coordinator, with a request and an acknowledgement around it.

> A remote call returns what the operation returns on the runtime the
> coordinator has when it handles the request (`remote_calls_faithful`).

Between the requests, and between a request and its acknowledgement, other
processes do what they do; whatever the runtime hands out meanwhile goes to
them.

The messages have to get through. A specification and a stored result are as
long as their caller made them, so each call that carries one needs room for
it on the line (`Session.Fits`); all other messages are bounded by the limits
of the two processes, and 8192 bytes are enough for them (`Session.Ready`). A
reply that has no room is dropped by the coordinator, and the caller waits
until the connection ends.
-/

namespace EnsembleFabric

open EventSystem
open Write (flat)

/-! ## Carrying messages -/

namespace Line

variable {l : Line} {frame reply : Frame}

/-- Messages of this size go over the line in both directions. -/
structure Carries (l : Line) (size : Nat) : Prop where
  written : size ≤ l.limits.maxPersistenceBytes.toNat
  answered : size ≤ l.coordinator.limits.maxPersistenceBytes.toNat
  framed : Frame.headerBytes + size ≤ l.limits.maxFrameBytes.toNat
  received : Frame.headerBytes + size ≤ l.coordinator.limits.maxFrameBytes.toNat

theorem Carries.mono {large small : Nat} (h : l.Carries large) (hle : small ≤ large) :
    l.Carries small where
  written := hle.trans h.written
  answered := hle.trans h.answered
  framed := (Nat.add_le_add_left hle _).trans h.framed
  received := (Nat.add_le_add_left hle _).trans h.received

/-- A reply that is sent as soon as the request is handled comes back. -/
theorem Idle.exchange_reply (h : l.Idle) (hended : l.ended = false)
    (htype : frame.type ≠ .registerParticipant) (hframe : l.Carries frame.payload.length)
    {later : List Frame}
    (hheard : (l.coordinator.next (.frame l.connection frame.received)).heard l.connection
      = l.coordinator.heard l.connection ++ reply :: later)
    (hreply : l.Carries reply.payload.length) :
    l.exchange frame = (.ok reply.received, l.answered frame.received)
      ∧ (l.answered frame.received).Idle := by
  have htype' : frame.received.type ≠ .registerParticipant := htype
  have hevents := h.next_events htype'
  obtain ⟨hfirst, hothers⟩ := List.forall_mem_cons.mp hevents
  have hnext := Coordinator.next_bystander h.bystander hfirst.1
  obtain ⟨last, hlast, -⟩ := (Coordinator.run_bystander hnext.bystander
    fun event hevent => (hothers event hevent).1).replies
  have hafter : (l.after (.frame l.connection frame.received)).coordinator.heard l.connection
      = l.coordinator.heard l.connection ++ reply :: (later ++ last) := by
    rw [hheard, List.append_assoc, List.cons_append] at hlast
    exact hlast
  have hdelivered := delivers hafter
  have hfits : reply.Fits l.coordinator.limits := hreply.received
  rw [List.filterMap_cons_some (by rw [encodeFrame_eq hfits]; rfl)] at hdelivered
  have hbytes : (l.after (.frame l.connection frame.received)).delivered[l.received]?
      = some reply.image := by
    rw [hdelivered, List.getElem?_append_right h.delivered.le, h.delivered, Nat.sub_self]
    rfl
  have himage := decodeFrame_image (show reply.Fits l.limits from hreply.framed) []
  rw [List.append_nil] at himage
  have hread := decodeFrame_image (show frame.Fits l.coordinator.limits from hframe.received) []
  rw [List.append_nil] at hread
  refine ⟨?_, (h.next_delivered htype' hbytes).2⟩
  rw [exchange, hended, encodeFrame_eq (show frame.Fits l.limits from hframe.framed)]
  simp only [Bool.false_eq_true, if_false, hread]
  exact receive_eq_ok.mpr ⟨reply.image, _, hbytes, himage, rfl⟩

end Line

/-! ## What the coordinator answers -/

namespace Coordinator

variable {s s' : Coordinator} {id : UInt64} {c : Connection} {frame : Frame}

/-- The first thing the connection hears from `s` to `s'` is this message,
if the channel takes it. -/
def Answers (s s' : Coordinator) (id : UInt64) (type : MessageType) (writes : List Write) : Prop :=
  ∃ reply : Frame, reply.type = type ∧ reply.payload = s.encoded writes
    ∧ (reply.Fits s.limits → ∃ later, s'.heard id = s.heard id ++ reply :: later)

theorem heard_sendFrame (hfits : frame.Fits s.limits) :
    (s.sendFrame id frame).heard id = s.heard id ++ [frame] := by
  have hencodes : (encodeFrame frame s.limits).isOk = true := by
    rw [encodeFrame_eq hfits]
    rfl
  rw [sendFrame, sending_sent hencodes, heard_append, Trail.to?, if_pos rfl, Option.toList_some]

/-- Something is sent, and the rest follows. -/
theorem Answers.of_sent {start sent : Coordinator} {reply : Frame} {requests : List Request}
    {type : MessageType} {writes : List Write}
    (hrest : Replies (fun _ => False) sent s' requests)
    (hsent : sent = start.sendFrame id reply) (hlimits : start.limits = s.limits)
    (hstart : start.heard id = s.heard id) (hnobody : start.Bystander id)
    (htype : reply.type = type) (hpayload : reply.payload = s.encoded writes) :
    s.Answers s' id type writes := by
  subst hsent
  have hbystander : (start.sendFrame id reply).Bystander id := hnobody
  obtain ⟨later, hlater, -⟩ := (hrest.bystander (fun h => h) hbystander).replies
  refine ⟨reply, htype, hpayload, fun hfits => ⟨later, ?_⟩⟩
  rw [hlater, heard_sendFrame (by rw [hlimits]; exact hfits), hstart, List.append_assoc]
  rfl

/-- Nothing is sent to a connection that registers nobody and waits for
nothing. -/
theorem Replies.silent (h : Replies (fun _ => False) s s' []) (hs : s.Bystander id)
    (hparked : s.parked.filter (·.1 == id) = []) :
    s'.heard id = s.heard id ∧ s'.Bystander id := by
  have hanswers := (h.bystander (fun h => h) hs).answers h.grows h.balance
  obtain ⟨more, lost, hmore, -, -, hperm⟩ := hanswers.answers
  rw [hparked] at hperm
  have hnone := List.append_eq_nil_iff.mp (List.append_eq_nil_iff.mp hperm.eq_nil).1
  rw [hmore, List.map_eq_nil_iff.mp hnone.1, List.append_nil]
  exact ⟨rfl, hanswers.bystander⟩

theorem Answers.of_connected {id : UInt64} {type : MessageType} {writes : List Write}
    (h : s.Connected id)
    (hanswers : ∀ c ∈ s.connections, c.id = id →
      s.Answers (s.handleFrame c frame) id type writes) :
    s.Answers (s.next (.frame id frame)) id type writes := by
  obtain ⟨c, hc⟩ := Option.isSome_iff_exists.mp (connected_iff.mp h)
  obtain ⟨hmem, hid⟩ := mem_connections hc
  rw [next, hc]
  exact hanswers c hmem hid

/-! ### Acknowledgements -/

/-- The acknowledgement of a definition. -/
def definitionAck (s : Coordinator) (id : EnsembleId) :
    Outcome EnsembleGeneration → DefineEnsembleAck
  | .ok generation =>
      { ensemble := id, generation, accepted := true, detail := textBytes "ensemble defined" }
  | .error error =>
      { ensemble := id, generation := {}, accepted := false, code := error.code.wire
        detail := s.sanitized error.message }

/-- The acknowledgement of an opening. -/
def executionAck (s : Coordinator) (id : EnsembleId) (generation : EnsembleGeneration) :
    Outcome EnsembleExecutionId → OpenExecutionAck
  | .ok execution =>
      { ensemble := id, ensembleGeneration := generation, execution, accepted := true
        detail := textBytes "execution opened" }
  | .error error =>
      { ensemble := id, ensembleGeneration := generation, execution := {}, accepted := false
        code := error.code.wire, detail := s.sanitized error.message }

/-- The status of a cancellation. -/
def cancellationStatus (s : Coordinator) : Status → StatusResponseMessage
  | .ok _ => { detail := textBytes "cancellation recorded" }
  | .error error => { code := error.code.wire, detail := s.sanitized error.message }

/-- The response to a query. -/
def resultResponse (s : Coordinator) (id : EnsembleId) (generation : EnsembleGeneration) :
    Outcome EnsembleResult → ResultResponseMessage
  | .ok result =>
      { ensemble := id, ensembleGeneration := generation, hasResult := true
        decision := result.decision, encodedResult := encodeResultPayload result s.limits }
  | .error error =>
      { ensemble := id, ensembleGeneration := generation, encodedResult := []
        code := error.code.wire }

theorem handleHello_answers (hs : s.Bystander c.id) (hc : c ∈ s.connections) (m : HelloMessage) :
    s.Answers (s.handleHello c frame m) c.id .helloAck
      (encodeCoordinatorAck
        { coordinatorEpoch := s.fabric.core.epoch
          coordinatorBoot := s.fabric.core.coordinatorBoot
          accepted := true
          detail := textBytes "handshake accepted" }) := by
  have hset : Replies (fun _ => False) s (s.setConnection
      { c with worker := m.worker, workerBoot := m.workerBoot, handshaken := true }) [] :=
    setConnection_replies (.inl (hs c hc rfl))
  exact .of_sent (.refl _) rfl rfl rfl (hset.bystander (fun h => h) hs).bystander rfl rfl

section Answering

variable (hs : s.Bystander c.id)

include hs

theorem handleDefineEnsemble_answers {m : DefineEnsembleMessage} {spec : EnsembleSpec}
    (hspec : decodeSpec m.encodedSpec s.limits = .ok spec) :
    s.Answers (s.handleDefineEnsemble c frame m) c.id .defineEnsembleAck
      (encodeDefineEnsembleAck (s.definitionAck spec.id (defineEnsemble s.fabric spec).2)) := by
  rw [handleDefineEnsemble, hspec]
  simp only
  cases (defineEnsemble s.fabric spec).2 with
  | ok generation => exact .of_sent (.refl _) rfl rfl rfl hs rfl rfl
  | error error => exact .of_sent (.refl _) rfl rfl rfl hs rfl rfl

theorem handleOpenExecution_answers (m : OpenExecutionMessage) :
    s.Answers (s.handleOpenExecution c frame m) c.id .openExecutionAck
      (encodeOpenExecutionAck (s.executionAck m.ensemble m.ensembleGeneration
        (openExecution s.fabric m.ensemble m.ensembleGeneration).2)) := by
  rw [handleOpenExecution]
  simp only
  cases (openExecution s.fabric m.ensemble m.ensembleGeneration).2 with
  | ok execution => exact .of_sent (pump_replies _) rfl rfl rfl hs rfl rfl
  | error error => exact .of_sent (.refl _) rfl rfl rfl hs rfl rfl

theorem handleCancelEnsemble_answers (m : CancelEnsembleMessage)
    (hparked : s.parked.filter (·.1 == c.id) = []) :
    s.Answers (s.handleCancelEnsemble c frame m) c.id .statusResponse
      (encodeStatusResponse (s.cancellationStatus (cancelEnsemble s.fabric m.ensemble
        m.ensembleGeneration (bytesText m.reason)).2)) := by
  rw [handleCancelEnsemble]
  simp only
  cases (cancelEnsemble s.fabric m.ensemble m.ensembleGeneration (bytesText m.reason)).2 with
  | ok value =>
    have hpumped := Replies.first (R := fun _ => False)
      (.runtime s (cancelEnsemble s.fabric m.ensemble m.ensembleGeneration
        (bytesText m.reason)).1) (pump_replies m.ensemble)
    obtain ⟨hheard, hnobody⟩ := hpumped.silent hs hparked
    have hlimits := congrArg CoordinatorConfig.limits hpumped.config
    refine .of_sent (.dirty _) rfl hlimits hheard hnobody rfl ?_
    show Encoder.buffer _ _ = Encoder.buffer _ _
    rw [limits, hpumped.config]
    rfl
  | error error => exact .of_sent (.dirty _) rfl rfl rfl hs rfl rfl

theorem handleQueryResult_answers (m : QueryResultMessage) :
    s.Answers (s.handleQueryResult c frame m) c.id .resultResponse
      (encodeResultResponse (s.resultResponse m.ensemble m.ensembleGeneration
        (currentResult s.fabric m.ensemble))) := by
  rw [handleQueryResult]
  cases currentResult s.fabric m.ensemble with
  | ok result => exact .of_sent (.refl _) rfl rfl rfl hs rfl rfl
  | error error => exact .of_sent (.refl _) rfl rfl rfl hs rfl rfl

end Answering

end Coordinator

/-- A message that answers a frame is read back from what comes over the line. -/
theorem Line.Idle.exchange_answer {l : Line} (h : l.Idle) (hended : l.ended = false)
    {frame : Frame} (htype : frame.type ≠ .registerParticipant)
    (hframe : l.Carries frame.payload.length) {α : Type} {answer : MessageType}
    {decode : Decoder α} {legal : α → Prop} {put : α → List Write} {m : α}
    (hanswers : l.coordinator.Answers
      (l.coordinator.next (.frame l.connection frame.received)) l.connection answer (put m))
    (hexact : Exact decode legal put) (hlegal : legal m)
    (hput : l.Carries (flat (put m)).length) :
    ∃ reply, l.exchange frame = (.ok reply, l.answered frame.received)
      ∧ (l.answered frame.received).Idle ∧ reply.type = answer
      ∧ reply.correlation = frame.correlation
      ∧ ∀ context, Coordinator.decodeWhole decode context reply = .ok m := by
  obtain ⟨reply, hreply, hencoded, htaken⟩ := hanswers
  have hwhole : reply.payload = flat (put m) :=
    hencoded.trans (Encoder.buffer_eq hput.answered)
  have hfits : reply.Fits l.coordinator.limits := by
    rw [Frame.Fits, hwhole]
    exact hput.received
  obtain ⟨later, hheard⟩ := htaken hfits
  obtain ⟨hexchange, hidle⟩ := h.exchange_reply hended htype hframe hheard
    (by rw [hwhole]; exact hput)
  have hmatches := (Line.Quiet.exchange (.inr h) htype).reply reply.received (by rw [hexchange])
  exact ⟨reply.received, hexchange, hidle, hreply, hmatches.1,
    fun context => (EnsembleWorker.decodeWhole_exact context hexact).mpr ⟨hlegal, hwhole⟩⟩

/-! ## Sizes -/

/-- A sanitized text is no longer than it is cut. -/
theorem sanitized_length (text : String) (maxBytes : UInt32) :
    (textBytes (sanitizeText text maxBytes)).length ≤ maxBytes.toNat := by
  rw [textBytes_length, sanitizeText, String.length_ofList, List.length_map, List.length_take]
  exact Nat.min_le_left _ _

theorem sanitizeText_isByteText (text : String) (maxBytes : UInt32) :
    IsByteText (sanitizeText text maxBytes) := by
  intro c hc
  rw [sanitizeText, String.toList_ofList] at hc
  obtain ⟨original, -, rfl⟩ := List.mem_map.mp hc
  rw [sanitizeChar]
  split
  · decide
  · split
    · omega
    · decide

theorem encodeHello_length (m : HelloMessage) :
    (flat (encodeHello m)).length = 50 + m.label.length := by
  simp [encodeHello, encodeProfile, Encoder.string, Encoder.u64, Encoder.u32, Encoder.u16,
    Write.bytes]
  omega

theorem encodeCoordinatorAck_length (m : CoordinatorAck) :
    (flat (encodeCoordinatorAck m)).length = 25 + m.detail.length := by
  simp [encodeCoordinatorAck, Encoder.string, Encoder.u64, Encoder.u32, Encoder.boolean,
    Encoder.u8, Write.bytes]
  omega

theorem encodeDefineEnsemble_length (m : DefineEnsembleMessage) :
    (flat (encodeDefineEnsemble m)).length = m.encodedSpec.length + 4 := by
  simp [encodeDefineEnsemble, Encoder.bytes, Encoder.u32, Write.bytes]
  omega

theorem encodeDefineEnsembleAck_length (m : DefineEnsembleAck) :
    (flat (encodeDefineEnsembleAck m)).length = 23 + m.detail.length := by
  simp [encodeDefineEnsembleAck, Encoder.string, Encoder.u64, Encoder.u32, Encoder.u16,
    Encoder.boolean, Encoder.u8, Write.bytes]
  omega

theorem encodeOpenExecution_length (m : OpenExecutionMessage) :
    (flat (encodeOpenExecution m)).length = 16 := by
  simp [encodeOpenExecution, Encoder.u64, Write.bytes]

theorem encodeOpenExecutionAck_length (m : OpenExecutionAck) :
    (flat (encodeOpenExecutionAck m)).length = 31 + m.detail.length := by
  simp [encodeOpenExecutionAck, Encoder.string, Encoder.u64, Encoder.u32, Encoder.u16,
    Encoder.boolean, Encoder.u8, Write.bytes]
  omega

theorem encodeCancelEnsemble_length (m : CancelEnsembleMessage) :
    (flat (encodeCancelEnsemble m)).length = 20 + m.reason.length := by
  simp [encodeCancelEnsemble, Encoder.string, Encoder.u64, Encoder.u32, Write.bytes]
  omega

theorem encodeStatusResponse_length (m : StatusResponseMessage) :
    (flat (encodeStatusResponse m)).length = 6 + m.detail.length := by
  simp [encodeStatusResponse, Encoder.string, Encoder.u32, Encoder.u16, Write.bytes]
  omega

theorem encodeQueryResult_length (m : QueryResultMessage) :
    (flat (encodeQueryResult m)).length = 16 := by
  simp [encodeQueryResult, Encoder.u64, Write.bytes]

theorem encodeResultResponse_length (m : ResultResponseMessage) :
    (flat (encodeResultResponse m)).length = m.encodedResult.length + 24 := by
  simp [encodeResultResponse, Encoder.bytes, Encoder.u64, Encoder.u32, Encoder.u16,
    Encoder.boolean, Encoder.u8, Write.bytes]
  omega

namespace Coordinator

variable {s : Coordinator} {c : Connection} {frame : Frame}

theorem onMessage_decoded {α : Type} {decode : Decoder α} {legal : α → Prop}
    {put : α → List Write} {m : α} (hexact : Exact decode legal put) (hlegal : legal m)
    (hpayload : frame.payload = flat (put m)) {handle : α → Coordinator} :
    s.onMessage c frame (decodeFront decode frame) handle = handle m := by
  have hread : decode.run frame.payload = .ok (m, []) := by
    rw [hpayload]
    exact hexact.reads hlegal
  rw [decodeFront, hread]
  rfl

theorem sanitized_bound (h : s.limits.maxMetadataBytes.toNat ≤ 4096) (text : String) :
    (s.sanitized text).length ≤ 4096 := (sanitized_length _ _).trans h

theorem definitionAck_legal (h : s.limits.maxMetadataBytes.toNat ≤ 4096) (id : EnsembleId)
    (outcome : Outcome EnsembleGeneration) : (s.definitionAck id outcome).legal := by
  cases outcome with
  | ok generation =>
    exact ⟨EnsembleError.wire_legal _, (by decide : (textBytes "ensemble defined").length ≤ 4096)⟩
  | error error => exact ⟨EnsembleError.wire_legal _, sanitized_bound h _⟩

theorem executionAck_legal (h : s.limits.maxMetadataBytes.toNat ≤ 4096) (id : EnsembleId)
    (generation : EnsembleGeneration) (outcome : Outcome EnsembleExecutionId) :
    (s.executionAck id generation outcome).legal := by
  cases outcome with
  | ok execution =>
    exact ⟨EnsembleError.wire_legal _, (by decide : (textBytes "execution opened").length ≤ 4096)⟩
  | error error => exact ⟨EnsembleError.wire_legal _, sanitized_bound h _⟩

theorem cancellationStatus_legal (h : s.limits.maxMetadataBytes.toNat ≤ 4096)
    (outcome : Status) : (s.cancellationStatus outcome).legal := by
  cases outcome with
  | ok value =>
    exact ⟨EnsembleError.wire_legal _,
      (by decide : (textBytes "cancellation recorded").length ≤ 4096)⟩
  | error error => exact ⟨EnsembleError.wire_legal _, sanitized_bound h _⟩

/-- A refused cancellation says so. -/
theorem cancelEnsemble_refused {f : Fabric} {id : EnsembleId} {generation : EnsembleGeneration}
    {reason : String} {error : Error}
    (h : (cancelEnsemble f id generation reason).2 = .error error) :
    error.code.wire ≠ EnsembleError.ok.wire := by
  have hcode : error.code = .unknownEnsemble ∨ error.code = .staleEnsembleGeneration
      ∨ error.code = .unknownExecution ∨ error.code = .resultAlreadyCommitted := by
    rw [cancelEnsemble] at h
    repeat' split at h
    all_goals
      first
      | cases h; simp
      | cases h
  rcases hcode with hcode | hcode | hcode | hcode <;> rw [hcode] <;> decide

end Coordinator

open Coordinator

/-! ## Control requests -/

/-- What a controller asks of the runtime. -/
inductive ControlRequest where
  | defineEnsemble (spec : EnsembleSpec)
  | openExecution (ensemble : EnsembleId) (generation : EnsembleGeneration)
  | cancelEnsemble (ensemble : EnsembleId) (generation : EnsembleGeneration) (reason : String)
  | queryResult (ensemble : EnsembleId) (generation : EnsembleGeneration)

/-- What a call returns. -/
inductive ControlAnswer where
  | defined (ack : ClientOutcome DefineEnsembleAck)
  | opened (ack : ClientOutcome OpenExecutionAck)
  | cancelled (status : ClientOutcome Unit)
  | queried (response : ClientOutcome ResultResponseMessage)
deriving DecidableEq

namespace ControlRequest

/-- The answer of the runtime of a coordinator. A reason is cut where the
caller cuts it, and an error is reported where the coordinator cuts it. -/
def answer (caller : Limits) (s : Coordinator) : ControlRequest → ControlAnswer
  | .defineEnsemble spec =>
      .defined (.ok (s.definitionAck spec.id (EnsembleFabric.defineEnsemble s.fabric spec).2))
  | .openExecution id generation =>
      .opened (.ok (s.executionAck id generation
        (EnsembleFabric.openExecution s.fabric id generation).2))
  | .cancelEnsemble id generation reason =>
      .cancelled
        (match (EnsembleFabric.cancelEnsemble s.fabric id generation
          (sanitizeText reason caller.maxMetadataBytes)).2 with
        | .ok _ => .ok ()
        | .error error => .error ⟨error.code.wire, s.sanitized error.message⟩)
  | .queryResult id generation =>
      .queried (.ok (s.resultResponse id generation (currentResult s.fabric id)))

end ControlRequest

namespace Session

variable {s : Session}

/-- A call over the line. -/
def call (s : Session) : ControlRequest → ControlAnswer × Session
  | .defineEnsemble spec =>
      let (ack, client, line) := s.client.defineEnsemble Line.exchange s.line spec
      (.defined ack, { client, line })
  | .openExecution id generation =>
      let (ack, client, line) := s.client.openExecution Line.exchange s.line id generation
      (.opened ack, { client, line })
  | .cancelEnsemble id generation reason =>
      let (status, client, line) :=
        s.client.cancelEnsemble Line.exchange s.line id generation reason
      (.cancelled status, { client, line })
  | .queryResult id generation =>
      let (response, client, line) := s.client.queryResult Line.exchange s.line id generation
      (.queried response, { client, line })

/-- The messages of a request are within the bounds of the wire. -/
def Fits (s : Session) : ControlRequest → Prop
  | .defineEnsemble spec =>
      decodeSpec (encodeSpec spec s.line.limits) s.line.coordinator.limits = .ok spec
        ∧ (encodeSpec spec s.line.limits).length ≤ (megabytes 4).toNat
        ∧ s.line.Carries ((encodeSpec spec s.line.limits).length + 4)
  | .queryResult id _ =>
      ∀ result, currentResult s.line.coordinator.fabric id = .ok result →
        (encodeResultPayload result s.line.coordinator.limits).length ≤ (megabytes 32).toNat
          ∧ s.line.Carries ((encodeResultPayload result s.line.coordinator.limits).length + 24)
  | _ => True

/-- The client is connected to a coordinator and waits for nothing; every
message but a specification and a result goes over the line. -/
structure Ready (s : Session) : Prop where
  connected : s.client.connected = true
  agreed : s.client.limits = s.line.limits
  lasting : s.line.ended = false
  idle : s.line.Idle
  room : s.line.Carries 8192
  reasons : s.line.limits.maxMetadataBytes.toNat ≤ 4096
  reports : s.line.coordinator.limits.maxMetadataBytes.toNat ≤ 4096

theorem resultResponse_carried (hroom : s.line.Carries 8192) {id : EnsembleId}
    {generation : EnsembleGeneration} (hfits : s.Fits (.queryResult id generation))
    (named : EnsembleGeneration) :
    (s.line.coordinator.resultResponse id named
        (currentResult s.line.coordinator.fabric id)).legal
      ∧ s.line.Carries (flat (encodeResultResponse (s.line.coordinator.resultResponse id named
          (currentResult s.line.coordinator.fabric id)))).length := by
  cases hresult : currentResult s.line.coordinator.fabric id with
  | ok result =>
    have hcarried := hfits result hresult
    simp only [encodeResultResponse_length, ResultResponseMessage.legal, resultResponse]
    exact ⟨⟨hcarried.1, EnsembleError.wire_legal _⟩, hcarried.2⟩
  | error error =>
    rw [encodeResultResponse_length]
    exact ⟨⟨Nat.zero_le _, EnsembleError.wire_legal _⟩, hroom.mono (by decide : 24 ≤ 8192)⟩

/-- What else the client knows does not matter. -/
theorem Ready.as {client other : EnsembleClient} {line : Line}
    (h : ({ client, line } : Session).Ready) (hconnected : other.connected = client.connected)
    (hlimits : other.limits = client.limits) : ({ client := other, line } : Session).Ready where
  connected := hconnected.trans h.connected
  agreed := hlimits.trans h.agreed
  lasting := h.lasting
  idle := h.idle
  room := h.room
  reasons := h.reasons
  reports := h.reports

/-- The line stays ready over an answered request. -/
theorem Ready.answered (h : s.Ready) {frame : Frame}
    (hidle : (s.line.answered frame).Idle) :
    ({ client := s.client.nextCorrelation.2, line := s.line.answered frame } : Session).Ready := by
  obtain ⟨hconnected, hlimits⟩ := nextCorrelation_connected s.client
  have hconfig : (s.line.answered frame).coordinator.limits = s.line.coordinator.limits :=
    congrArg CoordinatorConfig.limits (Line.after_config s.line _)
  refine ⟨hconnected.trans h.connected, hlimits.trans h.agreed, h.lasting, hidle, ?_, h.reasons, ?_⟩
  · refine ⟨h.room.written, ?_, h.room.framed, ?_⟩
    · rw [hconfig]
      exact h.room.answered
    · rw [hconfig]
      exact h.room.received
  · rw [hconfig]
    exact h.reports

/-- A call whose request is answered as soon as it is handled. -/
theorem Ready.called (h : s.Ready) {α : Type} {type answer : MessageType} {writes : List Write}
    {unexpected context : String} {decode : Decoder α} {legal : α → Prop}
    {put : α → List Write} {m : α} (htype : type ≠ .registerParticipant)
    (hwrites : s.line.Carries (flat writes).length)
    (hanswers : ∀ frame : Frame, frame.type = type → frame.payload = flat writes →
      s.line.coordinator.Answers (s.line.coordinator.next (.frame s.line.connection frame))
        s.line.connection answer (put m))
    (hexact : Exact decode legal put) (hlegal : legal m)
    (hput : s.line.Carries (flat (put m)).length) :
    ∃ client line,
      s.client.call Line.exchange s.line type writes answer unexpected decode context
        = (.ok m, client, line)
      ∧ ({ client, line } : Session).Ready := by
  have hbuffer : Encoder.buffer s.client.limits writes = flat writes :=
    Encoder.buffer_eq (by rw [h.agreed]; exact hwrites.written)
  generalize hframe : s.client.nextCorrelation.2.requestFrame s.client.nextCorrelation.1 type
    (flat writes) = frame
  have hpayload : frame.payload = flat writes := by rw [← hframe]; rfl
  have htype' : frame.type = type := by rw [← hframe]; rfl
  rw [← htype'] at htype
  obtain ⟨reply, hexchange, hidle, hreply, hcorrelation, hdecoded⟩ := h.idle.exchange_answer
    h.lasting htype (by rw [hpayload]; exact hwrites) (hanswers frame.received htype' hpayload)
    hexact hlegal hput
  rw [← hframe] at hcorrelation
  change reply.correlation = s.client.nextCorrelation.1 at hcorrelation
  have hread : EnsembleClient.acknowledge answer unexpected decode context reply = .ok m := by
    rw [EnsembleClient.acknowledge, hreply, bne_self_eq_false, if_neg Bool.false_ne_true,
      hdecoded context]
  refine ⟨s.client.nextCorrelation.2, s.line.answered frame.received, ?_,
    h.answered hidle⟩
  rw [EnsembleClient.call, EnsembleClient.request, h.connected, hbuffer]
  simp only [Bool.not_true, Bool.false_eq_true, if_false, hframe, hexchange]
  rw [EnsembleClient.matchReply, if_pos hcorrelation]
  simp only [hread]

/-! ### The handshake -/

/-- A process that connects to a coordinator over a line it has not used yet
becomes a client that is ready, and that knows the coordinator. -/
theorem connect_ready {l : Line} (boot : WorkerBootId) (hlasting : l.ended = false)
    (hidle : l.Idle) (hroom : l.Carries 8192) (hreasons : l.limits.maxMetadataBytes.toNat ≤ 4096)
    (hreports : l.coordinator.limits.maxMetadataBytes.toNat ≤ 4096) :
    ∃ client line, EnsembleClient.connect l.limits boot Line.exchange l = (.ok client, line)
      ∧ client.coordinatorEpoch = l.coordinator.fabric.core.epoch
      ∧ client.coordinatorBoot = l.coordinator.fabric.core.coordinatorBoot
      ∧ ({ client, line } : Session).Ready := by
  have hlabel : (textBytes "controller").length = 10 := by decide
  have hsize : (flat (encodeHello (EnsembleClient.hello boot))).length = 60 := by
    rw [encodeHello_length]
    exact congrArg (50 + ·) hlabel
  have hlegal : (EnsembleClient.hello boot).legal := hlabel.trans_le (by decide)
  have hpayload : Encoder.buffer l.limits (encodeHello (EnsembleClient.hello boot))
      = flat (encodeHello (EnsembleClient.hello boot)) :=
    Encoder.buffer_eq (hsize.trans_le ((by decide : 60 ≤ 8192).trans hroom.written))
  generalize hack : ({
      coordinatorEpoch := l.coordinator.fabric.core.epoch
      coordinatorBoot := l.coordinator.fabric.core.coordinatorBoot
      accepted := true
      detail := textBytes "handshake accepted" } : CoordinatorAck) = ack
  have hdetail : ack.detail.length = 18 := by
    rw [← hack]
    exact (by decide : (textBytes "handshake accepted").length = 18)
  have hready : Ready { client := { limits := l.limits, connected := true }, line := l } :=
    ⟨rfl, rfl, hlasting, hidle, hroom, hreasons, hreports⟩
  generalize hframe : EnsembleClient.helloFrame l.limits boot
    (EnsembleClient.nextCorrelation { limits := l.limits, connected := true }).1 = frame
  have htype : frame.type = .hello := by rw [← hframe]; rfl
  have hframed : frame.payload = flat (encodeHello (EnsembleClient.hello boot)) := by
    rw [← hframe]
    exact hpayload
  have hallowed : frame.type ≠ .registerParticipant := by
    rw [htype]
    decide
  have hread : frame.received.payload = flat (encodeHello (EnsembleClient.hello boot)) := hframed
  have hanswers : l.coordinator.Answers
      (l.coordinator.next (.frame l.connection frame.received)) l.connection .helloAck
      (encodeCoordinatorAck ack) := by
    refine .of_connected hidle.connected fun c hc hid => ?_
    have hnobody := hidle.bystander
    rw [← hid] at hnobody ⊢
    rw [handleFrame, show frame.received.type = .hello from htype,
      onMessage_decoded decodeHello_exact hlegal hread, ← hack]
    exact handleHello_answers hnobody hc _
  obtain ⟨reply, hexchange, hidle', hreply, -, hdecoded⟩ := hidle.exchange_answer hlasting
    hallowed (by rw [hframed, hsize]; exact hroom.mono (by decide)) hanswers
    decodeCoordinatorAck_exact (show ack.detail.length ≤ 4096 by omega)
    (by rw [encodeCoordinatorAck_length, hdetail]; exact hroom.mono (by decide))
  have hnext := hready.answered hidle'
  refine ⟨{ (EnsembleClient.nextCorrelation { limits := l.limits, connected := true }).2 with
      coordinatorEpoch := l.coordinator.fabric.core.epoch
      coordinatorBoot := l.coordinator.fabric.core.coordinatorBoot },
    l.answered frame.received, ?_, rfl, rfl, hnext.as rfl rfl⟩
  rw [EnsembleClient.connect]
  simp only [hframe, hexchange]
  rw [EnsembleClient.welcome, hreply, bne_self_eq_false, if_neg Bool.false_ne_true, hdecoded,
    ← hack]
  rfl

/-! ### Each call -/

theorem Ready.handles (h : s.Ready) {frame : Frame} {type : MessageType} {writes : List Write}
    (hhandle : ∀ c, s.line.coordinator.Bystander c.id →
      s.line.coordinator.parked.filter (·.1 == c.id) = [] →
      s.line.coordinator.Answers (s.line.coordinator.handleFrame c frame) c.id type writes) :
    s.line.coordinator.Answers (s.line.coordinator.next (.frame s.line.connection frame))
      s.line.connection type writes := by
  refine .of_connected h.idle.connected fun c _ hid => ?_
  have hnobody := h.idle.bystander
  have hparked := h.idle.parked
  rw [← hid] at hnobody hparked ⊢
  exact hhandle c hnobody hparked

theorem Ready.define (h : s.Ready) {spec : EnsembleSpec} (hfits : s.Fits (.defineEnsemble spec)) :
    (s.call (.defineEnsemble spec)).1
        = ControlRequest.answer s.line.limits s.line.coordinator (.defineEnsemble spec)
      ∧ (s.call (.defineEnsemble spec)).2.Ready := by
  obtain ⟨hspec, hbound, hcarries⟩ := hfits
  rw [← h.agreed] at hspec hbound hcarries
  generalize hencoded : encodeSpec spec s.client.limits = encoded at hspec hbound hcarries
  have hlegal : DefineEnsembleMessage.legal { encodedSpec := encoded } := hbound
  have hack := definitionAck_legal h.reports spec.id
    (EnsembleFabric.defineEnsemble s.line.coordinator.fabric spec).2
  obtain ⟨client, line, hcall, hready⟩ : ∃ client line,
      s.client.defineEnsemble Line.exchange s.line spec
        = (.ok (s.line.coordinator.definitionAck spec.id
            (EnsembleFabric.defineEnsemble s.line.coordinator.fabric spec).2), client, line)
      ∧ ({ client, line } : Session).Ready := by
    rw [EnsembleClient.defineEnsemble, hencoded]
    refine h.called (by decide) ?_ (fun frame htype hpayload => h.handles fun c hnobody _ => ?_)
      decodeDefineEnsembleAck_exact hack (h.room.mono ?_)
    · rw [encodeDefineEnsemble_length]
      exact hcarries
    · rw [handleFrame, htype, onMessage_decoded decodeDefineEnsemble_exact hlegal hpayload]
      exact handleDefineEnsemble_answers hnobody hspec
    · rw [encodeDefineEnsembleAck_length]
      exact (Nat.add_le_add_left hack.2 23).trans (by decide)
  rw [call, hcall]
  exact ⟨rfl, hready⟩

theorem Ready.openExecution (h : s.Ready) (id : EnsembleId) (generation : EnsembleGeneration) :
    (s.call (.openExecution id generation)).1
        = ControlRequest.answer s.line.limits s.line.coordinator (.openExecution id generation)
      ∧ (s.call (.openExecution id generation)).2.Ready := by
  have hack := executionAck_legal h.reports id generation
    (EnsembleFabric.openExecution s.line.coordinator.fabric id generation).2
  obtain ⟨client, line, hcall, hready⟩ : ∃ client line,
      s.client.openExecution Line.exchange s.line id generation
        = (.ok (s.line.coordinator.executionAck id generation
            (EnsembleFabric.openExecution s.line.coordinator.fabric id generation).2), client, line)
      ∧ ({ client, line } : Session).Ready := by
    refine h.called (by decide) (h.room.mono ?_)
      (fun frame htype hpayload => h.handles fun c hnobody _ => ?_)
      decodeOpenExecutionAck_exact hack (h.room.mono ?_)
    · rw [encodeOpenExecution_length]
      decide
    · rw [handleFrame, htype, onMessage_decoded decodeOpenExecution_exact trivial hpayload]
      exact handleOpenExecution_answers hnobody _
    · rw [encodeOpenExecutionAck_length]
      exact (Nat.add_le_add_left hack.2 31).trans (by decide)
  rw [call, hcall]
  exact ⟨rfl, hready⟩

theorem Ready.cancel (h : s.Ready) (id : EnsembleId) (generation : EnsembleGeneration)
    (reason : String) :
    (s.call (.cancelEnsemble id generation reason)).1
        = ControlRequest.answer s.line.limits s.line.coordinator
            (.cancelEnsemble id generation reason)
      ∧ (s.call (.cancelEnsemble id generation reason)).2.Ready := by
  generalize hcut : sanitizeText reason s.line.limits.maxMetadataBytes = cut
  have hstatus := cancellationStatus_legal h.reports
    (EnsembleFabric.cancelEnsemble s.line.coordinator.fabric id generation cut).2
  have hreason : CancelEnsembleMessage.legal
      { ensemble := id, ensembleGeneration := generation, reason := textBytes cut } := by
    rw [← hcut]
    exact (sanitized_length _ _).trans h.reasons
  obtain ⟨client, line, hcall, hready⟩ : ∃ client line,
      s.client.call Line.exchange s.line .cancelEnsemble
          (encodeCancelEnsemble
            { ensemble := id, ensembleGeneration := generation, reason := textBytes cut })
          .statusResponse "unexpected response to a cancellation request" decodeStatusResponse
          "status response"
        = (.ok (s.line.coordinator.cancellationStatus
            (EnsembleFabric.cancelEnsemble s.line.coordinator.fabric id generation cut).2),
          client, line)
      ∧ ({ client, line } : Session).Ready := by
    refine h.called (by decide) (h.room.mono ?_)
      (fun frame htype hpayload => h.handles fun c hnobody hparked => ?_)
      decodeStatusResponse_exact hstatus (h.room.mono ?_)
    · rw [encodeCancelEnsemble_length]
      exact (Nat.add_le_add_left hreason 20).trans (by decide)
    · rw [handleFrame, htype, onMessage_decoded decodeCancelEnsemble_exact hreason hpayload]
      have hkept : bytesText (textBytes cut) = cut :=
        bytesText_textBytes (hcut ▸ sanitizeText_isByteText _ _)
      conv => arg 5; rw [← hkept]
      exact handleCancelEnsemble_answers hnobody _ hparked
    · rw [encodeStatusResponse_length]
      exact (Nat.add_le_add_left hstatus.2 6).trans (by decide)
  rw [call, EnsembleClient.cancelEnsemble, h.agreed, hcut, hcall]
  refine ⟨?_, hready⟩
  rw [ControlRequest.answer, hcut]
  cases hcancelled :
    (EnsembleFabric.cancelEnsemble s.line.coordinator.fabric id generation cut).2 with
  | ok value => rfl
  | error error =>
    have hcode := cancelEnsemble_refused hcancelled
    exact congrArg ControlAnswer.cancelled (if_pos hcode)

theorem Ready.query (h : s.Ready) {id : EnsembleId} {generation : EnsembleGeneration}
    (hfits : s.Fits (.queryResult id generation)) :
    (s.call (.queryResult id generation)).1
        = ControlRequest.answer s.line.limits s.line.coordinator (.queryResult id generation)
      ∧ (s.call (.queryResult id generation)).2.Ready := by
  have hresponse := resultResponse_carried h.room hfits generation
  obtain ⟨client, line, hcall, hready⟩ : ∃ client line,
      s.client.queryResult Line.exchange s.line id generation
        = (.ok (s.line.coordinator.resultResponse id generation
            (currentResult s.line.coordinator.fabric id)), client, line)
      ∧ ({ client, line } : Session).Ready := by
    refine h.called (by decide) (h.room.mono ?_)
      (fun frame htype hpayload => h.handles fun c hnobody _ => ?_)
      decodeResultResponse_exact hresponse.1 hresponse.2
    · rw [encodeQueryResult_length]
      decide
    · rw [handleFrame, htype, onMessage_decoded decodeQueryResult_exact trivial hpayload]
      exact handleQueryResult_answers hnobody _
  rw [call, hcall]
  exact ⟨rfl, hready⟩

theorem Ready.answers (h : s.Ready) {r : ControlRequest} (hfits : s.Fits r) :
    (s.call r).1 = r.answer s.line.limits s.line.coordinator ∧ (s.call r).2.Ready := by
  cases r with
  | defineEnsemble spec => exact h.define hfits
  | openExecution id generation => exact h.openExecution id generation
  | cancelEnsemble id generation reason => exact h.cancel id generation reason
  | queryResult id generation => exact h.query hfits

/-- The session after a call. -/
def perform (s : Session) (r : ControlRequest) : Session := (s.call r).2

/-- As long as the messages of the calls have room, every remote call returns
what the operation returns on the runtime of the coordinator at that point,
whatever other processes have done before and do until the reply is there. -/
theorem remote_calls_faithful (s : Session) (h : s.Ready) (requests : List ControlRequest)
    (hfits : Along perform Fits s requests) :
    ledger perform (fun s r => [(s.call r).1]) s requests
        = ledger perform (fun s r => [r.answer s.line.limits s.line.coordinator]) s requests
      ∧ (run perform s requests).Ready := by
  induction requests generalizing s with
  | nil => exact ⟨rfl, h⟩
  | cons r requests ih =>
    obtain ⟨hanswer, hnext⟩ := h.answers hfits.1
    obtain ⟨hanswers, hready⟩ := ih (s.perform r) hnext hfits.2
    rw [ledger, ledger, hanswer, hanswers]
    exact ⟨rfl, hready⟩

namespace Sample

/-- An ensemble is defined and its execution opened, while another process
looks for its result; an ensemble nobody has defined cannot be cancelled. -/
def calls : List ControlRequest :=
  [.defineEnsemble EnsembleFabric.Sample.loneSpec, .openExecution ⟨1⟩ ⟨1⟩,
    .cancelEnsemble ⟨2⟩ ⟨1⟩ "no longer needed"]

end Sample

theorem controller_calls_faithful :
    ledger perform (fun s r => [(s.call r).1]) Sample.controller Sample.calls
        = ledger perform (fun s r => [r.answer s.line.limits s.line.coordinator])
            Sample.controller Sample.calls
      ∧ (run perform Sample.controller Sample.calls).Ready :=
  remote_calls_faithful Sample.controller
    { connected := rfl
      agreed := rfl
      lasting := rfl
      idle := ⟨by decide +kernel, by decide +kernel, by decide +kernel, by decide +kernel,
        by decide +kernel⟩
      room := ⟨by decide +kernel, by decide +kernel, by decide +kernel, by decide +kernel⟩
      reasons := by decide +kernel
      reports := by decide +kernel }
    Sample.calls
    ⟨⟨by decide +kernel, by decide +kernel,
      ⟨by decide +kernel, by decide +kernel, by decide +kernel, by decide +kernel⟩⟩,
      trivial, trivial, trivial⟩

end Session

end EnsembleFabric

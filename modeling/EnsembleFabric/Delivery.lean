import EnsembleFabric.Coordinator
import EnsembleFabric.FrameCodec
import EnsembleFabric.ResultRoundTrip
import EnsembleFabric.Settlement

/-!
# Whether a committed result reaches the client

A result on its way to the client goes through three bounds: the decoder of
results bounds each of its parts, the message its encoding, and the frame
the message; the encoders in between keep to the size of a state file. None
of them is checked when the result is committed. The response is delivered
if and only if the result is within all of them
(`finalize_response_delivered`).

`Delivered` runs the way in full: the frame is handed to `encode_frame`, and
a client that reads its bytes decodes the frame, the message and the result.
`Deliverable` is the condition on the result and on the limits of the two
ends. They are compared field by field with the exactness of the codecs
(`MessageCodec`, `ResultRoundTrip`), so nothing is lost in between; the one
place where the length of an encoding decides is the frame, for which the
size of a response is computed (`settledFrame_length`).

The counterexample is a coordinator whose frames hold every request and no
result: the result is stored, and the frame with it is refused by the
encoder.
-/

namespace EnsembleFabric

open Write (flat)

/-! ## What the client reads -/

/-- The frame is accepted by the encoder of frames, and a client that reads
its bytes finds the message, and the result in it. -/
def Delivered (limits : Limits) (frame : Frame) (message : FinalizeResponseMessage)
    (r : EnsembleResult) : Prop :=
  ∃ bytes received, encodeFrame frame limits = .ok bytes
    ∧ decodeFrame bytes limits = .complete received bytes.length
    ∧ Coordinator.decodeWhole decodeFinalizeResponse "finalize response" received = .ok message
    ∧ decodeResultPayload message.encodedResult limits = .ok r

theorem decodeWhole_eq_ok {α : Type} {decode : Decoder α} {context : String} {frame : Frame}
    {a : α} : Coordinator.decodeWhole decode context frame = .ok a
      ↔ decode.run frame.payload = .ok (a, []) := by
  simp only [Coordinator.decodeWhole, requireExhausted, Checks.bind_eq_ok, require_eq_ok,
    Checks.pure_eq_ok]
  constructor
  · rintro ⟨⟨message, remaining⟩, hread, _, hempty, rfl⟩
    obtain rfl := List.isEmpty_iff.mp hempty
    exact hread
  · intro hread
    exact ⟨(a, []), hread, (), rfl, rfl⟩

/-- A frame is delivered if it fits, its payload is the whole message, the
message is legal and its result is read. -/
theorem delivered_iff {limits : Limits} {frame : Frame} {message : FinalizeResponseMessage}
    {r : EnsembleResult} :
    Delivered limits frame message r
      ↔ frame.Fits limits ∧ message.legal ∧ frame.payload = flat (encodeFinalizeResponse message)
        ∧ decodeResultPayload message.encodedResult limits = .ok r := by
  constructor
  · rintro ⟨bytes, received, hencoded, hdecoded, hmessage, hresult⟩
    have hfits := encodeFrame_fits hencoded
    rw [encodeFrame_eq hfits] at hencoded
    obtain rfl := Except.ok.inj hencoded
    have himage := decodeFrame_image hfits []
    rw [List.append_nil, hdecoded] at himage
    obtain ⟨rfl, -⟩ := DecodeResult.complete.inj himage
    obtain ⟨hlegal, hpayload⟩ :=
      decodeFinalizeResponse_exact.canonical (decodeWhole_eq_ok.mp hmessage)
    exact ⟨hfits, hlegal, hpayload, hresult⟩
  · rintro ⟨hfits, hlegal, hpayload, hresult⟩
    have himage := decodeFrame_image hfits []
    rw [List.append_nil] at himage
    refine ⟨frame.image, _, encodeFrame_eq hfits, himage, decodeWhole_eq_ok.mpr ?_, hresult⟩
    change decodeFinalizeResponse.run frame.payload = _
    rw [hpayload]
    exact decodeFinalizeResponse_exact.reads hlegal

/-! ## The size of a result -/

section Sizes

theorem u8_length (value : UInt8) : (flat (Encoder.u8 value)).length = 1 := rfl

theorem u16_length (value : UInt16) : (flat (Encoder.u16 value)).length = 2 := by
  simp [Encoder.u16, Write.bytes]

theorem u32_length (value : UInt32) : (flat (Encoder.u32 value)).length = 4 := by
  simp [Encoder.u32, Write.bytes]

theorem u64_length (value : UInt64) : (flat (Encoder.u64 value)).length = 8 := by
  simp [Encoder.u64, Write.bytes]

theorem flatten_length (parts : List (List Write)) :
    (flat parts.flatten).length = (parts.map fun part => (flat part).length).sum := by
  induction parts with
  | nil => rfl
  | cons part parts ih =>
    rw [List.flatten_cons, Write.flat_append, List.length_append, ih, List.map_cons, List.sum_cons]

theorem list_length_ge {α : Type} (put : α → List Write) (values : List α) :
    4 ≤ (flat (Encoder.list put values)).length := by
  rw [Encoder.list, Write.flat_append, List.length_append, u32_length]
  omega

theorem bytes_length_ge (value : List UInt8) : 4 ≤ (flat (Encoder.bytes value)).length := by
  rw [Encoder.bytes, Write.flat_append, List.length_append, u32_length]
  omega

theorem putQuorumReport_length_ge (r : QuorumReport) :
    124 ≤ (flat (putQuorumReport r)).length := by
  have hmembers := list_length_ge putId r.members
  have hgenerations := list_length_ge putId r.memberGenerations
  have hcontributors := list_length_ge putId r.contributorsList
  have habstaining := list_length_ge putId r.abstainingMembers
  have hfailed := list_length_ge putId r.failedMembers
  have hnotes := list_length_ge putText r.notes
  simp only [putQuorumReport, flatten_length, List.map_cons, List.map_nil, List.sum_cons,
    List.sum_nil, u8_length, u32_length, u64_length, Encoder.counter, Encoder.boolean, putId,
    putIdList] at *
  omega

theorem putConsensusReport_length_ge (r : ConsensusReport) :
    114 ≤ (flat (putConsensusReport r)).length := by
  have hagreeing := list_length_ge putId r.agreeingMembers
  have hdisagreeing := list_length_ge putId r.disagreeingMembers
  have habstaining := list_length_ge putId r.abstainingMembers
  have hmissing := list_length_ge putId r.missingMembers
  have heligible := list_length_ge putId r.eligibleCandidatesList
  simp only [putConsensusReport, flatten_length, List.map_cons, List.map_nil, List.sum_cons,
    List.sum_nil, u8_length, u32_length, u64_length, Encoder.counter, Encoder.boolean, putId,
    putIdList] at *
  omega

/-- The size of the encoding of a result. -/
def EnsembleResult.encodedSize (r : EnsembleResult) : Nat := (flat (putResultPayload r)).length

/-- No result is small. -/
theorem EnsembleResult.encodedSize_ge (r : EnsembleResult) : 421 ≤ r.encodedSize := by
  have hquorum := putQuorumReport_length_ge r.quorum
  have hconsensus := putConsensusReport_length_ge r.consensus
  have hfactors := list_length_ge (fun factor => Encoder.u8 factor.number) r.arbitration.factorOrder
  have hpayload := bytes_length_ge r.payload
  have hparticipants := list_length_ge putParticipantOutcome r.participants
  have hcandidates := list_length_ge putCandidateSnapshot r.candidates
  have hevaluations := list_length_ge putEvaluationSnapshot r.evaluations
  have hexplanation := list_length_ge putExplanationEntry r.explanation
  simp only [encodedSize, putResultPayload, putResult, putArbitrationReport, flatten_length,
    List.map_cons, List.map_nil, List.sum_cons, List.sum_nil, u8_length, u32_length, u64_length,
    Encoder.counter, Encoder.boolean, putId] at *
  omega

end Sizes

/-! ## The response -/

/-- The bounds on the way of a result to the client; the detail is the text
of the error the response reports, if it reports one. Both ends have limits of
their own. -/
structure EnsembleResult.Deliverable (limits : Limits) (detail : List UInt8)
    (r : EnsembleResult) : Prop where
  /-- The decoder of results. -/
  fits : r.Fits limits
  /-- The decoder of the message. -/
  result : r.encodedSize ≤ 32 * 2 ^ 20
  text : detail.length ≤ 4096
  /-- The encoder of the message: 28 bytes are around the result and the detail. -/
  message : r.encodedSize + 28 + detail.length ≤ limits.maxPersistenceBytes.toNat
    ∨ r.encodedSize + 28 = limits.maxPersistenceBytes.toNat
  /-- The encoder of the frame: 64 bytes are in front of the message. -/
  frame : 64 + (r.encodedSize + 28 + detail.length) ≤ limits.maxFrameBytes.toNat

/-- Everything a response writes before the last run of bytes. -/
def responseFront (message : FinalizeResponseMessage) : List Write :=
  [ Encoder.u64 message.ensemble.value,
    Encoder.u64 message.ensembleGeneration.value,
    Encoder.u8 message.decision.number,
    Encoder.boolean message.accepted,
    Encoder.u16 message.code.number,
    Encoder.bytes message.encodedResult,
    Encoder.u32 (UInt32.ofNat message.detail.length) ].flatten

theorem encodeFinalizeResponse_eq (message : FinalizeResponseMessage) :
    encodeFinalizeResponse message = responseFront message ++ [.raw message.detail] := by
  simp [encodeFinalizeResponse, responseFront, Encoder.string]

theorem responseFront_length (message : FinalizeResponseMessage) :
    (flat (responseFront message)).length = message.encodedResult.length + 28 := by
  have hresult : (flat (Encoder.bytes message.encodedResult)).length
      = 4 + message.encodedResult.length := by
    rw [Encoder.bytes, Write.flat_append, List.length_append, u32_length]
    simp [Write.bytes]
  simp only [responseFront, flatten_length, List.map_cons, List.map_nil, List.sum_cons,
    List.sum_nil, u8_length, u16_length, u32_length, u64_length, Encoder.boolean, hresult]
  omega

theorem encodeFinalizeResponse_length (message : FinalizeResponseMessage) :
    (flat (encodeFinalizeResponse message)).length
      = message.encodedResult.length + 28 + message.detail.length := by
  rw [encodeFinalizeResponse_eq, Write.flat_append, List.length_append, responseFront_length]
  simp [Write.bytes]

/-- A response that carries a result is delivered within the bounds only. -/
theorem response_delivered {limits : Limits} {frame : Frame} {message : FinalizeResponseMessage}
    {r : EnsembleResult} (hcode : message.code.legal)
    (hcarried : message.encodedResult = encodeResultPayload r limits)
    (hpayload : frame.payload = Encoder.buffer limits (encodeFinalizeResponse message)) :
    Delivered limits frame message r ↔ r.Deliverable limits message.detail := by
  have hsize := encodeFinalizeResponse_length message
  have hmegabytes : (megabytes 32).toNat = 32 * 2 ^ 20 := by decide
  rw [delivered_iff, hpayload, Frame.Fits, hpayload]
  constructor
  · rintro ⟨hfits, hlegal, hkept, hresult⟩
    have hroom := hkept
    rw [encodeFinalizeResponse_eq, Encoder.buffer_raw_eq, responseFront_length] at hroom
    have hwhole : message.encodedResult = flat (putResultPayload r) := by
      rw [hcarried]
      refine Encoder.buffer_eq_of_lt ?_
      rw [hcarried, encodeResultPayload] at hroom
      omega
    have hlength : message.encodedResult.length = r.encodedSize := by
      rw [hwhole, EnsembleResult.encodedSize]
    rw [hkept, hsize, hlength] at hfits
    rw [hwhole, decodeResultPayload_eq_ok] at hresult
    refine ⟨hresult, ?_, hlegal.2.2, ?_, hfits⟩
    · rw [← hlength, ← hmegabytes]
      exact hlegal.2.1
    · rw [← hlength]
      exact hroom
  · intro h
    have hwhole : message.encodedResult = flat (putResultPayload r) := by
      rw [hcarried, encodeResultPayload, Encoder.buffer_eq]
      have hmessage := h.message
      rw [EnsembleResult.encodedSize] at hmessage
      omega
    have hlength : message.encodedResult.length = r.encodedSize := by
      rw [hwhole, EnsembleResult.encodedSize]
    have hkept : Encoder.buffer limits (encodeFinalizeResponse message)
        = flat (encodeFinalizeResponse message) := by
      rw [encodeFinalizeResponse_eq, Encoder.buffer_raw_eq, responseFront_length, hlength]
      exact h.message
    refine ⟨?_, ⟨hcode, ?_, h.text⟩, hkept, ?_⟩
    · rw [hkept, hsize, hlength]
      exact h.frame
    · rw [hlength, hmegabytes]
      exact h.result
    · rw [hwhole, decodeResultPayload_eq_ok]
      exact h.fits

/-! ## Settled executions -/

/-- What `finalize` answers is what is stored. -/
theorem finalize_stores {f : Fabric} {id : EnsembleId} {generation : EnsembleGeneration}
    {r : EnsembleResult} (hnamed : Named f) (hresults : OfExecution NamesItsExecution (f.view id))
    (h : (finalize f id generation).2 = .ok r) :
    currentResult (finalize f id generation).1 id = .ok r := by
  unfold finalize at h ⊢
  cases hcheck : finalizeCheck f id generation with
  | error error =>
    rw [hcheck] at h
    cases h
  | ok checked =>
    simp only [hcheck] at h ⊢
    cases hcarry : finalizeCarry checked (prepareResult f id generation).2 with
    | error error =>
      rw [hcarry] at h
      cases h
    | ok result =>
      simp only [hcarry] at h ⊢
      obtain ⟨hprepared, -⟩ := finalizeCarry_eq_ok hcarry
      obtain ⟨_, x, -, -, -, hkey⟩ := prepareResult_key hnamed hresults hprepared
      have hid : result.ensemble = id := congrArg ExecutionKey.ensemble hkey
      obtain ⟨e', x', hfind, -, hx', -, hresult⟩ :=
        commitResult_stores (finalizeAnswer_eq_ok h)
      rw [hid] at hfind
      simp only [currentResult, hfind, hx', Option.bind_some, hresult]

/-- A response carries the result that is stored. -/
theorem settledResponse_carries {limits : Limits} {f : Fabric} {w : PendingFinalize}
    {committed : Outcome EnsembleResult} {r : EnsembleResult}
    (hcommitted : ∀ r', committed = .ok r' → currentResult f w.ensemble = .ok r')
    (hstored : currentResult f w.ensemble = .ok r) :
    (Coordinator.settledResponse limits f w committed).encodedResult
      = encodeResultPayload r limits := by
  cases committed with
  | ok r' =>
    obtain rfl : r' = r := Except.ok.inj ((hcommitted r' rfl).symm.trans hstored)
    rw [Coordinator.settledResponse]
  | error error => rw [Coordinator.settledResponse, hstored]

theorem settledResponse_code {limits : Limits} {f : Fabric} {w : PendingFinalize}
    {committed : Outcome EnsembleResult} :
    (Coordinator.settledResponse limits f w committed).code.legal := by
  cases committed with
  | ok r => exact EnsembleError.wire_legal _
  | error error =>
    simp only [Coordinator.settledResponse]
    split
    · exact error.code.wire_legal
    · exact error.code.wire_legal

theorem answerWaiter_settled {s : Coordinator} {w : PendingFinalize}
    (h : isSettled s.fabric w.ensemble w.generation = .ok true) :
    s.answerWaiter w
      = ((s.withFabric (finalize s.fabric w.ensemble w.generation).1).sendFrame w.connection
          (Coordinator.settledFrame s.limits (finalize s.fabric w.ensemble w.generation).1 w
            (finalize s.fabric w.ensemble w.generation).2)).markDirty := by
  simp only [Coordinator.answerWaiter, h]

/-- In every reachable state of the runtime, a waiter whose execution has
settled is answered with one frame, which the channel sends or refuses. If a
result is stored, the client gets the frame, the message and exactly this
result if and only if the result is within the bounds on its way. -/
theorem finalize_response_delivered {config : FabricConfig} {events : List Event}
    {s : Coordinator} {w : PendingFinalize} {r : EnsembleResult}
    (hreach : s.fabric = ((System.initial config).run events).fabric)
    (hsettled : isSettled s.fabric w.ensemble w.generation = .ok true)
    (hstored : currentResult (s.answerWaiter w).fabric w.ensemble = .ok r) :
    ∃ frame message, (s.answerWaiter w).trail = s.trail ++ [s.sending w.connection frame]
      ∧ frame = Coordinator.settledFrame s.limits (s.answerWaiter w).fabric w
          (finalize s.fabric w.ensemble w.generation).2
      ∧ message = Coordinator.settledResponse s.limits (s.answerWaiter w).fabric w
          (finalize s.fabric w.ensemble w.generation).2
      ∧ (Delivered s.limits frame message r ↔ r.Deliverable s.limits message.detail) := by
  rw [answerWaiter_settled hsettled] at hstored ⊢
  refine ⟨_, _, rfl, rfl, rfl, response_delivered settledResponse_code ?_ rfl⟩
  refine settledResponse_carries (fun r' hr' => finalize_stores ?_ ?_ hr') hstored
  · rw [hreach]
    exact (reachable_named config events).2
  · rw [hreach]
    exact reachable_namesItsExecution config events w.ensemble

/-- The payload of the response to an accepted request, if the encoder has
kept all of it. -/
theorem settledFrame_length {limits : Limits} {f : Fabric} {w : PendingFinalize}
    {r : EnsembleResult}
    (h : (Coordinator.settledFrame limits f w (.ok r)).payload.length
      < limits.maxPersistenceBytes.toNat) :
    (Coordinator.settledFrame limits f w (.ok r)).payload.length = r.encodedSize + 28 := by
  have hcarried : (Coordinator.settledResponse limits f w (.ok r)).encodedResult
      = encodeResultPayload r limits := by rw [Coordinator.settledResponse]
  have hdetail : (Coordinator.settledResponse limits f w (.ok r)).detail.length = 0 := by
    rw [Coordinator.settledResponse, List.length_nil]
  have hsize : (Coordinator.settledFrame limits f w (.ok r)).payload.length
      = (encodeResultPayload r limits).length + 28 := by
    rw [Coordinator.settledFrame] at h ⊢
    have hkept := Encoder.buffer_eq_of_lt h
    rw [hkept, encodeFinalizeResponse_length, hcarried, hdetail, Nat.add_zero]
  rw [hsize] at h ⊢
  rw [encodeResultPayload] at h ⊢
  rw [Encoder.buffer_eq_of_lt (by omega), EnsembleResult.encodedSize]

namespace Sample

/-- A coordinator whose runtime has gone through the events. -/
def coordinator (limits : Limits) (events : List Event) : Coordinator :=
  .create { limits } ((System.initial { limits }).run events).fabric

def waiter : PendingFinalize where
  connection := 1
  correlation := ⟨7⟩
  ensemble := ⟨1⟩
  generation := ⟨1⟩

/-- The only candidate has answered. -/
def loneAnswered : List Event := start loneSpec ++ [content 1 1 [7], advance]

/-- The result the coordinator stores when it answers the waiter. -/
def answered (limits : Limits) : EnsembleResult :=
  match currentResult ((coordinator limits loneAnswered).answerWaiter waiter).fabric ⟨1⟩ with
  | .ok result => result
  | .error _ => {}

/-- Under the default bounds. -/
def loneWaiting : Coordinator := coordinator {} loneAnswered

theorem loneWaiting_fabric :
    loneWaiting.fabric = ((System.initial {}).run loneAnswered).fabric := by
  rw [loneWaiting, coordinator, Coordinator.create]

/-- Frames large enough for every request, and not for a result. -/
def smallFrames : Limits := { maxFrameBytes := 512, maxCandidatePayloadBytes := 256 }

end Sample

/-- Under the default bounds the lone result is stored and answered. The client
that waits for it reads the frame and finds this result in it. -/
theorem lone_response_delivered :
    ∃ frame message, (Sample.loneWaiting.answerWaiter Sample.waiter).trail
          = Sample.loneWaiting.trail
            ++ [Sample.loneWaiting.sending Sample.waiter.connection frame]
      ∧ frame = Coordinator.settledFrame Sample.loneWaiting.limits
          (Sample.loneWaiting.answerWaiter Sample.waiter).fabric Sample.waiter
          (finalize Sample.loneWaiting.fabric Sample.waiter.ensemble Sample.waiter.generation).2
      ∧ message = Coordinator.settledResponse Sample.loneWaiting.limits
          (Sample.loneWaiting.answerWaiter Sample.waiter).fabric Sample.waiter
          (finalize Sample.loneWaiting.fabric Sample.waiter.ensemble Sample.waiter.generation).2
      ∧ (Delivered Sample.loneWaiting.limits frame message (Sample.answered {})
          ↔ (Sample.answered {}).Deliverable Sample.loneWaiting.limits message.detail) :=
  finalize_response_delivered Sample.loneWaiting_fabric
    (by decide +kernel) (by decide +kernel)

/-- A result is committed, and the frame of its response is refused: no
result fits where frames of 512 bytes are allowed. -/
theorem committed_result_undelivered :
    Sample.smallFrames.validate = .ok ()
      ∧ isSettled (Sample.coordinator Sample.smallFrames Sample.loneAnswered).fabric ⟨1⟩ ⟨1⟩
          = .ok true
      ∧ (finalize (Sample.coordinator Sample.smallFrames Sample.loneAnswered).fabric ⟨1⟩ ⟨1⟩).2
          = .ok (Sample.answered Sample.smallFrames)
      ∧ (Sample.answered Sample.smallFrames).decision = .committed
      ∧ ∀ bytes, encodeFrame
          (Coordinator.settledFrame Sample.smallFrames
            (finalize (Sample.coordinator Sample.smallFrames Sample.loneAnswered).fabric ⟨1⟩ ⟨1⟩).1
            Sample.waiter (.ok (Sample.answered Sample.smallFrames))) Sample.smallFrames
          ≠ .ok bytes := by
  refine ⟨by decide +kernel, by decide +kernel, by decide +kernel, by decide +kernel,
    fun bytes h => ?_⟩
  have hfits := encodeFrame_fits h
  have hlimits : Sample.smallFrames.maxFrameBytes.toNat = 512
      ∧ Sample.smallFrames.maxPersistenceBytes.toNat = 33554432 := by decide +kernel
  have hsize := (Sample.answered Sample.smallFrames).encodedSize_ge
  rw [Frame.Fits, hlimits.1, Frame.headerBytes] at hfits
  rw [settledFrame_length (by omega)] at hfits
  omega

end EnsembleFabric

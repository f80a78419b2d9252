import EnsembleFabric.Library.LittleEndian
import EnsembleFabric.Ids
import EnsembleFabric.Limits

/-!
# Frames

A frame is a header of fixed size and a payload. The header carries the
length, so an oversized frame is refused before its payload is read, and
a checksum over the header (with the checksum itself blank) and the
payload (`protocol.cpp`).

`encodeFrame` writes as the source does: a blank header, the words stored
at their offsets, the payload behind it, and at last the checksum over
both, stored where the blank was. `decodeFrame` looks at a buffer from the
front and says that it needs more, that the bytes are no frame, or which
frame they are and how many bytes it takes. Its checks come in the order
of the source, since a buffer that fails two of them is answered with the
error of the first.

The checksum is the CRC32C of the source (`detail/crc32c.cpp`), a table
that is computed once and a loop over the bytes. What it computes in terms
of bits is `Checksum`.
-/

namespace EnsembleFabric

open LittleEndian (bytes word slice overwrite)

/-! ## CRC32C -/

namespace Crc32c

/-- The reflected Castagnoli polynomial. -/
def polynomial : UInt32 := 0x82F63B78

/-- One bit of the table's computation. -/
def shift (value : UInt32) : UInt32 :=
  if value &&& 1 != 0 then (value >>> 1) ^^^ polynomial else value >>> 1

/-- The table's entry for a byte. -/
def entry (index : UInt32) : UInt32 := shift^[8] index

end Crc32c

def crc32cExtend (seed : UInt32) (data : List UInt8) : UInt32 :=
  ~~~ data.foldl
    (fun crc raw => Crc32c.entry ((crc ^^^ raw.toUInt32) &&& 0xFF) ^^^ (crc >>> 8)) (~~~ seed)

def crc32c (data : List UInt8) : UInt32 := crc32cExtend 0 data

/-! ## Words of a buffer -/

def storeU16 (out : List UInt8) (offset : Nat) (value : UInt16) : List UInt8 :=
  overwrite out offset (bytes 2 value.toNat)

def storeU32 (out : List UInt8) (offset : Nat) (value : UInt32) : List UInt8 :=
  overwrite out offset (bytes 4 value.toNat)

def storeU64 (out : List UInt8) (offset : Nat) (value : UInt64) : List UInt8 :=
  overwrite out offset (bytes 8 value.toNat)

def loadU16 (input : List UInt8) (offset : Nat) : UInt16 :=
  UInt16.ofNat (word (slice input offset 2))

def loadU32 (input : List UInt8) (offset : Nat) : UInt32 :=
  UInt32.ofNat (word (slice input offset 4))

def loadU64 (input : List UInt8) (offset : Nat) : UInt64 :=
  UInt64.ofNat (word (slice input offset 8))

/-! ## Frames -/

/-- The kinds of message, in the order of their numbers from 1. -/
inductive MessageType where
  | hello
  | helloAck
  | registerParticipant
  | registerAck
  | heartbeat
  | dispatchCandidate
  | candidateResult
  | candidateFailure
  | candidateAbstention
  | evaluationRequest
  | evaluationResult
  | cancel
  | defineEnsemble
  | defineEnsembleAck
  | openExecution
  | openExecutionAck
  | finalizeRequest
  | finalizeResponse
  | inspectRequest
  | inspectResponse
  | workerReady
  | goodbye
  | errorResponse
  | cancelEnsemble
  | queryResult
  | resultResponse
  | statusResponse
deriving DecidableEq

namespace MessageType

/-- The types by number, the first of them number 1. -/
def all : List MessageType :=
  [.hello, .helloAck, .registerParticipant, .registerAck, .heartbeat, .dispatchCandidate,
    .candidateResult, .candidateFailure, .candidateAbstention, .evaluationRequest,
    .evaluationResult, .cancel, .defineEnsemble, .defineEnsembleAck, .openExecution,
    .openExecutionAck, .finalizeRequest, .finalizeResponse, .inspectRequest, .inspectResponse,
    .workerReady, .goodbye, .errorResponse, .cancelEnsemble, .queryResult, .resultResponse,
    .statusResponse]

def number (type : MessageType) : UInt16 := UInt16.ofNat (type.ctorIdx + 1)

/-- `parse_message_type` -/
def parse (value : UInt16) : Option MessageType :=
  if value < 1 || 27 < value then none else all[value.toNat - 1]?

theorem parse_number (type : MessageType) : parse type.number = some type := by
  cases type <;> rfl

theorem all_ctorIdx (type : MessageType) : all[type.ctorIdx]? = some type := by
  cases type <;> rfl

theorem number_of_parse {value : UInt16} {type : MessageType} (h : parse value = some type) :
    type.number = value := by
  rw [parse] at h
  split at h
  · cases h
  · rename_i hrange
    rw [Bool.or_eq_true, decide_eq_true_eq, decide_eq_true_eq, not_or, UInt16.not_lt,
      UInt16.not_lt] at hrange
    have hlow : 1 ≤ value.toNat := UInt16.le_iff_toNat_le.mp hrange.1
    have hindex : value.toNat - 1 = type.ctorIdx :=
      (List.getElem?_inj (List.getElem?_eq_some_iff.mp h).1 (by decide)).mp
        (h.trans (all_ctorIdx type).symm)
    rw [number, ← hindex, Nat.sub_add_cancel hlow, UInt16.ofNat_toNat]

end MessageType

structure Frame where
  version : UInt16 := 0
  type : MessageType := .errorResponse
  flags : UInt16 := 0
  correlation : RequestId := {}
  epoch : CoordinatorEpoch := {}
  workerBoot : WorkerBootId := {}
  sequence : Sequence := {}
  payload : List UInt8 := []
deriving DecidableEq

namespace Frame

def headerBytes : Nat := 64

def magic : UInt32 := 0x42464E45

end Frame

def protocolVersion : UInt16 := 1

/-- `encode_frame` -/
def encodeFrame (frame : Frame) (limits : Limits) : Outcome (List UInt8) :=
  if limits.maxFrameBytes.toNat < frame.payload.length then
    fail .payloadTooLarge "frame payload exceeds the configured maximum frame size"
  else
    let total := Frame.headerBytes + frame.payload.length
    if limits.maxFrameBytes.toNat < total || 0xFFFFFFFF < total then
      fail .payloadTooLarge "frame exceeds the configured maximum frame size"
    else
      let header := List.replicate Frame.headerBytes 0
      let header := storeU32 header 0 Frame.magic
      let header := storeU16 header 4 protocolVersion
      let header := storeU16 header 6 (UInt16.ofNat Frame.headerBytes)
      let header := storeU16 header 8 frame.type.number
      let header := storeU16 header 10 frame.flags
      let header := storeU32 header 12 (UInt32.ofNat frame.payload.length)
      let header := storeU64 header 16 frame.correlation.value
      let header := storeU64 header 24 frame.epoch.value
      let header := storeU64 header 32 frame.workerBoot.value
      let header := storeU64 header 40 frame.sequence.value
      let header := storeU32 header 48 0
      let header := storeU64 header 56 0
      let checksum := crc32cExtend (crc32c header) frame.payload
      .ok (storeU32 header 52 checksum ++ frame.payload)

/-- The outcome of one incremental decoding step: more bytes are needed, the bytes
are refused, or a frame is there and takes so many bytes. -/
inductive DecodeResult where
  | complete (frame : Frame) (consumed : Nat)
  | needMoreData
  | failed (error : Error)
deriving DecidableEq

/-- The checks of `decode_frame` on the header alone: the type of the
message and the length of its payload. -/
def checkHeader (header : List UInt8) (limits : Limits) : Outcome (MessageType × UInt32) := do
  require (loadU32 header 0 == Frame.magic) .malformedFrame "frame magic does not match"
  let version := loadU16 header 4
  require (version == protocolVersion) .unsupportedVersion
    s!"frame protocol version {version.toNat} is not supported by this build"
  require ((loadU16 header 6).toNat == Frame.headerBytes) .malformedFrame
    "frame declares an unexpected header size"
  match MessageType.parse (loadU16 header 8) with
  | none => fail .invalidEnumValue "frame carries an unknown message type"
  | some type =>
    let payloadLength := loadU32 header 12
    -- The length is checked before anything is allocated for the payload.
    require (!(limits.maxFrameBytes < payloadLength
        || limits.maxFrameBytes.toNat < payloadLength.toNat + Frame.headerBytes)) .payloadTooLarge
      "frame declares a payload larger than the configured maximum frame size"
    require (loadU32 header 48 == 0 && loadU64 header 56 == 0) .malformedFrame
      "frame reserved words are not zero"
    return (type, payloadLength)

/-- `decode_frame`: one frame from the front of the buffer. -/
def decodeFrame (buffer : List UInt8) (limits : Limits) : DecodeResult :=
  if buffer.length < Frame.headerBytes then .needMoreData
  else
    let header := buffer.take Frame.headerBytes
    match checkHeader header limits with
    | .error e => .failed e
    | .ok (type, payloadLength) =>
      let total := Frame.headerBytes + payloadLength.toNat
      if buffer.length < total then .needMoreData
      else
        let payload := slice buffer Frame.headerBytes payloadLength.toNat
        let checksum := crc32cExtend (crc32c (storeU32 header 52 0)) payload
        if checksum != loadU32 header 52 then
          .failed ⟨.checksumMismatch, "frame checksum does not match"⟩
        else
          .complete
            { version := loadU16 header 4
              type
              flags := loadU16 header 10
              correlation := ⟨loadU64 header 16⟩
              epoch := ⟨loadU64 header 24⟩
              workerBoot := ⟨loadU64 header 32⟩
              sequence := ⟨loadU64 header 40⟩
              payload } total

end EnsembleFabric

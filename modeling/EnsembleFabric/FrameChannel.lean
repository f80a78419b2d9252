import EnsembleFabric.FrameCodec

/-!
# Channels of frames

A channel sends frames over a socket and receives them from one
(`transport.cpp`). The socket delivers bytes in order, in chunks of any
size up to that of the scratch buffer; a channel keeps what it has
received beyond the frame it returns.

> What is buffered and what is still to come are together the encodings
> of the frames that have not been returned.

The buffer never holds more than a part of one frame when the channel
reads from the socket, so the bound on the buffer is never exceeded. The
loop of `receive` is followed by induction on the chunks: a whole frame in
the buffer is returned (`receiveLoop_whole`), with a part of one the
channel reads on (`receiveLoop_part`), and `receiveLoop_next` puts the two
together. `stream_received` is the statement about successive calls.

Frames are all that this module assumes of the stream. What a channel makes
of a stream of arbitrary bytes is `Reception`.
-/

namespace EnsembleFabric

/-! ## Sockets -/

/-- The size of the buffer that is handed to `recv`. -/
def scratchBytes : Nat := 16 <<< 10

/-- The bytes of one successful `recv`. -/
structure Chunk where
  bytes : List UInt8
  nonempty : bytes ≠ []
  fits : bytes.length ≤ scratchBytes

/-- All bytes of a list of chunks. -/
def Chunk.joined (chunks : List Chunk) : List UInt8 := chunks.flatMap Chunk.bytes

@[simp] theorem Chunk.joined_nil : joined [] = [] := rfl

@[simp] theorem Chunk.joined_cons (chunk : Chunk) (chunks : List Chunk) :
    joined (chunk :: chunks) = chunk.bytes ++ joined chunks := rfl

/-- A connected socket: what it has sent, the chunks that `recv` is going
to return, and what it reports when they are used up. The peer and the network
are in the chunks: any list of them is possible. -/
structure Socket where
  outgoing : List UInt8 := []
  incoming : List Chunk := []
  ending : String := "the peer closed the connection"

/-! ## Channels -/

/-- A channel: the limits it keeps to, its socket, and the bytes it has received
beyond the frames it has returned. -/
structure FrameChannel where
  socket : Socket
  limits : Limits
  inbound : List UInt8 := []
  framesSent : Nat := 0
  framesReceived : Nat := 0
  closed : Bool := false

namespace FrameChannel

def send (channel : FrameChannel) (frame : Frame) : Status × FrameChannel :=
  match encodeFrame frame channel.limits with
  | .error e => (.error e, channel)
  | .ok encoded =>
    if channel.closed then (fail .transportError "the channel is closed", channel)
    else
      (okStatus,
        { channel with
          socket := { channel.socket with outgoing := channel.socket.outgoing ++ encoded }
          framesSent := channel.framesSent + 1 })

/-- The loop of `receive`: the outcome, with the bytes left in the buffer
and the chunks left in the socket. -/
def receiveLoop (limits : Limits) (ending : String) :
    List Chunk → List UInt8 → Outcome Frame × List UInt8 × List Chunk
  | incoming, inbound =>
    match decodeFrame inbound limits with
    | .complete frame consumed => (.ok frame, inbound.drop consumed, incoming)
    | .failed e => (.error e, inbound, incoming)
    | .needMoreData =>
      if limits.maxFrameBytes.toNat < inbound.length then
        (fail .payloadTooLarge "inbound buffer exceeded the maximum frame size", inbound, incoming)
      else
        match incoming with
        | [] => (fail .transportError ending, inbound, [])
        | chunk :: rest => receiveLoop limits ending rest (inbound ++ chunk.bytes)

def receive (channel : FrameChannel) : Outcome Frame × FrameChannel :=
  let (outcome, inbound, incoming) :=
    receiveLoop channel.limits channel.socket.ending channel.socket.incoming channel.inbound
  (outcome,
    { channel with
      socket := { channel.socket with incoming }
      inbound
      framesReceived := channel.framesReceived + if outcome.toBool then 1 else 0 })

/-- The outcomes of successive calls of `receive`. -/
def receives : Nat → FrameChannel → List (Outcome Frame)
  | 0, _ => []
  | calls + 1, channel => channel.receive.1 :: receives calls channel.receive.2

/-- Successive calls of `send`. -/
def sends (channel : FrameChannel) (frames : List Frame) : FrameChannel :=
  frames.foldl (fun channel frame => (channel.send frame).2) channel

end FrameChannel

/-! ## Receiving -/

/-- A frame as it is received: the version is the one of this build. -/
def Frame.received (frame : Frame) : Frame := { frame with version := protocolVersion }

section Receiving

open FrameChannel (receiveLoop)

variable {limits : Limits} {ending : String} {frame : Frame}

/-- A whole frame in the buffer is returned, and what follows it is kept. -/
theorem receiveLoop_whole (hfits : frame.Fits limits) (incoming : List Chunk) (rest : List UInt8) :
    receiveLoop limits ending incoming (frame.image ++ rest)
      = (.ok frame.received, rest, incoming) := by
  unfold receiveLoop
  rw [decodeFrame_image hfits]
  simp [Frame.received]

/-- With a part of a frame in the buffer the channel reads on: a part is
no larger than a frame may be. -/
theorem receiveLoop_part (hfits : frame.Fits limits) {part missing : List UInt8}
    (hpart : frame.image = part ++ missing) (hmissing : missing ≠ []) (chunk : Chunk)
    (incoming : List Chunk) :
    receiveLoop limits ending (chunk :: incoming) part
      = receiveLoop limits ending incoming (part ++ chunk.bytes) := by
  have hdecode : decodeFrame part limits = .needMoreData :=
    decodeFrame_prefix hfits ⟨missing, hpart.symm⟩ fun heq => hmissing (by simpa [heq] using hpart)
  have hroom : ¬ limits.maxFrameBytes.toNat < part.length := by
    have hlen := congrArg List.length hpart
    rw [Frame.image_length, List.length_append] at hlen
    rw [Frame.Fits] at hfits
    omega
  rw [receiveLoop, hdecode]
  simp only []
  rw [if_neg hroom]

/-- The next frame is returned once its bytes are there. -/
theorem receiveLoop_next (hfits : frame.Fits limits) {rest : List UInt8} {incoming : List Chunk}
    {inbound : List UInt8} (h : inbound ++ Chunk.joined incoming = frame.image ++ rest) :
    ∃ inbound' incoming', receiveLoop limits ending incoming inbound
        = (.ok frame.received, inbound', incoming')
      ∧ inbound' ++ Chunk.joined incoming' = rest := by
  induction incoming generalizing inbound with
  | nil =>
    rw [Chunk.joined_nil, List.append_nil] at h
    subst h
    exact ⟨rest, [], receiveLoop_whole hfits [] rest, List.append_nil rest⟩
  | cons chunk incoming ih =>
    obtain ⟨missing, hpart, hcoming⟩ | ⟨kept, hwhole, hrest⟩ := List.append_eq_append_iff.mp h
    · by_cases hmissing : missing = []
      · subst hmissing
        rw [List.append_nil] at hpart
        rw [← hpart, ← List.append_nil frame.image]
        exact ⟨[], chunk :: incoming, receiveLoop_whole hfits _ [], hcoming⟩
      · rw [receiveLoop_part hfits hpart hmissing]
        exact ih (by rw [List.append_assoc, ← Chunk.joined_cons, h])
    · rw [hwhole]
      exact ⟨kept, chunk :: incoming, receiveLoop_whole hfits _ kept, hrest.symm⟩

/-- An empty buffer and no more chunks: the end of the connection is reported. -/
theorem receiveLoop_ended :
    receiveLoop limits ending [] [] = (fail .transportError ending, [], []) := by
  rw [receiveLoop, decodeFrame, if_pos (by decide)]
  simp only []
  rw [if_neg (by simp)]

end Receiving

/-! ## Streams of frames -/

namespace FrameChannel

variable {channel : FrameChannel}

/-- The bytes that the channel has received or is going to receive. -/
def arriving (channel : FrameChannel) : List UInt8 :=
  channel.inbound ++ Chunk.joined channel.socket.incoming

theorem receive_next {frame : Frame} (hfits : frame.Fits channel.limits) {rest : List UInt8}
    (h : channel.arriving = frame.image ++ rest) :
    channel.receive.1 = .ok frame.received ∧ channel.receive.2.arriving = rest
      ∧ channel.receive.2.limits = channel.limits
      ∧ channel.receive.2.socket.ending = channel.socket.ending := by
  have hnext : ∃ inbound' incoming',
      receiveLoop channel.limits channel.socket.ending channel.socket.incoming channel.inbound
          = (.ok frame.received, inbound', incoming')
        ∧ inbound' ++ Chunk.joined incoming' = rest := receiveLoop_next hfits h
  obtain ⟨inbound', incoming', hloop, hrest⟩ := hnext
  rw [receive, hloop]
  exact ⟨rfl, hrest, rfl, rfl⟩

theorem receive_ended (h : channel.arriving = []) :
    channel.receive.1 = fail .transportError channel.socket.ending
      ∧ channel.receive.2.arriving = []
      ∧ channel.receive.2.socket.ending = channel.socket.ending := by
  obtain ⟨hinbound, hincoming⟩ := List.append_eq_nil_iff.mp h
  have hnone : channel.socket.incoming = [] := by
    cases hchunks : channel.socket.incoming with
    | nil => rfl
    | cons chunk chunks =>
      rw [hchunks, Chunk.joined_cons, List.append_eq_nil_iff] at hincoming
      exact absurd hincoming.1 chunk.nonempty
  rw [receive, hinbound, hnone, receiveLoop_ended]
  exact ⟨rfl, rfl, rfl⟩

theorem receives_ended (calls : Nat) (h : channel.arriving = []) :
    receives calls channel
      = List.replicate calls (fail .transportError channel.socket.ending) := by
  induction calls generalizing channel with
  | zero => rfl
  | succ calls ih =>
    obtain ⟨houtcome, hnone, hending⟩ := receive_ended h
    rw [receives, houtcome, ih hnone, hending, List.replicate_succ]

/-- As long as frames are coming they are returned in order, and after
the last of them the end of the connection is reported. -/
theorem receives_frames (calls : Nat) {frames : List Frame}
    (hfits : ∀ frame ∈ frames, frame.Fits channel.limits)
    (h : channel.arriving = frames.flatMap Frame.image) :
    receives calls channel
      = (frames.map fun frame => .ok frame.received).take calls
        ++ List.replicate (calls - frames.length) (fail .transportError channel.socket.ending) := by
  induction calls generalizing channel frames with
  | zero => simp [receives]
  | succ calls ih =>
    cases frames with
    | nil => exact receives_ended (calls + 1) h
    | cons frame frames =>
      obtain ⟨houtcome, hrest, hlimits, hending⟩ :=
        receive_next (hfits frame List.mem_cons_self) h
      rw [receives, houtcome, ih (fun f hf => hlimits ▸ hfits f (List.mem_cons_of_mem _ hf)) hrest,
        hending]
      simp

end FrameChannel

/-- The encodings of frames are their bytes, and the frames are of legal size. -/
theorem encodings_eq {limits : Limits} {frames : List Frame} {encoded : List (List UInt8)}
    (h : List.Forall₂ (fun frame bytes => encodeFrame frame limits = .ok bytes) frames encoded) :
    (∀ frame ∈ frames, frame.Fits limits) ∧ encoded.flatten = frames.flatMap Frame.image := by
  induction h with
  | nil => simp
  | cons hencode _ ih =>
    have hfits := encodeFrame_fits hencode
    rw [encodeFrame_eq hfits] at hencode
    obtain rfl := Except.ok.inj hencode
    rw [List.forall_mem_cons, List.flatten_cons, List.flatMap_cons, ih.2]
    exact ⟨⟨hfits, ih.1⟩, rfl⟩

/-- However the encodings of some frames are cut into chunks, the calls of
`receive` return the frames in order, nothing lost and nothing twice, and
the bound on the buffer is never exceeded. -/
theorem stream_received {limits : Limits} {frames : List Frame} {encoded : List (List UInt8)}
    (henc : List.Forall₂ (fun frame bytes => encodeFrame frame limits = .ok bytes) frames encoded)
    {chunks : List Chunk} (hcut : Chunk.joined chunks = encoded.flatten) (ending : String)
    (calls : Nat) :
    let channel : FrameChannel := { socket := { incoming := chunks, ending }, limits }
    channel.receives calls
        = (frames.map fun frame => .ok frame.received).take calls
          ++ List.replicate (calls - frames.length) (fail .transportError ending)
      ∧ ∀ outcome ∈ channel.receives calls,
          outcome ≠ fail .payloadTooLarge "inbound buffer exceeded the maximum frame size" := by
  intro channel
  obtain ⟨hfits, hbytes⟩ := encodings_eq henc
  have harriving : channel.arriving = frames.flatMap Frame.image := hcut.trans hbytes
  have hcalls := FrameChannel.receives_frames calls hfits harriving
  refine ⟨hcalls, fun outcome houtcome => ?_⟩
  rw [hcalls, List.mem_append] at houtcome
  obtain hframe | hended := houtcome
  · obtain ⟨frame, -, rfl⟩ := List.mem_map.mp (List.mem_of_mem_take hframe)
    exact fun h => by cases h
  · rw [List.eq_of_mem_replicate hended]
    exact fun h => by cases h

/-- Two frames in three chunks, none of which ends where a frame does. -/
theorem stream_received_two :
    let first : Frame := { version := protocolVersion, type := .hello, payload := [1, 2, 3] }
    let second : Frame := { version := protocolVersion, type := .goodbye, flags := 7 }
    let stream := first.image ++ second.image
    ∃ chunks : List Chunk,
      chunks.map Chunk.bytes = [stream.take 10, (stream.drop 10).take 90, stream.drop 100]
      ∧ FrameChannel.receives 3
          { socket := { incoming := chunks, ending := "closed" }, limits := {} }
        = [.ok first, .ok second, fail .transportError "closed"] := by
  intro first second stream
  have henc : List.Forall₂ (fun frame bytes => encodeFrame frame {} = .ok bytes) [first, second]
      [first.image, second.image] :=
    .cons (encodeFrame_eq (by decide)) (.cons (encodeFrame_eq (by decide)) .nil)
  let chunks : List Chunk :=
    [⟨stream.take 10, by decide +kernel, by decide +kernel⟩,
      ⟨(stream.drop 10).take 90, by decide +kernel, by decide +kernel⟩,
      ⟨stream.drop 100, by decide +kernel, by decide +kernel⟩]
  have hcut : Chunk.joined chunks = [first.image, second.image].flatten := by
    have hrest : (stream.drop 10).take 90 ++ stream.drop 100 = stream.drop 10 :=
      LittleEndian.slice_append_drop rfl
    rw [Chunk.joined_cons, Chunk.joined_cons, Chunk.joined_cons, Chunk.joined_nil,
      List.append_nil, hrest, List.take_append_drop, List.flatten_cons, List.flatten_singleton]
  exact ⟨chunks, rfl, (stream_received henc hcut "closed" 3).1⟩

/-! ## Sending -/

namespace FrameChannel

/-- An open channel puts the encodings of the frames on the wire, one after another. -/
theorem sends_outgoing {channel : FrameChannel} (hopen : channel.closed = false)
    {frames : List Frame} (hfits : ∀ frame ∈ frames, frame.Fits channel.limits) :
    (channel.sends frames).socket.outgoing
        = channel.socket.outgoing ++ frames.flatMap Frame.image
      ∧ (channel.sends frames).framesSent = channel.framesSent + frames.length := by
  induction frames generalizing channel with
  | nil => simp [sends]
  | cons frame frames ih =>
    have hsend : (channel.send frame).2
        = { channel with
            socket := { channel.socket with outgoing := channel.socket.outgoing ++ frame.image }
            framesSent := channel.framesSent + 1 } := by
      rw [send, encodeFrame_eq (hfits frame List.mem_cons_self)]
      simp [hopen]
    have hstill : (channel.send frame).2.closed = false := by rw [hsend, hopen]
    obtain ⟨houtgoing, hcount⟩ := ih hstill
      (fun f hf => by rw [hsend]; exact hfits f (List.mem_cons_of_mem _ hf))
    have hstep : channel.sends (frame :: frames) = (channel.send frame).2.sends frames := rfl
    rw [hstep, houtgoing, hcount, hsend]
    simp [Nat.add_assoc, Nat.add_comm 1]

end FrameChannel

end EnsembleFabric

import EnsembleFabric.FrameChannel
import EnsembleFabric.Library.Incremental

/-!
# Reception

A peer may send any bytes, and the socket cuts them wherever it likes. What
`receive` makes of them depends on the bytes alone: it returns the frames at
their front, in order. What is left when there are no more frames is either
not a frame, and every further call says so, or the part of one, and the
calls report the end of the connection (`stream_read`).

The bound on the inbound buffer is never exceeded: bytes that could still
become a frame are no more than a frame may have, as long as the limits
leave room for a header (`needMoreData_bound`). Under limits without that room
no frame is ever returned, and `receive` may also report the bound itself.

`decode_frame` is an incremental decoder in the sense of the library
(`readFrame`): its verdict on some bytes is not changed by the bytes that
follow, unless it has asked for more. So the cuts make no difference
(`receives_eq`), and what remains is a statement about one run of bytes:
any bytes are some frames and what begins with no frame (`exists_frames`).
-/

namespace EnsembleFabric

open Incremental (Verdict Stable pull pull_eq pulls pulls_eq reads left)

/-! ## Frames one by one -/

def DecodeResult.verdict : DecodeResult → Verdict Frame Error
  | .complete frame consumed => .complete frame consumed
  | .failed error => .failed error
  | .needMoreData => .needsMore

/-- `decode_frame` as an incremental decoder. -/
def readFrame (limits : Limits) (input : List UInt8) : Verdict Frame Error :=
  (decodeFrame input limits).verdict

section Decoding

variable {limits : Limits} {input : List UInt8}

theorem readFrame_complete {frame : Frame} {consumed : Nat} :
    readFrame limits input = .complete frame consumed
      ↔ decodeFrame input limits = .complete frame consumed := by
  rw [readFrame]
  cases decodeFrame input limits <;> simp [DecodeResult.verdict]

theorem readFrame_failed {error : Error} :
    readFrame limits input = .failed error ↔ decodeFrame input limits = .failed error := by
  rw [readFrame]
  cases decodeFrame input limits <;> simp [DecodeResult.verdict]

/-- What is read is the image of a frame and what follows it. -/
theorem decodeFrame_front {frame : Frame} {consumed : Nat}
    (h : decodeFrame input limits = .complete frame consumed) :
    frame.Fits limits ∧ frame.received = frame ∧ consumed = frame.image.length
      ∧ input = frame.image ++ input.drop consumed := by
  obtain ⟨hfits, himage, hle⟩ := decodeFrame_canonical h
  have hinput : input = frame.image ++ input.drop consumed := by
    rw [himage, List.take_append_drop]
  have hagain := decodeFrame_image hfits (input.drop consumed)
  rw [← hinput, h] at hagain
  obtain ⟨hframe, hconsumed⟩ := DecodeResult.complete.inj hagain
  exact ⟨hfits, hframe.symm, hconsumed, hinput⟩

/-- The checks look at a header and at no more than the payload it declares. -/
theorem decodeFrame_failed {error : Error} (h : decodeFrame input limits = .failed error)
    (rest : List UInt8) : decodeFrame (input ++ rest) limits = .failed error := by
  rw [decodeFrame] at h ⊢
  split at h
  · cases h
  · rename_i hlong
    have hheader : (input ++ rest).take Frame.headerBytes = input.take Frame.headerBytes :=
      List.take_append_of_le_length (by omega)
    rw [if_neg (by rw [List.length_append]; omega), hheader]
    simp only [] at h ⊢
    cases hcheck : checkHeader (input.take Frame.headerBytes) limits with
    | error e =>
      rw [hcheck] at h
      exact h
    | ok read =>
      rw [hcheck] at h
      simp only [] at h ⊢
      split at h
      · cases h
      · rename_i hwhole
        rw [if_neg (by rw [List.length_append]; omega),
          LittleEndian.slice_append_left (by omega)]
        exact h

theorem readFrame_stable (limits : Limits) : Stable (readFrame limits) where
  complete := by
    intro input frame consumed h
    have hread := readFrame_complete.mp h
    obtain ⟨hfits, hreceived, hconsumed, hinput⟩ := decodeFrame_front hread
    refine ⟨(decodeFrame_canonical hread).2.2, fun rest => readFrame_complete.mpr ?_⟩
    have hagain := decodeFrame_image hfits (input.drop consumed ++ rest)
    rw [← List.append_assoc, ← hinput] at hagain
    rw [hagain, hconsumed]
    exact congrArg (DecodeResult.complete · _) hreceived
  failed := fun h rest => readFrame_failed.mpr (decodeFrame_failed (readFrame_failed.mp h) rest)

/-- Bytes that could still become a frame are no more than a frame may have. -/
theorem needMoreData_bound (hroom : Frame.headerBytes ≤ limits.maxFrameBytes.toNat)
    (h : decodeFrame input limits = .needMoreData) :
    input.length ≤ limits.maxFrameBytes.toNat := by
  rw [decodeFrame] at h
  split at h
  · omega
  · simp only at h
    split at h
    · cases h
    · rename_i type payloadLength hcheck
      obtain ⟨-, -, -, -, -, hfits, -, -⟩ := checkHeader_eq_ok hcheck
      split at h
      · omega
      · split at h <;> cases h

end Decoding

/-! ## The loop of `receive` -/

namespace FrameChannel

variable {limits : Limits}

/-- What a call reports, once there is nothing more to come. -/
def report (ending : String) (outcome : Option (Outcome Frame)) : Outcome Frame :=
  outcome.getD (fail .transportError ending)

theorem receiveLoop_eq (hroom : Frame.headerBytes ≤ limits.maxFrameBytes.toNat)
    (ending : String) (incoming : List Chunk) (inbound : List UInt8) :
    receiveLoop limits ending incoming inbound
      = (report ending (pull (readFrame limits) Chunk.bytes incoming inbound).1,
          (pull (readFrame limits) Chunk.bytes incoming inbound).2) := by
  induction incoming generalizing inbound with
  | nil =>
    rw [receiveLoop, pull, readFrame]
    cases hread : decodeFrame inbound limits with
    | complete frame consumed => rfl
    | failed error => rfl
    | needMoreData =>
      have hbound := needMoreData_bound hroom hread
      simp only [DecodeResult.verdict]
      rw [if_neg (by omega)]
      rfl
  | cons chunk incoming ih =>
    rw [receiveLoop, pull, readFrame]
    cases hread : decodeFrame inbound limits with
    | complete frame consumed => rfl
    | failed error => rfl
    | needMoreData =>
      have hbound := needMoreData_bound hroom hread
      simp only [DecodeResult.verdict]
      rw [if_neg (by omega)]
      exact ih (inbound ++ chunk.bytes)

/-- The outcomes depend on the bytes that arrive alone. -/
theorem receives_eq (channel : FrameChannel)
    (hroom : Frame.headerBytes ≤ channel.limits.maxFrameBytes.toNat) (calls : Nat) :
    channel.receives calls
      = (reads (readFrame channel.limits) calls channel.arriving).map
          (report channel.socket.ending) := by
  rw [arriving, Chunk.joined, ← pulls_eq (readFrame_stable channel.limits)]
  induction calls generalizing channel with
  | zero => rfl
  | succ calls ih =>
    have hloop := receiveLoop_eq hroom channel.socket.ending channel.socket.incoming
      channel.inbound
    rw [receives, pulls, List.map_cons]
    have hnext : channel.receive.2.limits = channel.limits := rfl
    rw [ih channel.receive.2 (by rw [hnext]; exact hroom)]
    simp only [receive, hloop]

end FrameChannel

/-! ## Any stream -/

section Stream

variable {limits : Limits}

/-- The bytes begin with no frame. -/
def Frameless (limits : Limits) (rest : List UInt8) : Prop :=
  ∀ frame consumed, decodeFrame rest limits ≠ .complete frame consumed

/-- What every call reports from then on. -/
def lastReport (limits : Limits) (ending : String) (rest : List UInt8) : Outcome Frame :=
  match decodeFrame rest limits with
  | .failed error => .error error
  | _ => fail .transportError ending

/-- Any bytes are some frames and what begins with no frame. -/
theorem exists_frames (limits : Limits) (input : List UInt8) :
    ∃ (frames : List Frame) (rest : List UInt8), input = frames.flatMap Frame.image ++ rest
      ∧ (∀ frame ∈ frames, frame.Fits limits ∧ frame.received = frame)
      ∧ Frameless limits rest := by
  induction hsize : input.length using Nat.strong_induction_on generalizing input with
  | h size ih =>
    by_cases hfront : ∃ frame consumed, decodeFrame input limits = .complete frame consumed
    · obtain ⟨frame, consumed, hread⟩ := hfront
      obtain ⟨hfits, hreceived, hconsumed, hinput⟩ := decodeFrame_front hread
      have hshorter : (input.drop consumed).length < size := by
        have himage := frame.image_length
        have hlength := congrArg List.length hinput
        rw [List.length_append] at hlength
        rw [Frame.headerBytes] at himage
        omega
      obtain ⟨frames, rest, hrest, hframes, hframeless⟩ := ih _ hshorter _ rfl
      refine ⟨frame :: frames, rest, ?_, ?_, hframeless⟩
      · rw [List.flatMap_cons, List.append_assoc, ← hrest, ← hinput]
      · exact List.forall_mem_cons.mpr ⟨⟨hfits, hreceived⟩, hframes⟩
    · refine ⟨[], input, rfl, List.forall_mem_nil _, fun frame consumed hread => ?_⟩
      exact hfront ⟨frame, consumed, hread⟩

theorem reads_frameless {rest : List UInt8} (h : Frameless limits rest) (ending : String)
    (calls : Nat) :
    (reads (readFrame limits) calls rest).map (FrameChannel.report ending)
      = List.replicate calls (lastReport limits ending rest) := by
  induction calls with
  | zero => rfl
  | succ calls ih =>
    rw [reads, List.map_cons, List.replicate_succ]
    have hleft : left (readFrame limits) rest = rest := by
      rw [left]
      split
      · rename_i frame consumed hread
        exact absurd (readFrame_complete.mp hread) (h frame consumed)
      · rfl
    rw [hleft, ih, lastReport, readFrame]
    cases hread : decodeFrame rest limits with
    | complete frame consumed => exact absurd hread (h frame consumed)
    | failed error => rfl
    | needMoreData => rfl

theorem reads_frames {frames : List Frame} {rest : List UInt8}
    (hframes : ∀ frame ∈ frames, frame.Fits limits ∧ frame.received = frame)
    (hrest : Frameless limits rest) (ending : String) (calls : Nat) :
    (reads (readFrame limits) calls (frames.flatMap Frame.image ++ rest)).map
        (FrameChannel.report ending)
      = (frames.map .ok).take calls
        ++ List.replicate (calls - frames.length) (lastReport limits ending rest) := by
  induction frames generalizing calls with
  | nil =>
    rw [List.flatMap_nil, List.nil_append, List.map_nil, List.take_nil, List.nil_append,
      List.length_nil, Nat.sub_zero]
    exact reads_frameless hrest ending calls
  | cons frame frames ih =>
    obtain ⟨⟨hfits, hreceived⟩, hframes⟩ := List.forall_mem_cons.mp hframes
    cases calls with
    | zero => simp [reads]
    | succ calls =>
      have hread : readFrame limits (frame.image ++ (frames.flatMap Frame.image ++ rest))
          = .complete frame frame.image.length := by
        refine readFrame_complete.mpr ((decodeFrame_image hfits _).trans ?_)
        exact congrArg (DecodeResult.complete · _) hreceived
      rw [List.flatMap_cons, List.append_assoc, reads, left, hread, List.map_cons]
      simp only
      rw [List.drop_left, ih hframes, List.map_cons, List.take_succ_cons, List.length_cons,
        Nat.add_sub_add_right]
      rfl

end Stream

namespace FrameChannel

/-- A header alone is too large for a frame: no call returns one. -/
theorem receiveLoop_roomless {limits : Limits}
    (hnone : limits.maxFrameBytes.toNat < Frame.headerBytes) (ending : String)
    (incoming : List Chunk) (inbound : List UInt8) :
    (receiveLoop limits ending incoming inbound).1.toOption = none := by
  have hnever : ∀ {inbound frame consumed},
      decodeFrame inbound limits ≠ .complete frame consumed := by
    intro inbound frame consumed hread
    have hfits : Frame.headerBytes + frame.payload.length ≤ limits.maxFrameBytes.toNat :=
      (decodeFrame_front hread).1
    omega
  induction incoming generalizing inbound with
  | nil =>
    rw [receiveLoop]
    split
    · exact absurd ‹_› hnever
    · rfl
    · split <;> rfl
  | cons chunk incoming ih =>
    rw [receiveLoop]
    split
    · exact absurd ‹_› hnever
    · rfl
    · split
      · rfl
      · exact ih (inbound ++ chunk.bytes)

theorem receives_roomless (channel : FrameChannel)
    (hnone : channel.limits.maxFrameBytes.toNat < Frame.headerBytes) (calls : Nat) :
    (channel.receives calls).filterMap Except.toOption = [] := by
  induction calls generalizing channel with
  | zero => rfl
  | succ calls ih =>
    have hfirst : channel.receive.1.toOption = none := receiveLoop_roomless hnone ..
    rw [receives, List.filterMap_cons_none hfirst]
    exact ih channel.receive.2 hnone

end FrameChannel

theorem lastReport_none {limits : Limits} {ending : String} {rest : List UInt8} :
    (lastReport limits ending rest).toOption = none := by
  rw [lastReport]
  split <;> rfl

theorem frames_of_reports {frames : List Frame} {report : Outcome Frame}
    (hreport : report.toOption = none) (calls count : Nat) :
    ((frames.map Except.ok).take calls ++ List.replicate count report).filterMap Except.toOption
      = frames.take calls := by
  have hnone : (List.replicate count report).filterMap Except.toOption = [] :=
    List.filterMap_eq_nil_iff.mpr fun outcome houtcome =>
      (List.eq_of_mem_replicate houtcome).symm ▸ hreport
  rw [List.filterMap_append, hnone, List.append_nil, ← List.map_take, List.filterMap_map]
  exact List.filterMap_some

/-- Whatever bytes arrive and however they are cut, the frames that the calls
of `receive` return are the frames at their front, in order. If the limits have
room for a header, a call only reads on while the buffer is within its bound,
and from then on every call reports what is wrong with the rest, or the end of
the connection if nothing is. -/
theorem stream_read (channel : FrameChannel) :
    ∃ (frames : List Frame) (rest : List UInt8),
      channel.arriving = frames.flatMap Frame.image ++ rest
      ∧ (∀ frame ∈ frames, frame.Fits channel.limits)
      ∧ Frameless channel.limits rest
      ∧ (∀ calls, (channel.receives calls).filterMap Except.toOption = frames.take calls)
      ∧ (Frame.headerBytes ≤ channel.limits.maxFrameBytes.toNat →
        (∀ inbound, decodeFrame inbound channel.limits = .needMoreData →
          inbound.length ≤ channel.limits.maxFrameBytes.toNat)
        ∧ ∀ calls, channel.receives calls
          = (frames.map .ok).take calls
            ++ List.replicate (calls - frames.length)
              (lastReport channel.limits channel.socket.ending rest)) := by
  obtain ⟨frames, rest, harriving, hframes, hrest⟩ :=
    exists_frames channel.limits channel.arriving
  have hreceives : Frame.headerBytes ≤ channel.limits.maxFrameBytes.toNat → ∀ calls,
      channel.receives calls
        = (frames.map .ok).take calls
          ++ List.replicate (calls - frames.length)
            (lastReport channel.limits channel.socket.ending rest) := by
    intro hroom calls
    rw [FrameChannel.receives_eq channel hroom, harriving]
    exact reads_frames hframes hrest channel.socket.ending calls
  refine ⟨frames, rest, harriving, fun frame hframe => (hframes frame hframe).1, hrest,
    fun calls => ?_, fun hroom => ⟨fun inbound => needMoreData_bound hroom, hreceives hroom⟩⟩
  by_cases hroom : Frame.headerBytes ≤ channel.limits.maxFrameBytes.toNat
  · rw [hreceives hroom]
    exact frames_of_reports lastReport_none ..
  · have hnone : frames = [] := by
      refine List.eq_nil_iff_forall_not_mem.mpr fun frame hframe => ?_
      have hfits : Frame.headerBytes + frame.payload.length
          ≤ channel.limits.maxFrameBytes.toNat := (hframes frame hframe).1
      omega
    rw [hnone, List.take_nil]
    exact FrameChannel.receives_roomless channel (Nat.lt_of_not_le hroom) calls

/-- A frame, a header of zeros behind it, and a cut inside each. -/
theorem stream_read_zeros :
    let frame : Frame := { version := protocolVersion, type := .hello, payload := [1, 2, 3] }
    let stream := frame.image ++ List.replicate 64 0
    ∃ channel : FrameChannel, channel.arriving = stream ∧ channel.socket.incoming.length = 3
      ∧ ∃ (frames : List Frame) (rest : List UInt8),
        channel.arriving = frames.flatMap Frame.image ++ rest
        ∧ (∀ frame ∈ frames, frame.Fits channel.limits)
        ∧ Frameless channel.limits rest
        ∧ (∀ calls, (channel.receives calls).filterMap Except.toOption = frames.take calls)
        ∧ ∀ calls, channel.receives calls
            = (frames.map .ok).take calls
              ++ List.replicate (calls - frames.length)
                (lastReport channel.limits channel.socket.ending rest) := by
  intro frame stream
  let chunks : List Chunk :=
    [⟨stream.take 10, by decide +kernel, by decide +kernel⟩,
      ⟨(stream.drop 10).take 90, by decide +kernel, by decide +kernel⟩,
      ⟨stream.drop 100, by decide +kernel, by decide +kernel⟩]
  have hcut : Chunk.joined chunks = stream := by
    have hrest : (stream.drop 10).take 90 ++ stream.drop 100 = stream.drop 10 :=
      LittleEndian.slice_append_drop rfl
    rw [Chunk.joined_cons, Chunk.joined_cons, Chunk.joined_cons, Chunk.joined_nil,
      List.append_nil, hrest, List.take_append_drop]
  let channel : FrameChannel := { socket := { incoming := chunks }, limits := {} }
  have hroom : Frame.headerBytes ≤ channel.limits.maxFrameBytes.toNat := by decide
  have harriving : channel.arriving = stream := by
    rw [FrameChannel.arriving, List.nil_append]
    exact hcut
  obtain ⟨frames, rest, hstream, hfits, hrest, hframes, hreports⟩ := stream_read channel
  exact ⟨channel, harriving, rfl, frames, rest, hstream, hfits, hrest, hframes,
    (hreports hroom).2⟩

end EnsembleFabric

import EnsembleFabric.Frame
import EnsembleFabric.Library.Checks

/-!
# Frames are read back as they were written

The header of a frame is the concatenation of its words. Read in one
direction this gives the round trip: every word is found at its place.
Read in the other it gives canonicity: the reader checks or returns every
word of the header, so the bytes it has read are the ones the frame is
written in.

`Frame.image` is the bytes of a frame as one concatenation. The stores of
`encodeFrame` are compared with it (`stores_eq_header`), and so are the
loads of `decodeFrame` (`header_words`); nothing behind this module looks
at an offset again.

> frame_codec : a frame of legal size is written, and read back whatever
> follows it; a part of it is incomplete, never malformed; and what is read
> is what is written for the frame that is returned.

That a part is never refused (`decodeFrame_prefix`) is what a channel
needs that receives a frame in pieces: a refusal is final.
-/

namespace EnsembleFabric

open Checks
open LittleEndian (bytes word slice overwrite)

/-! ## Words -/

section Words

variable {first last : List UInt8} {offset : Nat}

theorem loadU16_bytes (value : UInt16) : UInt16.ofNat (word (bytes 2 value.toNat)) = value := by
  rw [LittleEndian.word_bytes_of_lt value.toNat_lt, UInt16.ofNat_toNat]

theorem loadU32_bytes (value : UInt32) : UInt32.ofNat (word (bytes 4 value.toNat)) = value := by
  rw [LittleEndian.word_bytes_of_lt value.toNat_lt, UInt32.ofNat_toNat]

theorem loadU64_bytes (value : UInt64) : UInt64.ofNat (word (bytes 8 value.toNat)) = value := by
  rw [LittleEndian.word_bytes_of_lt value.toNat_lt, UInt64.ofNat_toNat]

theorem bytes_loadU16 {input : List UInt8} (h : offset + 2 ≤ input.length) :
    bytes 2 (loadU16 input offset).toNat = slice input offset 2 := by
  have hlen := LittleEndian.slice_length h
  have hlt : word (slice input offset 2) < 2 ^ 16 := by
    simpa [hlen] using LittleEndian.word_lt (slice input offset 2)
  rw [loadU16, UInt16.toNat_ofNat_of_lt' hlt, LittleEndian.bytes_word_of_length hlen]

theorem bytes_loadU32 {input : List UInt8} (h : offset + 4 ≤ input.length) :
    bytes 4 (loadU32 input offset).toNat = slice input offset 4 := by
  have hlen := LittleEndian.slice_length h
  have hlt : word (slice input offset 4) < 2 ^ 32 := by
    simpa [hlen] using LittleEndian.word_lt (slice input offset 4)
  rw [loadU32, UInt32.toNat_ofNat_of_lt' hlt, LittleEndian.bytes_word_of_length hlen]

theorem bytes_loadU64 {input : List UInt8} (h : offset + 8 ≤ input.length) :
    bytes 8 (loadU64 input offset).toNat = slice input offset 8 := by
  have hlen := LittleEndian.slice_length h
  have hlt : word (slice input offset 8) < 2 ^ 64 := by
    simpa [hlen] using LittleEndian.word_lt (slice input offset 8)
  rw [loadU64, UInt64.toNat_ofNat_of_lt' hlt, LittleEndian.bytes_word_of_length hlen]

end Words

/-! ## The header -/

namespace Frame

/-- The words before the checksum. -/
def front (frame : Frame) : List UInt8 :=
  bytes 4 magic.toNat ++ (bytes 2 protocolVersion.toNat ++ (bytes 2 headerBytes
    ++ (bytes 2 frame.type.number.toNat ++ (bytes 2 frame.flags.toNat
    ++ (bytes 4 frame.payload.length ++ (bytes 8 frame.correlation.value.toNat
    ++ (bytes 8 frame.epoch.value.toNat ++ (bytes 8 frame.workerBoot.value.toNat
    ++ (bytes 8 frame.sequence.value.toNat ++ bytes 4 0)))))))))

/-- The words of a header, in order. -/
def header (frame : Frame) (checksum : UInt32) : List UInt8 :=
  frame.front ++ bytes 4 checksum.toNat ++ bytes 8 0

/-- The checksum of a frame, over its header with a blank checksum and its payload. -/
def checksum (frame : Frame) : UInt32 :=
  crc32cExtend (crc32c (frame.header 0)) frame.payload

/-- The bytes of a frame, as one concatenation. The checksum in it covers the rest
of them. -/
def image (frame : Frame) : List UInt8 := frame.header frame.checksum ++ frame.payload

/-- The size of the frame is within the limits. -/
def Fits (frame : Frame) (limits : Limits) : Prop :=
  headerBytes + frame.payload.length ≤ limits.maxFrameBytes.toNat

instance (frame : Frame) (limits : Limits) : Decidable (frame.Fits limits) :=
  inferInstanceAs (Decidable (_ ≤ _))

@[simp] theorem front_length (frame : Frame) : frame.front.length = 52 := by
  simp [front]

@[simp] theorem header_length (frame : Frame) (checksum : UInt32) :
    (frame.header checksum).length = headerBytes := by
  simp [header, headerBytes]

@[simp] theorem image_length (frame : Frame) :
    frame.image.length = headerBytes + frame.payload.length := by
  rw [image, List.length_append, header_length]

theorem store_checksum (frame : Frame) (old new : UInt32) :
    storeU32 (frame.header old) 52 new = frame.header new := by
  rw [storeU32, header, LittleEndian.overwrite_middle frame.front_length (by simp), header]

end Frame

/-! ## Writing -/

section Blank

variable {written : List UInt8} {offset blank : Nat}

theorem storeU16_blank (value : UInt16) (hoffset : written.length = offset) (hroom : 2 ≤ blank) :
    storeU16 (written ++ List.replicate blank 0) offset value
      = written ++ bytes 2 value.toNat ++ List.replicate (blank - 2) 0 := by
  rw [storeU16, LittleEndian.overwrite_blank 0 hoffset (by simpa using hroom),
    LittleEndian.bytes_length]

theorem storeU32_blank (value : UInt32) (hoffset : written.length = offset) (hroom : 4 ≤ blank) :
    storeU32 (written ++ List.replicate blank 0) offset value
      = written ++ bytes 4 value.toNat ++ List.replicate (blank - 4) 0 := by
  rw [storeU32, LittleEndian.overwrite_blank 0 hoffset (by simpa using hroom),
    LittleEndian.bytes_length]

theorem storeU64_blank (value : UInt64) (hoffset : written.length = offset) (hroom : 8 ≤ blank) :
    storeU64 (written ++ List.replicate blank 0) offset value
      = written ++ bytes 8 value.toNat ++ List.replicate (blank - 8) 0 := by
  rw [storeU64, LittleEndian.overwrite_blank 0 hoffset (by simpa using hroom),
    LittleEndian.bytes_length]

end Blank

/-- The stores of `encode_frame` put the words of the header one after another. -/
theorem stores_eq_header (frame : Frame) (hsize : frame.payload.length < 2 ^ 32) :
    storeU64 (storeU32 (storeU64 (storeU64 (storeU64 (storeU64 (storeU32 (storeU16 (storeU16
      (storeU16 (storeU16 (storeU32 (List.replicate Frame.headerBytes 0) 0 Frame.magic) 4
        protocolVersion) 6 (UInt16.ofNat Frame.headerBytes)) 8 frame.type.number) 10 frame.flags)
        12 (UInt32.ofNat frame.payload.length)) 16 frame.correlation.value) 24 frame.epoch.value)
        32 frame.workerBoot.value) 40 frame.sequence.value) 48 0) 56 0
      = frame.header 0 := by
  have hblank : ∀ n : Nat, List.replicate (4 + n) (0 : UInt8) = bytes 4 0 ++ List.replicate n 0 :=
    fun n => List.replicate_add 4 n 0
  rw [show List.replicate Frame.headerBytes (0 : UInt8) = [] ++ List.replicate 64 0 from rfl]
  rw [storeU32_blank _ (by simp) (by omega), storeU16_blank _ (by simp) (by omega),
    storeU16_blank _ (by simp) (by omega), storeU16_blank _ (by simp) (by omega),
    storeU16_blank _ (by simp) (by omega), storeU32_blank _ (by simp) (by omega),
    storeU64_blank _ (by simp) (by omega), storeU64_blank _ (by simp) (by omega),
    storeU64_blank _ (by simp) (by omega), storeU64_blank _ (by simp) (by omega),
    storeU32_blank _ (by simp) (by omega)]
  rw [hblank 8, ← List.append_assoc, storeU64_blank _ (by simp) (by omega)]
  simp only [Frame.header, Frame.front, UInt32.toNat_ofNat_of_lt' hsize, List.append_assoc]
  rfl

theorem encodeFrame_eq {frame : Frame} {limits : Limits} (h : frame.Fits limits) :
    encodeFrame frame limits = .ok frame.image := by
  have hfits : Frame.headerBytes + frame.payload.length ≤ limits.maxFrameBytes.toNat := h
  have hmax : limits.maxFrameBytes.toNat < 2 ^ 32 := limits.maxFrameBytes.toNat_lt
  rw [encodeFrame, if_neg (by omega)]
  simp only []
  rw [if_neg (by simp only [Bool.or_eq_true, decide_eq_true_eq]; omega),
    stores_eq_header frame (by omega), Frame.store_checksum]
  rfl

/-- A frame of another size is refused. -/
theorem encodeFrame_fits {frame : Frame} {limits : Limits} {encoded : List UInt8}
    (h : encodeFrame frame limits = .ok encoded) : frame.Fits limits := by
  rw [encodeFrame] at h
  split at h
  · cases h
  · simp only [] at h
    split at h
    · cases h
    · rename_i hsize
      simp only [Bool.or_eq_true, decide_eq_true_eq] at hsize
      rw [Frame.Fits]
      omega

/-! ## Reading -/

/-- Every word of a header is found at its place. -/
theorem Frame.header_words (frame : Frame) (c : UInt32) :
    slice (frame.header c) 0 4 = bytes 4 magic.toNat
      ∧ slice (frame.header c) 4 2 = bytes 2 protocolVersion.toNat
      ∧ slice (frame.header c) 6 2 = bytes 2 headerBytes
      ∧ slice (frame.header c) 8 2 = bytes 2 frame.type.number.toNat
      ∧ slice (frame.header c) 10 2 = bytes 2 frame.flags.toNat
      ∧ slice (frame.header c) 12 4 = bytes 4 frame.payload.length
      ∧ slice (frame.header c) 16 8 = bytes 8 frame.correlation.value.toNat
      ∧ slice (frame.header c) 24 8 = bytes 8 frame.epoch.value.toNat
      ∧ slice (frame.header c) 32 8 = bytes 8 frame.workerBoot.value.toNat
      ∧ slice (frame.header c) 40 8 = bytes 8 frame.sequence.value.toNat
      ∧ slice (frame.header c) 48 4 = bytes 4 0
      ∧ slice (frame.header c) 52 4 = bytes 4 c.toNat
      ∧ slice (frame.header c) 56 8 = bytes 8 0 := by
  simp (disch := simp) only [header, front, List.append_assoc, LittleEndian.slice_append_right,
    LittleEndian.slice_append_left, LittleEndian.slice_whole, LittleEndian.bytes_length,
    Nat.reduceSub, and_self]

theorem checkHeader_header {frame : Frame} {limits : Limits} (h : frame.Fits limits)
    (c : UInt32) :
    checkHeader (frame.header c) limits = .ok (frame.type, UInt32.ofNat frame.payload.length) := by
  have hfits : Frame.headerBytes + frame.payload.length ≤ limits.maxFrameBytes.toNat := h
  have hmax : limits.maxFrameBytes.toNat < 2 ^ 32 := limits.maxFrameBytes.toNat_lt
  have hsize : frame.payload.length < 2 ^ 32 := by omega
  obtain ⟨hmagic, hversion, hbytes, htype, -, hlength, -, -, -, -, hreserved, -, htrailer⟩ :=
    frame.header_words c
  have hmagic : loadU32 (frame.header c) 0 = Frame.magic := by
    rw [loadU32, hmagic, loadU32_bytes]
  have hversion : loadU16 (frame.header c) 4 = protocolVersion := by
    rw [loadU16, hversion, loadU16_bytes]
  have hbytes : (loadU16 (frame.header c) 6).toNat = Frame.headerBytes := by
    rw [loadU16, hbytes]
    rfl
  have htype : loadU16 (frame.header c) 8 = frame.type.number := by
    rw [loadU16, htype, loadU16_bytes]
  have hlength : loadU32 (frame.header c) 12 = UInt32.ofNat frame.payload.length := by
    rw [loadU32, hlength, LittleEndian.word_bytes_of_lt hsize]
  have hreserved : loadU32 (frame.header c) 48 = 0 := by
    rw [loadU32, hreserved]
    exact loadU32_bytes 0
  have htrailer : loadU64 (frame.header c) 56 = 0 := by
    rw [loadU64, htrailer]
    exact loadU64_bytes 0
  have hroom : (!(limits.maxFrameBytes < UInt32.ofNat frame.payload.length
      || limits.maxFrameBytes.toNat
        < (UInt32.ofNat frame.payload.length).toNat + Frame.headerBytes)) = true := by
    simp only [UInt32.lt_iff_toNat_lt, UInt32.toNat_ofNat_of_lt' hsize, Bool.not_eq_true',
      Bool.or_eq_false_iff, decide_eq_false_iff_not]
    omega
  simp only [checkHeader, hmagic, hversion, hbytes, htype, MessageType.parse_number, hlength,
    hreserved, htrailer, hroom, beq_self_eq_true, Bool.and_self, require, if_true]
  rfl

/-- A buffer that starts with the header of a frame gets past the checks of the header. -/
theorem decodeFrame_header {frame : Frame} {limits : Limits} (h : frame.Fits limits)
    {buffer : List UInt8} {c : UInt32} (hheader : buffer.take Frame.headerBytes = frame.header c) :
    decodeFrame buffer limits
      = if buffer.length < Frame.headerBytes + frame.payload.length then .needMoreData
        else
          let payload := slice buffer Frame.headerBytes frame.payload.length
          if crc32cExtend (crc32c (frame.header 0)) payload != c then
            .failed ⟨.checksumMismatch, "frame checksum does not match"⟩
          else
            .complete { frame with version := protocolVersion, payload }
              (Frame.headerBytes + frame.payload.length) := by
  have hfits : Frame.headerBytes + frame.payload.length ≤ limits.maxFrameBytes.toNat := h
  have hmax : limits.maxFrameBytes.toNat < 2 ^ 32 := limits.maxFrameBytes.toNat_lt
  have hsize : frame.payload.length < 2 ^ 32 := by omega
  have hlong : ¬ buffer.length < Frame.headerBytes := by
    have hlen := congrArg List.length hheader
    rw [List.length_take, Frame.header_length] at hlen
    omega
  obtain ⟨-, hversion, -, -, hflags, -, hcorrelation, hepoch, hboot, hsequence, -, hchecksum, -⟩ :=
    frame.header_words c
  rw [decodeFrame, if_neg hlong, hheader]
  simp only [checkHeader_header h c, UInt32.toNat_ofNat_of_lt' hsize, frame.store_checksum, loadU16,
    loadU32, loadU64, hversion, hflags, hcorrelation, hepoch, hboot, hsequence, hchecksum,
    loadU16_bytes, loadU32_bytes, loadU64_bytes]

theorem Frame.take_image (frame : Frame) (rest : List UInt8) :
    (frame.image ++ rest).take headerBytes = frame.header frame.checksum := by
  rw [image, List.append_assoc, ← frame.header_length frame.checksum, List.take_left]

theorem decodeFrame_image {frame : Frame} {limits : Limits} (h : frame.Fits limits)
    (rest : List UInt8) :
    decodeFrame (frame.image ++ rest) limits
      = .complete { frame with version := protocolVersion } frame.image.length := by
  have hpayload : slice (frame.image ++ rest) Frame.headerBytes frame.payload.length
      = frame.payload := by
    rw [Frame.image, List.append_assoc, LittleEndian.slice_append_right (by simp),
      Frame.header_length, Nat.sub_self, LittleEndian.slice_append_left (by simp),
      LittleEndian.slice_whole rfl]
  rw [decodeFrame_header h (frame.take_image rest), if_neg (by simp), hpayload]
  simp only []
  rw [if_neg (by rw [Frame.checksum]; simp), Frame.image_length]

/-- A part of a frame is not refused: the rest of it may still come. -/
theorem decodeFrame_prefix {frame : Frame} {limits : Limits} (h : frame.Fits limits)
    {part : List UInt8} (hpart : part <+: frame.image) (hstrict : part ≠ frame.image) :
    decodeFrame part limits = .needMoreData := by
  have hshort : part.length < frame.image.length :=
    Nat.lt_of_le_of_ne hpart.length_le fun heq => hstrict (hpart.eq_of_length heq)
  rw [Frame.image_length] at hshort
  by_cases hlong : part.length < Frame.headerBytes
  · rw [decodeFrame, if_pos hlong]
  · have hheader : part.take Frame.headerBytes = frame.header frame.checksum := by
      obtain ⟨rest, hrest⟩ := hpart
      have htake := frame.take_image []
      rw [List.append_nil, ← hrest, List.take_append_of_le_length (by omega)] at htake
      exact htake
    rw [decodeFrame_header h hheader, if_pos hshort]

/-- What the checks of the header establish. -/
theorem checkHeader_eq_ok {header : List UInt8} {limits : Limits} {type : MessageType}
    {payloadLength : UInt32} (h : checkHeader header limits = .ok (type, payloadLength)) :
    loadU32 header 0 = Frame.magic ∧ loadU16 header 4 = protocolVersion
      ∧ (loadU16 header 6).toNat = Frame.headerBytes ∧ type.number = loadU16 header 8
      ∧ loadU32 header 12 = payloadLength
      ∧ Frame.headerBytes + payloadLength.toNat ≤ limits.maxFrameBytes.toNat
      ∧ loadU32 header 48 = 0 ∧ loadU64 header 56 = 0 := by
  simp only [checkHeader, bind_eq_ok, require_eq_ok, beq_iff_eq] at h
  obtain ⟨_, hmagic, _, hversion, _, hbytes, h⟩ := h
  cases htype : MessageType.parse (loadU16 header 8) with
  | none =>
    rw [htype] at h
    cases h
  | some parsed =>
    rw [htype] at h
    simp only [bind_eq_ok, require_eq_ok, pure_eq_ok, Bool.and_eq_true, beq_iff_eq,
      Bool.not_eq_true', Bool.or_eq_false_iff, decide_eq_false_iff_not] at h
    obtain ⟨_, ⟨-, hroom⟩, _, ⟨hreserved, htrailer⟩, hread⟩ := h
    obtain ⟨rfl, rfl⟩ := Prod.mk.inj hread
    exact ⟨hmagic, hversion, hbytes, MessageType.number_of_parse htype, rfl, by omega, hreserved,
      htrailer⟩

/-- A header is the one of the frame that is read from it. -/
theorem header_loaded {frame : Frame} {input : List UInt8} (hlen : input.length = 64)
    (hmagic : loadU32 input 0 = Frame.magic) (hversion : loadU16 input 4 = protocolVersion)
    (hbytes : (loadU16 input 6).toNat = Frame.headerBytes)
    (htype : frame.type.number = loadU16 input 8) (hflags : frame.flags = loadU16 input 10)
    (hlength : frame.payload.length = (loadU32 input 12).toNat)
    (hcorrelation : frame.correlation.value = loadU64 input 16)
    (hepoch : frame.epoch.value = loadU64 input 24)
    (hboot : frame.workerBoot.value = loadU64 input 32)
    (hsequence : frame.sequence.value = loadU64 input 40)
    (hreserved : loadU32 input 48 = 0) (htrailer : loadU64 input 56 = 0) :
    frame.header (loadU32 input 52) = input := by
  have hzero32 : bytes 4 0 = slice input 48 4 := by
    rw [← bytes_loadU32 (by omega), hreserved]
    rfl
  have hzero64 : bytes 8 0 = slice input 56 8 := by
    rw [← bytes_loadU64 (by omega), htrailer]
    rfl
  rw [Frame.header, Frame.front, ← hmagic, ← hversion, ← hbytes, htype, hflags, hlength,
    hcorrelation, hepoch, hboot, hsequence, hzero32, hzero64]
  repeat rw [bytes_loadU16 (by omega)]
  repeat rw [bytes_loadU32 (by omega)]
  repeat rw [bytes_loadU64 (by omega)]
  have hrest : slice input 56 8 = input.drop 56 := by
    rw [← LittleEndian.slice_append_drop (rfl : 56 + 8 = 64), List.drop_of_length_le (by omega),
      List.append_nil]
  simp (disch := rfl) only [hrest, List.append_assoc, LittleEndian.slice_append_drop,
    List.drop_zero]

theorem decodeFrame_canonical {frame : Frame} {limits : Limits} {buffer : List UInt8}
    {consumed : Nat} (h : decodeFrame buffer limits = .complete frame consumed) :
    frame.Fits limits ∧ frame.image = buffer.take consumed ∧ consumed ≤ buffer.length := by
  rw [decodeFrame] at h
  split at h
  · cases h
  rename_i hlong
  simp only [] at h
  cases hcheck : checkHeader (buffer.take Frame.headerBytes) limits with
  | error e =>
    rw [hcheck] at h
    cases h
  | ok read =>
    obtain ⟨type, payloadLength⟩ := read
    rw [hcheck] at h
    simp only [] at h
    split at h
    · cases h
    rename_i hwhole
    split at h
    · cases h
    rename_i hsum
    obtain ⟨hframe, rfl⟩ := DecodeResult.complete.inj h
    obtain ⟨hmagic, hversion, hbytes, htype, hlength, hfits, hreserved, htrailer⟩ :=
      checkHeader_eq_ok hcheck
    have hpayload : frame.payload = slice buffer Frame.headerBytes payloadLength.toNat := by
      rw [← hframe]
    have hsize : frame.payload.length = payloadLength.toNat := by
      rw [hpayload, LittleEndian.slice_length (by omega)]
    have hheader : frame.header (loadU32 (buffer.take Frame.headerBytes) 52)
        = buffer.take Frame.headerBytes := by
      refine header_loaded ?_ hmagic hversion hbytes ?_ ?_ (by rw [hsize, hlength]) ?_ ?_ ?_ ?_
        hreserved htrailer
      · rw [List.length_take]
        exact Nat.min_eq_left (by simpa [Frame.headerBytes] using hlong)
      · rw [← hframe]
        exact htype
      all_goals rw [← hframe]
    have hchecksum : frame.checksum = loadU32 (buffer.take Frame.headerBytes) 52 := by
      rw [Frame.checksum, ← frame.store_checksum (loadU32 (buffer.take Frame.headerBytes) 52) 0,
        hheader, hpayload]
      simpa using hsum
    refine ⟨by rw [Frame.Fits, hsize]; exact hfits, ?_, by omega⟩
    rw [Frame.image, hchecksum, hheader, hpayload, List.take_add]
    rfl

/-! ## The codec -/

/-- A frame of legal size is written, and read back whatever follows it; a
part of it is incomplete, never malformed. What is read is what is
written for the frame that is returned. -/
theorem frame_codec (frame : Frame) (limits : Limits) :
    (frame.Fits limits → ∃ encoded, encodeFrame frame limits = .ok encoded
      ∧ (∀ rest, decodeFrame (encoded ++ rest) limits
          = .complete { frame with version := protocolVersion } encoded.length)
      ∧ ∀ part, part <+: encoded → part ≠ encoded → decodeFrame part limits = .needMoreData)
    ∧ ∀ buffer consumed, decodeFrame buffer limits = .complete frame consumed →
        consumed ≤ buffer.length ∧ encodeFrame frame limits = .ok (buffer.take consumed) := by
  refine ⟨fun h => ⟨frame.image, encodeFrame_eq h, decodeFrame_image h,
    fun part hpart hstrict => decodeFrame_prefix h hpart hstrict⟩, fun buffer consumed h => ?_⟩
  obtain ⟨hfits, himage, hconsumed⟩ := decodeFrame_canonical h
  rw [encodeFrame_eq hfits, himage]
  exact ⟨hconsumed, rfl⟩

end EnsembleFabric

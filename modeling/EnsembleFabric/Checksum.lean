import EnsembleFabric.StateFile

/-!
# CRC-32C

Frames and state files are protected by the same checksum. The source looks
every byte up in a table of 256 entries that was filled by eight shifts of
each index, and a checksum is extended over a second span by taking its
complement back first.

Neither shows in the result: it is the checksum of the standard, computed one
bit at a time (`crc32c_bit_serial`), and of a frame in two spans it is the
checksum of the whole frame (`encodeFrame_checksum`).

The general part is `Library.ShiftRegister`, a register that a message is
shifted into, over any polynomial: shifting eight bits in at once is adding
the table entry of their sum. Here `kTable` is the table of the source and
`tableStep` one byte of its loop, and the two complements between the spans
cancel (`crc32cExtend_append`). In a frame the place of the checksum is
blank while the checksum is computed; `image_checksum` says that the sender
and the receiver blank the same bytes.
-/

namespace EnsembleFabric

open LittleEndian (bytes)

namespace Crc32c

/-! ## The table -/

/-- `Crc32cTable`: an entry for every byte. -/
def kTable : Vector UInt32 256 := Vector.ofFn fun index => entry (UInt32.ofNat index.val)

theorem low_byte_lt (value : UInt32) : (value &&& 0xFF).toNat < 256 := by
  rw [UInt32.toNat_and]
  exact Nat.lt_succ_of_le Nat.and_le_right

/-- One byte of the loop of `crc32c_extend`. -/
def tableStep (crc : UInt32) (raw : UInt8) : UInt32 :=
  kTable.get ⟨((crc ^^^ raw.toUInt32) &&& 0xFF).toNat, low_byte_lt _⟩ ^^^ (crc >>> 8)

theorem tableStep_eq (crc : UInt32) (raw : UInt8) :
    tableStep crc raw = entry ((crc ^^^ raw.toUInt32) &&& 0xFF) ^^^ (crc >>> 8) := by
  have hget : ∀ index : Fin 256, kTable.get index = entry (UInt32.ofNat index.val) := by
    intro index
    exact Vector.getElem_ofFn index.isLt
  rw [tableStep, hget, UInt32.ofNat_toNat]

theorem crc32cExtend_eq (seed : UInt32) (data : List UInt8) :
    crc32cExtend seed data = ~~~ data.foldl tableStep (~~~ seed) := by
  have hstep : tableStep
      = fun crc raw => entry ((crc ^^^ raw.toUInt32) &&& 0xFF) ^^^ (crc >>> 8) := by
    funext crc raw
    exact tableStep_eq crc raw
  rw [hstep]
  rfl

/-! ## The bits of a message -/

/-- The bits of a message, of every byte the least significant first. -/
def messageBits (data : List UInt8) : List Bool :=
  data.flatMap fun byte => ShiftRegister.bits byte.toBitVec

theorem register_serial (start : UInt32) (data : List UInt8) :
    (register start data).toBitVec
      = (messageBits data).foldl (ShiftRegister.serial polynomial.toBitVec) start.toBitVec := by
  rw [register_toBitVec, ShiftRegister.foldl_feed_serial _ (by omega), List.flatMap_map,
    messageBits]

/-- The checksum is that of the register fed bit by bit. -/
theorem crc32c_serial (data : List UInt8) :
    (crc32c data).toBitVec
      = ShiftRegister.crc 0x82F63B78#32 0xFFFFFFFF#32 0xFFFFFFFF#32 (messageBits data) := by
  have hstart : (~~~ 0 : UInt32).toBitVec = 0xFFFFFFFF#32 := rfl
  have hpolynomial : polynomial.toBitVec = 0x82F63B78#32 := rfl
  rw [crc32c_eq, UInt32.toBitVec_not, register_serial, hstart, hpolynomial, ShiftRegister.crc,
    ← BitVec.xor_allOnes]
  rfl

/-! ## Extension -/

/-- The two complements between the spans cancel. -/
theorem crc32cExtend_append (seed : UInt32) (first second : List UInt8) :
    crc32cExtend (crc32cExtend seed first) second = crc32cExtend seed (first ++ second) := by
  rw [crc32cExtend_eq, crc32cExtend_eq, UInt32.not_not, crc32cExtend_eq, List.foldl_append]

theorem crc32c_append (first second : List UInt8) :
    crc32cExtend (crc32c first) second = crc32c (first ++ second) :=
  crc32cExtend_append 0 first second

/-! ## Frames -/

theorem image_eq (frame : Frame) :
    frame.image = frame.front ++ bytes 4 frame.checksum.toNat ++ (bytes 8 0 ++ frame.payload) := by
  rw [Frame.image, Frame.header, List.append_assoc _ (bytes 8 0)]

/-- The word in the place of the checksum. -/
theorem image_word (frame : Frame) : loadU32 frame.image 52 = frame.checksum := by
  obtain ⟨-, -, -, -, -, -, -, -, -, -, -, hchecksum, -⟩ := frame.header_words frame.checksum
  rw [loadU32, Frame.image, LittleEndian.slice_append_left (by simp [Frame.headerBytes]),
    hchecksum, loadU32_bytes]

theorem image_blank (frame : Frame) :
    storeU32 frame.image 52 0 = frame.header 0 ++ frame.payload := by
  rw [image_eq, storeU32, LittleEndian.overwrite_middle frame.front_length (by simp), Frame.header,
    List.append_assoc _ (bytes 8 0)]

/-- The checksum in a frame is that of all its bytes, with nothing in the place
of the checksum. -/
theorem image_checksum (frame : Frame) :
    loadU32 frame.image 52 = crc32c (storeU32 frame.image 52 0) := by
  rw [image_word, image_blank, Frame.checksum, crc32c_append]

theorem encodeFrame_checksum {frame : Frame} {limits : Limits} {encoded : List UInt8}
    (h : encodeFrame frame limits = .ok encoded) :
    loadU32 encoded 52 = crc32c (storeU32 encoded 52 0) := by
  rw [encodeFrame_eq (encodeFrame_fits h)] at h
  obtain rfl := Except.ok.inj h
  exact image_checksum frame

theorem decodeFrame_checksum {frame : Frame} {limits : Limits} {buffer : List UInt8}
    {consumed : Nat} (h : decodeFrame buffer limits = .complete frame consumed) :
    loadU32 (buffer.take consumed) 52 = crc32c (storeU32 (buffer.take consumed) 52 0) := by
  obtain ⟨-, himage, -⟩ := decodeFrame_canonical h
  rw [← himage]
  exact image_checksum frame

/-! ## The checksum of the standard -/

/-- The loop over the table computes the reflected CRC of the message's bits.
It is extended over a second span by going on with that span, so the checksum
that is sent and compared for a frame is the one of the whole frame. -/
theorem crc32c_bit_serial :
    (∀ seed data, crc32cExtend seed data = ~~~ data.foldl tableStep (~~~ seed))
    ∧ (∀ data, (crc32c data).toBitVec
        = ShiftRegister.crc 0x82F63B78#32 0xFFFFFFFF#32 0xFFFFFFFF#32 (messageBits data))
    ∧ (∀ seed first second,
        crc32cExtend (crc32cExtend seed first) second = crc32cExtend seed (first ++ second))
    ∧ (∀ frame limits encoded, encodeFrame frame limits = .ok encoded →
        loadU32 encoded 52 = crc32c (storeU32 encoded 52 0))
    ∧ ∀ frame limits buffer consumed, decodeFrame buffer limits = .complete frame consumed →
        loadU32 (buffer.take consumed) 52 = crc32c (storeU32 (buffer.take consumed) 52 0) := by
  refine ⟨crc32cExtend_eq, crc32c_serial, crc32cExtend_append, ?_, ?_⟩
  · intro frame limits encoded h
    exact encodeFrame_checksum h
  · intro frame limits buffer consumed h
    exact decodeFrame_checksum h

/-- A frame with a payload of five bytes, as it is sent, and as it is read from
a buffer that goes on behind it: the checksum runs over the header and then
over the payload. -/
theorem judged_frame_checksum :
    let judged : Frame := { type := .evaluationResult, sequence := ⟨7⟩, payload := [9, 8, 7, 0, 1] }
    crc32cExtend (crc32c (judged.header 0)) judged.payload
        = crc32c (judged.header 0 ++ judged.payload)
      ∧ loadU32 judged.image 52 = crc32c (storeU32 judged.image 52 0)
      ∧ loadU32 ((judged.image ++ [0x45, 0x4E]).take 69) 52
        = crc32c (storeU32 ((judged.image ++ [0x45, 0x4E]).take 69) 52 0) := by
  intro judged
  have hfits : judged.Fits {} := by decide
  have hread : decodeFrame (judged.image ++ [0x45, 0x4E]) {}
      = .complete { judged with version := protocolVersion } 69 :=
    decodeFrame_image hfits [0x45, 0x4E]
  obtain ⟨-, -, hspans, hsent, hreceived⟩ := crc32c_bit_serial
  exact ⟨hspans 0 _ _, hsent judged {} judged.image (encodeFrame_eq hfits),
    hreceived _ {} _ 69 hread⟩

/-- The check value of the standard, of the digits from 1 to 9. -/
example : crc32c [49, 50, 51, 52, 53, 54, 55, 56, 57] = 0xE3069283 := by decide +kernel

end Crc32c

end EnsembleFabric

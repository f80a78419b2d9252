import EnsembleFabric.FrameCodec
import EnsembleFabric.Sha256
import EnsembleFabric.Library.ShiftRegister

/-!
# State files

A state file is a header of fixed size and a payload. The header carries the
length, the checksum and the digest of the payload, and a checksum of its own.
A file is modelled by its bytes; that the file system fails is left out here
and taken up in `Storage`.

Both checksums are CRC-32C, a register of 32 bits that a message is shifted
into. A header is sound if and only if the register ends in one particular
state after all of its 40 bytes, the stored checksum included
(`header_sound_iff`), so a change of four bytes is detected wherever in the
header it is.

`StateFile.Sound` collects what `read_state_file` checks, and `Damaged` the
ways a file is spoiled: four bytes in a row of the header or of the payload
are changed, the end is lost, or something is appended. No damaged file is
sound (`Damaged.unsound`), and a written one is read back as it is
(`state_file_integrity`). A longer change may go unseen: the checksum has 32
bits, and no more than a burst of that width is promised.
-/

namespace EnsembleFabric

open LittleEndian (bytes word slice overwrite)

/-! ## Writing and reading -/

namespace StateFile

def headerBytes : Nat := 40

def magic : UInt32 := 0x46424E45

def formatVersion : UInt16 := 1

end StateFile

structure PersistenceHeader where
  magic : UInt32 := 0
  formatVersion : UInt16 := 0
  flags : UInt16 := 0
  payloadBytes : UInt64 := 0
  payloadCrc32c : UInt32 := 0
  recordCount : UInt32 := 0
  contentDigest : UInt64 := 0
deriving DecidableEq

/-- `write_state_file`: the bytes of the file. -/
def writeStateFile (payload : List UInt8) (recordCount : UInt32) (limits : Limits) :
    Outcome (List UInt8) :=
  if limits.maxPersistenceBytes.toNat < payload.length then
    fail .resourceLimitExceeded "state payload exceeds the configured persistence bound"
  else
    let header := List.replicate StateFile.headerBytes 0
    let header := storeU32 header 0 StateFile.magic
    let header := storeU16 header 4 StateFile.formatVersion
    let header := storeU16 header 6 0
    let header := storeU64 header 8 (UInt64.ofNat payload.length)
    let header := storeU32 header 16 (crc32c payload)
    let header := storeU32 header 20 recordCount
    let header := storeU64 header 24 (sha256Digest64 payload)
    let header := storeU32 header 32 0
    let header := storeU32 header 36 0
    -- header integrity covers the bytes before its checksum
    let headerCrc := crc32c (header.take (StateFile.headerBytes - 4))
    .ok (storeU32 header 36 headerCrc ++ payload)

/-- The fields of a header. -/
def loadHeader (container : List UInt8) : PersistenceHeader where
  magic := loadU32 container 0
  formatVersion := loadU16 container 4
  flags := loadU16 container 6
  payloadBytes := loadU64 container 8
  payloadCrc32c := loadU32 container 16
  recordCount := loadU32 container 20
  contentDigest := loadU64 container 24

/-- `read_state_file`: the header and the payload of a file. -/
def readStateFile (container : List UInt8) (limits : Limits) :
    Outcome (PersistenceHeader × List UInt8) := do
  let size := container.length
  require (StateFile.headerBytes ≤ size) .persistenceCorruption
    "state file is smaller than its header"
  require (size ≤ StateFile.headerBytes + limits.maxPersistenceBytes.toNat) .resourceLimitExceeded
    "state file exceeds the configured persistence bound"
  let header := loadHeader container
  require (header.magic == StateFile.magic) .malformedPersistence
    "state file magic does not match"
  require (header.formatVersion == StateFile.formatVersion) .unsupportedVersion
    (s!"state file format version {header.formatVersion.toNat} is not supported by this build "
      ++ s!"(expected {StateFile.formatVersion.toNat})")
  let headerCopy := storeU32 (container.take StateFile.headerBytes) 36 0
  require (crc32c (headerCopy.take (StateFile.headerBytes - 4)) == loadU32 container 36)
    .checksumMismatch "state file header checksum does not match"
  require (header.payloadBytes ≤ limits.maxPersistenceBytes.toUInt64) .resourceLimitExceeded
    "declared state payload exceeds the configured bound"
  let expected := StateFile.headerBytes + header.payloadBytes.toNat
  require (expected ≤ size) .persistenceCorruption
    "state file is truncated relative to its declared length"
  require (size ≤ expected) .trailingData
    "state file carries trailing bytes after its payload"
  require (header.recordCount ≤ limits.maxRecordsPerSnapshot) .resourceLimitExceeded
    "declared record count exceeds the configured bound"
  let payload := container.drop StateFile.headerBytes
  require (crc32c payload == header.payloadCrc32c) .checksumMismatch
    "state file payload checksum does not match"
  require (sha256Digest64 payload == header.contentDigest) .checksumMismatch
    "state file content digest does not match"
  return (header, payload)

/-! ## The checksum as a shift register -/

namespace Crc32c

/-- What is in the register after some bytes. -/
def register (start : UInt32) (data : List UInt8) : UInt32 :=
  data.foldl (fun crc raw => entry ((crc ^^^ raw.toUInt32) &&& 0xFF) ^^^ (crc >>> 8)) start

theorem crc32c_eq (data : List UInt8) : crc32c data = ~~~ register (~~~ 0) data := rfl

theorem shift_toBitVec (value : UInt32) :
    (shift value).toBitVec = ShiftRegister.shift polynomial.toBitVec value.toBitVec := by
  have hlow : (value &&& 1 != 0) = value.toBitVec.getLsbD 0 := by
    have hand : (value &&& 1).toBitVec
        = (BitVec.ofBool (value.toBitVec.getLsbD 0)).setWidth 32 := by
      rw [UInt32.toBitVec_and]
      exact BitVec.and_one_eq_setWidth_ofBool_getLsbD
    have hzero : value &&& 1 = 0 ↔ value.toBitVec.getLsbD 0 = false := by
      rw [← UInt32.toBitVec_inj, hand]
      cases value.toBitVec.getLsbD 0 <;> decide
    cases hbit : value.toBitVec.getLsbD 0
    · exact bne_eq_false_iff_eq.mpr (hzero.mpr hbit)
    · exact bne_iff_ne.mpr fun heq => by rw [hzero.mp heq] at hbit; cases hbit
  rw [shift, hlow, ShiftRegister.shift]
  cases value.toBitVec.getLsbD 0
  · rfl
  · rfl

theorem iterate_toBitVec (count : Nat) (value : UInt32) :
    (shift^[count] value).toBitVec
      = (ShiftRegister.shift polynomial.toBitVec)^[count] value.toBitVec := by
  induction count generalizing value with
  | zero => rfl
  | succ count ih =>
    rw [Function.iterate_succ_apply, Function.iterate_succ_apply, ih, shift_toBitVec]

/-- The table takes the low byte through the register; the rest moves down. -/
theorem step_toBitVec (crc : UInt32) (raw : UInt8) :
    (entry ((crc ^^^ raw.toUInt32) &&& 0xFF) ^^^ (crc >>> 8)).toBitVec
      = ShiftRegister.feed polynomial.toBitVec crc.toBitVec raw.toBitVec := by
  rw [ShiftRegister.feed_table, UInt32.toBitVec_xor, entry, iterate_toBitVec, UInt32.toBitVec_and,
    UInt32.toBitVec_xor, UInt32.toBitVec_shiftRight]
  rfl

theorem register_toBitVec (start : UInt32) (data : List UInt8) :
    (register start data).toBitVec
      = (data.map UInt8.toBitVec).foldl (ShiftRegister.feed polynomial.toBitVec)
          start.toBitVec := by
  induction data generalizing start with
  | nil => rfl
  | cons raw data ih =>
    rw [List.map_cons, List.foldl_cons, ← step_toBitVec]
    exact ih _

theorem register_append (start : UInt32) (first second : List UInt8) :
    register start (first ++ second) = register (register start first) second :=
  List.foldl_append

theorem polynomial_top : polynomial.toBitVec.getLsbD (32 - 1) = true := by decide

theorem number_eq_word (bs : List UInt8) :
    ShiftRegister.number (bs.map UInt8.toBitVec) = word bs := by
  induction bs with
  | nil => rfl
  | cons byte rest ih =>
    rw [List.map_cons, ShiftRegister.number, ih]
    rfl

/-- A change of at most four bytes in a row shows in the register. -/
theorem burst_detected {before window other after : List UInt8}
    (hlength : other.length = window.length) (hshort : window.length ≤ 4) (hne : other ≠ window)
    (start : UInt32) :
    register start (before ++ other ++ after) ≠ register start (before ++ window ++ after) := by
  intro h
  have hstate := congrArg UInt32.toBitVec h
  simp only [register_toBitVec, List.map_append] at hstate
  refine ShiftRegister.burst_detected polynomial.toBitVec polynomial_top ?_ ?_ ?_ _ hstate
  · rw [List.length_map, List.length_map, hlength]
  · rw [List.length_map]
    omega
  · exact fun heq => hne (List.map_injective_iff.mpr (fun _ _ => UInt8.toBitVec_inj.mp) heq)

/-- The register after a message and its checksum. -/
def residue : UInt32 := shift^[32] (~~~ 0)

/-- The bytes after a message are its checksum if and only if they bring the
register to one particular state. -/
theorem checksum_iff (message : List UInt8) {check : List UInt8} (hcheck : check.length = 4) :
    crc32c message = UInt32.ofNat (word check)
      ↔ register (~~~ 0) (message ++ check) = residue := by
  have hlength : 8 * (check.map UInt8.toBitVec).length = 32 := by rw [List.length_map, hcheck]
  have hfull := ShiftRegister.complement_iff polynomial.toBitVec polynomial_top
    hlength.le (register (~~~ 0) message).toBitVec
  rw [hlength, number_eq_word] at hfull
  rw [register_append, ← UInt32.toBitVec_inj, ← UInt32.toBitVec_inj, register_toBitVec, residue,
    iterate_toBitVec, crc32c_eq]
  exact eq_comm.trans hfull.symm

end Crc32c

/-! ## The file -/

namespace StateFile

/-- The words of a header before its checksum. -/
def front (payload : List UInt8) (recordCount : UInt32) : List UInt8 :=
  bytes 4 magic.toNat ++ (bytes 2 formatVersion.toNat ++ (bytes 2 0
    ++ (bytes 8 payload.length ++ (bytes 4 (crc32c payload).toNat
    ++ (bytes 4 recordCount.toNat ++ (bytes 8 (sha256Digest64 payload).toNat ++ bytes 4 0))))))

def header (payload : List UInt8) (recordCount : UInt32) : List UInt8 :=
  front payload recordCount ++ bytes 4 (crc32c (front payload recordCount)).toNat

def image (payload : List UInt8) (recordCount : UInt32) : List UInt8 :=
  header payload recordCount ++ payload

@[simp] theorem front_length (payload : List UInt8) (recordCount : UInt32) :
    (front payload recordCount).length = 36 := by
  simp [front]

@[simp] theorem header_length (payload : List UInt8) (recordCount : UInt32) :
    (header payload recordCount).length = headerBytes := by
  simp [header, headerBytes]

end StateFile

open StateFile (front header image headerBytes)

theorem stateFile_stores (payload : List UInt8) (recordCount : UInt32)
    (hsize : payload.length < 2 ^ 64) :
    storeU32 (storeU32 (storeU64 (storeU32 (storeU32 (storeU64 (storeU16 (storeU16 (storeU32
      (List.replicate headerBytes 0) 0 StateFile.magic) 4 StateFile.formatVersion) 6 0) 8
      (UInt64.ofNat payload.length)) 16 (crc32c payload)) 20 recordCount) 24
      (sha256Digest64 payload)) 32 0) 36 0 = front payload recordCount ++ bytes 4 0 := by
  rw [show List.replicate headerBytes (0 : UInt8) = [] ++ List.replicate 40 0 from rfl]
  rw [storeU32_blank _ (by simp) (by omega), storeU16_blank _ (by simp) (by omega),
    storeU16_blank _ (by simp) (by omega), storeU64_blank _ (by simp) (by omega),
    storeU32_blank _ (by simp) (by omega), storeU32_blank _ (by simp) (by omega),
    storeU64_blank _ (by simp) (by omega), storeU32_blank _ (by simp) (by omega),
    storeU32_blank _ (by simp) (by omega)]
  simp only [front, UInt64.toNat_ofNat_of_lt' hsize, List.append_assoc, List.nil_append,
    UInt16.toNat_zero, UInt32.toNat_zero, Nat.reduceSub, List.replicate_zero, List.append_nil]

theorem writeStateFile_eq {payload : List UInt8} {limits : Limits}
    (hsize : payload.length ≤ limits.maxPersistenceBytes.toNat) (recordCount : UInt32) :
    writeStateFile payload recordCount limits = .ok (image payload recordCount) := by
  have hmax := limits.maxPersistenceBytes.toNat_lt
  rw [writeStateFile, if_neg (by omega)]
  simp only []
  rw [stateFile_stores payload recordCount (by omega)]
  have htake : (front payload recordCount ++ bytes 4 0).take (headerBytes - 4)
      = front payload recordCount := by
    rw [show headerBytes - 4 = 36 from rfl, List.take_left' (StateFile.front_length ..)]
  rw [htake, storeU32, ← List.append_nil (front payload recordCount ++ bytes 4 0),
    LittleEndian.overwrite_middle (StateFile.front_length ..) (by simp), List.append_nil]
  rfl

/-- What `read_state_file` checks. -/
@[mk_iff] structure StateFile.Sound (limits : Limits) (container : List UInt8) : Prop where
  size : headerBytes ≤ container.length
  within : container.length ≤ headerBytes + limits.maxPersistenceBytes.toNat
  magic : loadU32 container 0 = StateFile.magic
  version : loadU16 container 4 = StateFile.formatVersion
  headerChecksum : crc32c (container.take 36) = loadU32 container 36
  declared : loadU64 container 8 ≤ limits.maxPersistenceBytes.toUInt64
  length : container.length = headerBytes + (loadU64 container 8).toNat
  records : loadU32 container 20 ≤ limits.maxRecordsPerSnapshot
  checksum : crc32c (container.drop headerBytes) = loadU32 container 16
  digest : sha256Digest64 (container.drop headerBytes) = loadU64 container 24

theorem readStateFile_eq_ok {container : List UInt8} {limits : Limits}
    {read : PersistenceHeader × List UInt8} :
    readStateFile container limits = .ok read
      ↔ StateFile.Sound limits container
        ∧ read = (loadHeader container, container.drop headerBytes) := by
  have hcopy : ∀ container : List UInt8, headerBytes ≤ container.length →
      (storeU32 (container.take headerBytes) 36 0).take (headerBytes - 4) = container.take 36 := by
    intro container hsize
    have hmin : min 36 headerBytes = 36 := rfl
    rw [storeU32, overwrite, List.append_assoc, show headerBytes - 4 = 36 from rfl,
      List.take_take, hmin, List.take_left']
    rw [List.length_take]
    have hbytes : headerBytes = 40 := rfl
    omega
  simp only [readStateFile, Checks.bind_eq_ok, require_eq_ok, Checks.pure_eq_ok, decide_eq_true_eq,
    beq_iff_eq]
  constructor
  · rintro ⟨_, hsize, _, hwithin, _, hmagic, _, hversion, _, hheader, _, hdeclared, _, hlow, _,
      hhigh, _, hrecords, _, hchecksum, _, hdigest, rfl⟩
    rw [hcopy container hsize] at hheader
    exact ⟨⟨hsize, hwithin, hmagic, hversion, hheader, hdeclared, le_antisymm hhigh hlow, hrecords,
      hchecksum, hdigest⟩, rfl⟩
  · rintro ⟨h, rfl⟩
    refine ⟨(), h.size, (), h.within, (), h.magic, (), h.version, (), ?_, (), h.declared, (),
      h.length.ge, (), h.length.le, (), h.records, (), h.checksum, (), h.digest, rfl⟩
    rw [hcopy container h.size]
    exact h.headerChecksum

/-! ## Damage -/

/-- A word of the header is read off the first bytes of the file. -/
theorem slice_header {container : List UInt8} {offset width : Nat}
    (h : offset + width ≤ headerBytes) (hsize : headerBytes ≤ container.length) :
    slice container offset width = slice (container.take headerBytes) offset width := by
  conv_lhs => rw [← List.take_append_drop headerBytes container]
  refine LittleEndian.slice_append_left ?_
  rw [List.length_take]
  omega

/-- Files with the same header have the same header fields. -/
theorem loadHeader_congr {container other : List UInt8} (hsize : headerBytes ≤ container.length)
    (hother : headerBytes ≤ other.length)
    (h : other.take headerBytes = container.take headerBytes) :
    loadHeader other = loadHeader container := by
  have hslice : ∀ offset width, offset + width ≤ headerBytes →
      slice other offset width = slice container offset width := by
    intro offset width hin
    rw [slice_header hin hsize, slice_header hin hother, h]
  simp only [loadHeader, loadU16, loadU32, loadU64, hslice 0 4 (by decide), hslice 4 2 (by decide),
    hslice 6 2 (by decide), hslice 8 8 (by decide), hslice 16 4 (by decide),
    hslice 20 4 (by decide), hslice 24 8 (by decide)]

/-- The header of a sound file brings the register to its residue. -/
theorem StateFile.Sound.residue {limits : Limits} {container : List UInt8}
    (h : StateFile.Sound limits container) :
    Crc32c.register (~~~ 0) (container.take headerBytes) = Crc32c.residue := by
  have hbytes : headerBytes = 36 + 4 := rfl
  have hsize := h.size
  have hlength : (slice container 36 4).length = 4 := LittleEndian.slice_length (by omega)
  have hsplit : container.take headerBytes = container.take 36 ++ slice container 36 4 := by
    rw [hbytes, List.take_add]
    rfl
  rw [hsplit]
  exact (Crc32c.checksum_iff _ hlength).mp h.headerChecksum

/-- What may happen to a file: at most four bytes in a row of its header or
of its payload change, its end is lost, or something is appended. -/
inductive Damaged (file : List UInt8) : List UInt8 → Prop
  | burst {before window other after : List UInt8} (hfile : file = before ++ window ++ after)
      (hlength : other.length = window.length) (hshort : window.length ≤ 4)
      (hne : other ≠ window)
      (hplace : before.length + window.length ≤ headerBytes ∨ headerBytes ≤ before.length) :
      Damaged file (before ++ other ++ after)
  | truncated {count : Nat} (hcount : count < file.length) : Damaged file (file.take count)
  | appended {extra : List UInt8} (hextra : extra ≠ []) : Damaged file (file ++ extra)

/-- No damaged file is sound. -/
theorem Damaged.unsound {limits : Limits} {file damaged : List UInt8}
    (hdamaged : Damaged file damaged) (hfile : StateFile.Sound limits file) :
    ¬ StateFile.Sound limits damaged := by
  intro h
  cases hdamaged with
  | @burst before window other after heq hlength hshort hne hplace =>
    rcases hplace with hheader | hpayload
    · -- the register tells the headers apart
      have hcut : ∀ middle : List UInt8, middle.length = window.length →
          (before ++ middle ++ after).take headerBytes
            = before ++ middle ++ after.take (headerBytes - (before ++ window).length) := by
        intro middle hmiddle
        rw [List.take_append, List.take_of_length_le, List.length_append, List.length_append,
          hmiddle]
        rw [List.length_append, hmiddle]
        exact hheader
      have hold := hfile.residue
      have hnew := h.residue
      rw [heq, hcut window rfl] at hold
      rw [hcut other hlength] at hnew
      exact Crc32c.burst_detected hlength hshort hne _ (hnew.trans hold.symm)
    · -- the headers agree, and the register tells the payloads apart
      have hcut : ∀ middle : List UInt8,
          (before ++ middle ++ after).take headerBytes = before.take headerBytes
            ∧ (before ++ middle ++ after).drop headerBytes
              = before.drop headerBytes ++ middle ++ after := by
        intro middle
        rw [List.append_assoc, List.take_append_of_le_length hpayload,
          List.drop_append_of_le_length hpayload, ← List.append_assoc]
        exact ⟨rfl, rfl⟩
      have hfields : loadHeader (before ++ other ++ after) = loadHeader file := by
        refine loadHeader_congr hfile.size h.size ?_
        rw [heq, (hcut other).1, (hcut window).1]
      have hsame : crc32c ((before ++ other ++ after).drop headerBytes)
          = crc32c (file.drop headerBytes) :=
        h.checksum.trans ((congrArg PersistenceHeader.payloadCrc32c hfields).trans
          hfile.checksum.symm)
      rw [heq, (hcut other).2, (hcut window).2, Crc32c.crc32c_eq, Crc32c.crc32c_eq] at hsame
      exact Crc32c.burst_detected hlength hshort hne _ (UInt32.not_inj.mp hsame)
  | @truncated count hcount =>
    have hsize := h.size
    rw [List.length_take] at hsize
    have hfields : loadHeader (file.take count) = loadHeader file := by
      refine loadHeader_congr hfile.size h.size ?_
      rw [List.take_take, Nat.min_eq_left (by omega)]
    have hlength := h.length
    have hdeclared : loadU64 (file.take count) 8 = loadU64 file 8 :=
      congrArg PersistenceHeader.payloadBytes hfields
    rw [hdeclared, ← hfile.length, List.length_take] at hlength
    omega
  | @appended extra hextra =>
    have hfields : loadHeader (file ++ extra) = loadHeader file :=
      loadHeader_congr hfile.size h.size (List.take_append_of_le_length hfile.size)
    have hlength := h.length
    have hdeclared : loadU64 (file ++ extra) 8 = loadU64 file 8 :=
      congrArg PersistenceHeader.payloadBytes hfields
    rw [hdeclared, ← hfile.length, List.length_append] at hlength
    exact hextra (List.eq_nil_of_length_eq_zero (by omega))

/-! ## Written files -/

/-- Every word of a written header is found at its place. -/
theorem image_words (payload : List UInt8) (recordCount : UInt32) :
    slice (image payload recordCount) 0 4 = bytes 4 StateFile.magic.toNat
      ∧ slice (image payload recordCount) 4 2 = bytes 2 StateFile.formatVersion.toNat
      ∧ slice (image payload recordCount) 8 8 = bytes 8 payload.length
      ∧ slice (image payload recordCount) 16 4 = bytes 4 (crc32c payload).toNat
      ∧ slice (image payload recordCount) 20 4 = bytes 4 recordCount.toNat
      ∧ slice (image payload recordCount) 24 8 = bytes 8 (sha256Digest64 payload).toNat
      ∧ slice (image payload recordCount) 36 4
          = bytes 4 (crc32c (front payload recordCount)).toNat := by
  simp (disch := simp) only [image, header, front, List.append_assoc,
    LittleEndian.slice_append_right, LittleEndian.slice_append_left, LittleEndian.slice_whole,
    LittleEndian.bytes_length, Nat.reduceSub, and_self]

theorem image_length (payload : List UInt8) (recordCount : UInt32) :
    (image payload recordCount).length = headerBytes + payload.length := by
  rw [image, List.length_append, StateFile.header_length]

theorem image_drop (payload : List UInt8) (recordCount : UInt32) :
    (image payload recordCount).drop headerBytes = payload :=
  List.drop_left' (StateFile.header_length ..)

theorem image_sound {limits : Limits} {payload : List UInt8} {recordCount : UInt32}
    (hsize : payload.length ≤ limits.maxPersistenceBytes.toNat)
    (hcount : recordCount ≤ limits.maxRecordsPerSnapshot) :
    StateFile.Sound limits (image payload recordCount) := by
  obtain ⟨hmagic, hversion, hdeclared, hchecksum, hrecords, hdigest, hheader⟩ :=
    image_words payload recordCount
  have hmax := limits.maxPersistenceBytes.toNat_lt
  have hlength : (loadU64 (image payload recordCount) 8).toNat = payload.length := by
    rw [loadU64, hdeclared, LittleEndian.word_bytes_of_lt (by omega),
      UInt64.toNat_ofNat_of_lt' (show payload.length < 2 ^ 64 by omega)]
  constructor
  · rw [image_length]
    exact Nat.le_add_right ..
  · rw [image_length]
    exact Nat.add_le_add_left hsize _
  · rw [loadU32, hmagic, loadU32_bytes]
  · rw [loadU16, hversion, loadU16_bytes]
  · rw [loadU32, hheader, loadU32_bytes, image, header, List.append_assoc,
      List.take_left' (StateFile.front_length ..)]
  · rw [UInt64.le_iff_toNat_le, hlength, UInt32.toNat_toUInt64]
    exact hsize
  · rw [hlength, image_length]
  · rw [loadU32, hrecords, loadU32_bytes]
    exact hcount
  · rw [image_drop, loadU32, hchecksum, loadU32_bytes]
  · rw [image_drop, loadU64, hdigest, loadU64_bytes]

/-- A written file is read back as it is, and not after damage: not with four
bytes in a row changed, its end lost, or something appended. -/
theorem state_file_integrity {limits : Limits} {payload : List UInt8} {recordCount : UInt32}
    (hsize : payload.length ≤ limits.maxPersistenceBytes.toNat)
    (hcount : recordCount ≤ limits.maxRecordsPerSnapshot) :
    ∃ file, writeStateFile payload recordCount limits = .ok file
      ∧ (∃ read, readStateFile file limits = .ok (read, payload))
      ∧ ∀ damaged, Damaged file damaged → ∃ e, readStateFile damaged limits = .error e := by
  have hsound := image_sound hsize hcount
  refine ⟨image payload recordCount, writeStateFile_eq hsize recordCount,
    ⟨loadHeader (image payload recordCount), ?_⟩, fun damaged hdamaged => ?_⟩
  · refine readStateFile_eq_ok.mpr ⟨hsound, ?_⟩
    rw [image_drop]
  · cases hread : readStateFile damaged limits with
    | error e => exact ⟨e, rfl⟩
    | ok read => exact absurd (readStateFile_eq_ok.mp hread).1 (hdamaged.unsound hsound)

/-- Three bytes, in a file with the default limits. -/
theorem three_bytes_kept :
    ∃ file, writeStateFile [1, 2, 3] 1 {} = .ok file
      ∧ (∃ read, readStateFile file {} = .ok (read, [1, 2, 3]))
      ∧ ∀ damaged, Damaged file damaged → ∃ e, readStateFile damaged {} = .error e :=
  state_file_integrity (by decide) (by decide)

end EnsembleFabric

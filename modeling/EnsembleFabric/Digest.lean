import EnsembleFabric.Sha256
import EnsembleFabric.Library.Sha2

/-!
# The digests are those of the standard

The hasher of the runtime is compared with the function of the standard in
three steps. Words of the source and words of the standard are the same bits,
so one compression is the same (`compress_words`); here the table of the source
is compared with the roots it stands for. The buffer and the state after a
message are its blocks and what is left of them (`update_eq`). And `finish`
compresses the last block or the last two as the padding of the standard
makes them (`finish_eq`), as long as the length of the message in bits does not
exceed the word it is written to.

The source rotates and adds words of 32 bits, the standard is stated on bit
vectors (`Library.Sha2`); `words` takes the one to the other, and the
functions on words commute with it. Calling `update` once or many times makes
no difference, since the state is a function of the bytes absorbed so far.

The result is `sha256_standard`, for every message. The short digest is the
number in the first eight bytes of the long one.
-/

namespace EnsembleFabric

open BlockHash (blocks remainder)

/-! ## Words -/

theorem rotateRight_toBitVec {value count : UInt32} (hpos : 0 < count.toNat)
    (hlt : count.toNat < 32) :
    (rotateRight value count).toBitVec = value.toBitVec.rotateRight count.toNat := by
  have hright : (count.toBitVec % 32).toNat = count.toNat := Nat.mod_eq_of_lt hlt
  have hleft : ((32 - count).toBitVec % 32).toNat = 32 - count.toNat := by
    have hsub : (32 - count).toNat = 32 - count.toNat :=
      UInt32.toNat_sub_of_le _ _ (UInt32.le_iff_toNat_le.mpr hlt.le)
    change (32 - count).toNat % 32 = _
    rw [hsub]
    exact Nat.mod_eq_of_lt (by omega)
  rw [rotateRight, UInt32.toBitVec_or, UInt32.toBitVec_shiftRight, UInt32.toBitVec_shiftLeft,
    BitVec.ushiftRight_eq', BitVec.shiftLeft_eq', hright, hleft, BitVec.rotateRight_def,
    Nat.mod_eq_of_lt hlt]

namespace Sha256Words

/-- The words of the standard. -/
def words (s : Sha256Words) : Sha2.Words where
  a := s.a.toBitVec
  b := s.b.toBitVec
  c := s.c.toBitVec
  d := s.d.toBitVec
  e := s.e.toBitVec
  f := s.f.toBitVec
  g := s.g.toBitVec
  h := s.h.toBitVec

theorem words_add (x y : Sha256Words) : (x.add y).words = x.words.add y.words := rfl

theorem words_toList (s : Sha256Words) : s.words.toList = s.toList.map UInt32.toBitVec := rfl

theorem words_round (s : Sha256Words) (constant word : UInt32) :
    (s.round constant word).words = s.words.round constant.toBitVec word.toBitVec := by
  simp (disch := decide) only [round, words, UInt32.toBitVec_add, UInt32.toBitVec_xor,
    UInt32.toBitVec_and, UInt32.toBitVec_not, rotateRight_toBitVec]
  rfl

theorem words_initial : initial.words = .initial := by
  have hroots := Sha2.map_initialWord
  simp only [List.range_succ, List.range_zero, List.nil_append, List.map_cons, List.map_nil,
    List.cons_append, Sha2.firstPrimes, List.take_succ_cons, List.take_zero,
    List.cons.injEq, and_true] at hroots
  obtain ⟨h0, h1, h2, h3, h4, h5, h6, h7⟩ := hroots
  rw [Sha2.Words.initial, h0, h1, h2, h3, h4, h5, h6, h7]
  decide +kernel

end Sha256Words

theorem map_kRoundConstants :
    kRoundConstants = (List.range 64).map fun t => UInt32.ofBitVec (Sha2.roundConstant t) := by
  have hroots : kRoundConstants.map UInt32.toBitVec = Sha2.firstPrimes.map (Sha2.rootWord 3) := by
    decide +kernel
  rw [← Sha2.map_roundConstant] at hroots
  have hback := congrArg (List.map UInt32.ofBitVec) hroots
  rwa [List.map_map, List.map_map, show UInt32.ofBitVec ∘ UInt32.toBitVec = id from rfl,
    List.map_id] at hback

/-! ## Bytes -/

theorem toUInt8_shiftRight {word : UInt32} {count : Nat} (hcount : count < 32) :
    (word >>> UInt32.ofNat count).toUInt8 = UInt8.ofNat (word.toNat / 2 ^ count) := by
  have hshift : (UInt32.ofNat count).toNat % 32 = count := by
    rw [UInt32.toNat_ofNat_of_lt' (hcount.trans (by decide)), Nat.mod_eq_of_lt hcount]
  apply UInt8.toNat_inj.mp
  rw [UInt32.toNat_toUInt8, UInt32.toNat_shiftRight, hshift, UInt8.toNat_ofNat',
    Nat.shiftRight_eq_div_pow]

theorem wordBytes_eq (word : UInt32) : Sha256.wordBytes word = BigEndian.bytes 4 word.toNat := by
  simp only [Sha256.wordBytes, List.range_succ, List.range_zero, List.nil_append, List.map_cons,
    List.map_nil, List.cons_append, BigEndian.bytes]
  simp (disch := omega) only [toUInt8_shiftRight]
  norm_num

theorem lengthBytes_eq (length : UInt64) :
    Sha256.lengthBytes length = BigEndian.bytes 8 length.toNat := by
  have hbyte : ∀ count < 64, (length >>> UInt64.ofNat count).toUInt8
      = UInt8.ofNat (length.toNat / 2 ^ count) := by
    intro count hcount
    have hshift : (UInt64.ofNat count).toNat % 64 = count := by
      rw [UInt64.toNat_ofNat_of_lt' (hcount.trans (by decide)), Nat.mod_eq_of_lt hcount]
    apply UInt8.toNat_inj.mp
    rw [UInt64.toNat_toUInt8, UInt64.toNat_shiftRight, hshift, UInt8.toNat_ofNat',
      Nat.shiftRight_eq_div_pow]
  simp only [Sha256.lengthBytes, List.range_succ, List.range_zero, List.nil_append, List.map_cons,
    List.map_nil, List.cons_append, BigEndian.bytes]
  simp (disch := omega) only [hbyte]
  norm_num

/-- Four bytes shifted into a word. -/
theorem shifted_toNat (b0 b1 b2 b3 : UInt8) :
    ((b0.toUInt32 <<< 24) ||| (b1.toUInt32 <<< 16) ||| (b2.toUInt32 <<< 8) ||| b3.toUInt32).toNat
      = BigEndian.number [b0, b1, b2, b3] := by
  have h0 := b0.toNat_lt
  have h1 := b1.toNat_lt
  have h2 := b2.toNat_lt
  have h3 := b3.toNat_lt
  have hplace : ∀ (byte : UInt8) (count : UInt32), count.toNat ≤ 24 →
      (byte.toUInt32 <<< count).toNat = 2 ^ count.toNat * byte.toNat := by
    intro byte count hcount
    have hbyte := byte.toNat_lt
    have hroom : 2 ^ count.toNat * byte.toNat < 2 ^ 32 := by
      calc 2 ^ count.toNat * byte.toNat ≤ 2 ^ 24 * byte.toNat :=
          Nat.mul_le_mul_right _ (Nat.pow_le_pow_right Nat.two_pos hcount)
        _ < 2 ^ 32 := by omega
    have hcount' : count.toNat % 32 = count.toNat := Nat.mod_eq_of_lt (by omega)
    rw [UInt32.toNat_shiftLeft, hcount', UInt8.toNat_toUInt32, Nat.shiftLeft_eq, Nat.mul_comm,
      Nat.mod_eq_of_lt hroom]
  have hfirst : 2 ^ 24 * b0.toNat ||| 2 ^ 16 * b1.toNat
      = 2 ^ 16 * (2 ^ 8 * b0.toNat + b1.toNat) := by
    rw [← Nat.two_pow_add_eq_or_of_lt (by omega)]
    omega
  have hsecond : 2 ^ 16 * (2 ^ 8 * b0.toNat + b1.toNat) ||| 2 ^ 8 * b2.toNat
      = 2 ^ 8 * (2 ^ 8 * (2 ^ 8 * b0.toNat + b1.toNat) + b2.toNat) := by
    rw [← Nat.two_pow_add_eq_or_of_lt (by omega)]
    omega
  rw [UInt32.toNat_or, UInt32.toNat_or, UInt32.toNat_or, hplace b0 24 (by decide),
    hplace b1 16 (by decide), hplace b2 8 (by decide), UInt8.toNat_toUInt32]
  change 2 ^ 24 * b0.toNat ||| 2 ^ 16 * b1.toNat ||| 2 ^ 8 * b2.toNat ||| b3.toNat = _
  rw [hfirst, hsecond, ← Nat.two_pow_add_eq_or_of_lt (by omega), BigEndian.number]
  simp only [List.foldl_cons, List.foldl_nil]
  omega

/-! ## One block -/

/-- Word `t` of the schedule, as the source has it. -/
def scheduled (block : List UInt8) (t : Nat) : UInt32 :=
  UInt32.ofBitVec (Sha2.scheduleWord block t)

theorem blockWord_eq {block : List UInt8} {t : Nat} (hblock : block.length = 64) (ht : t < 16) :
    blockWord block t = scheduled block t := by
  have hget : ∀ k < 4, block.getD (t * 4 + k) 0 = (block.drop (4 * t)).getD k 0 := by
    intro k _
    rw [List.getD_eq_getElem?_getD, List.getD_eq_getElem?_getD, List.getElem?_drop, Nat.mul_comm]
  obtain ⟨b0, b1, b2, b3, rest, hbytes⟩ : ∃ b0 b1 b2 b3 rest,
      block.drop (4 * t) = b0 :: b1 :: b2 :: b3 :: rest := by
    have hlength : 4 ≤ (block.drop (4 * t)).length := by
      rw [List.length_drop]
      omega
    rcases hdrop : block.drop (4 * t) with _ | ⟨b0, _ | ⟨b1, _ | ⟨b2, _ | ⟨b3, rest⟩⟩⟩⟩
    all_goals rw [hdrop] at hlength
    case cons.cons.cons.cons => exact ⟨b0, b1, b2, b3, rest, rfl⟩
    all_goals simp at hlength
  have hword : blockWord block t
      = (b0.toUInt32 <<< 24) ||| (b1.toUInt32 <<< 16) ||| (b2.toUInt32 <<< 8) ||| b3.toUInt32 := by
    rw [blockWord]
    dsimp only
    rw [hget 0 (by omega), hget 1 (by omega), hget 2 (by omega), hget 3 (by omega), hbytes]
    rfl
  apply UInt32.toNat_inj.mp
  have hnumber := shifted_toNat b0 b1 b2 b3
  rw [← hword] at hnumber
  have hlt : BigEndian.number [b0, b1, b2, b3] < 2 ^ 32 := hnumber ▸ (blockWord block t).toNat_lt
  rw [hnumber, scheduled, Sha2.scheduleWord, if_pos ht, Sha2.blockWord, hbytes]
  exact (Nat.mod_eq_of_lt hlt).symm

theorem nextScheduleWord_scheduled {block : List UInt8} {n : Nat} (hn : 16 ≤ n) :
    nextScheduleWord ((List.range n).map (scheduled block)) = scheduled block n := by
  have hback : ∀ back, 0 < back → back ≤ n →
      ((List.range n).map (scheduled block)).getD
        (((List.range n).map (scheduled block)).length - back) 0 = scheduled block (n - back) := by
    intro back hpos hle
    have hlt : n - back < ((List.range n).map (scheduled block)).length := by simp; omega
    rw [List.length_map, List.length_range, List.getD_eq_getElem _ _ hlt, List.getElem_map,
      List.getElem_range]
  have hscheduled : Sha2.scheduleWord block n
      = Sha2.lowerSigma1 (Sha2.scheduleWord block (n - 2)) + Sha2.scheduleWord block (n - 7)
        + Sha2.lowerSigma0 (Sha2.scheduleWord block (n - 15))
        + Sha2.scheduleWord block (n - 16) := by
    rw [Sha2.scheduleWord, if_neg (by omega)]
  rw [nextScheduleWord]
  dsimp only
  rw [hback 2 (by omega) (by omega), hback 7 (by omega) (by omega), hback 15 (by omega) (by omega),
    hback 16 (by omega) (by omega)]
  apply UInt32.toBitVec_inj.mp
  simp (disch := decide) only [UInt32.toBitVec_add, UInt32.toBitVec_xor, rotateRight_toBitVec]
  change Sha2.scheduleWord block (n - 16) + Sha2.lowerSigma0 (Sha2.scheduleWord block (n - 15))
    + Sha2.scheduleWord block (n - 7) + Sha2.lowerSigma1 (Sha2.scheduleWord block (n - 2)) = _
  rw [scheduled, hscheduled]
  ac_rfl

theorem foldl_nextScheduleWord {block : List UInt8} (hblock : block.length = 64) (count : Nat) :
    (List.range count).foldl (fun schedule _ => schedule ++ [nextScheduleWord schedule])
        ((List.range 16).map (blockWord block))
      = (List.range (16 + count)).map (scheduled block) := by
  induction count with
  | zero =>
    apply List.map_congr_left
    intro t ht
    exact blockWord_eq hblock (List.mem_range.mp ht)
  | succ count ih =>
    rw [List.range_succ (n := count), List.foldl_append, ih, List.foldl_cons, List.foldl_nil,
      nextScheduleWord_scheduled (by omega), ← Nat.add_assoc, List.range_succ, List.map_append]
    rfl

theorem messageSchedule_eq {block : List UInt8} (hblock : block.length = 64) :
    messageSchedule block = (List.range 64).map (scheduled block) :=
  foldl_nextScheduleWord hblock 48

theorem foldl_round_words (block : List UInt8) (rounds : List Nat) (s : Sha256Words) :
    (rounds.foldl
        (fun s t => s.round (UInt32.ofBitVec (Sha2.roundConstant t)) (scheduled block t)) s).words
      = rounds.foldl (fun s t => s.round (Sha2.roundConstant t) (Sha2.scheduleWord block t))
        s.words := by
  induction rounds generalizing s with
  | nil => rfl
  | cons t rounds ih =>
    rw [List.foldl_cons, ih, Sha256Words.words_round]
    rfl

theorem compress_words (state : Sha256Words) {block : List UInt8} (hblock : block.length = 64) :
    (compress state block).words = Sha2.compress state.words block := by
  rw [compress, Sha2.compress, Sha256Words.words_add, map_kRoundConstants,
    messageSchedule_eq hblock, List.zip_map', List.foldl_map, foldl_round_words]

theorem foldl_compress_words {bs : List (List UInt8)} (hblocks : ∀ block ∈ bs, block.length = 64)
    (state : Sha256Words) :
    (bs.foldl compress state).words = bs.foldl Sha2.compress state.words := by
  induction bs generalizing state with
  | nil => rfl
  | cons block bs ih =>
    rw [List.forall_mem_cons] at hblocks
    rw [List.foldl_cons, ih hblocks.2, compress_words state hblocks.1, List.foldl_cons]

/-! ## The hasher -/

theorem Sha256.update_absorb (s : Sha256) (data : List UInt8) :
    s.update data
      = { state := (data.foldl (BlockHash.absorb 64 compress) (s.state, s.buffer)).1,
          buffer := (data.foldl (BlockHash.absorb 64 compress) (s.state, s.buffer)).2,
          totalBytes := s.totalBytes + UInt64.ofNat data.length } := by
  induction data generalizing s with
  | nil => simp [update]
  | cons byte data ih =>
    have hpush : s.push byte
        = { state := (BlockHash.absorb 64 compress (s.state, s.buffer) byte).1,
            buffer := (BlockHash.absorb 64 compress (s.state, s.buffer) byte).2,
            totalBytes := s.totalBytes + 1 } := by
      rw [push, BlockHash.absorb]
      dsimp only
      split <;> rfl
    have hupdate : s.update (byte :: data) = (s.push byte).update data := rfl
    rw [hupdate, ih, hpush]
    dsimp only
    rw [List.foldl_cons, List.length_cons, Nat.add_comm data.length, UInt64.ofNat_add,
      UInt64.add_assoc]
    rfl

/-- After a message its blocks are compressed, and the rest is in the buffer. -/
theorem Sha256.update_eq (data : List UInt8) :
    ({} : Sha256).update data
      = { state := (blocks 64 data).foldl compress .initial, buffer := remainder 64 data,
          totalBytes := UInt64.ofNat data.length } := by
  rw [update_absorb, BlockHash.foldl_absorb (by omega), UInt64.zero_add]

/-- The buffer is padded to the last block or to the last two. -/
theorem Sha256.finish_eq {data : List UInt8} (hdata : data.length < 2 ^ 61) :
    ({ state := (blocks 64 data).foldl compress .initial, buffer := remainder 64 data,
       totalBytes := UInt64.ofNat data.length } : Sha256).finish
      = ((blocks 64 (Sha2.pad data)).foldl compress .initial).toList.flatMap wordBytes := by
  have hlength : lengthBytes (UInt64.ofNat data.length * 8)
      = BigEndian.bytes 8 (8 * data.length) := by
    have height : (8 : UInt64).toNat = 8 := rfl
    rw [lengthBytes_eq, UInt64.toNat_mul, UInt64.toNat_ofNat_of_lt' (hdata.trans (by decide)),
      height, Nat.mul_comm, Nat.mod_eq_of_lt (by omega)]
  have hmarked : (remainder 64 data ++ [0x80]).length = (remainder 64 data).length + 1 := by simp
  have htrailer : (BigEndian.bytes 8 (8 * data.length)).length = 8 := BigEndian.bytes_length ..
  rw [finish]
  dsimp only
  by_cases hfull : 56 < (remainder 64 data ++ [0x80]).length
  · rw [if_pos hfull, hlength, Sha2.pad, BlockHash.blocks_pad_long data (by omega) (by omega),
      List.foldl_append, htrailer]
    rfl
  · rw [if_neg hfull, hlength, Sha2.pad, BlockHash.blocks_pad_short (by omega) data (by omega),
      List.foldl_append, htrailer]
    rfl

/-! ## The digests -/

theorem sha256_eq_digest {data : List UInt8} (hdata : data.length < 2 ^ 61) :
    sha256 data = Sha2.digest data := by
  have hblocks : ∀ block ∈ blocks 64 (Sha2.pad data), block.length = 64 := by
    intro block hblock
    exact BlockHash.length_of_mem_blocks hblock
  rw [sha256, Sha256.update_eq, Sha256.finish_eq hdata, Sha2.digest, ← Sha256Words.words_initial,
    ← foldl_compress_words hblocks, Sha256Words.words_toList, List.flatMap_map]
  apply List.flatMap_congr
  intro word _
  exact wordBytes_eq word

/-- Bytes are shifted into a number that has room for them. -/
theorem foldl_shift_toNat {bs : List UInt8} {start : UInt64}
    (hroom : (start.toNat + 1) * 256 ^ bs.length ≤ 2 ^ 64) :
    (bs.foldl (fun (value : UInt64) byte => (value <<< 8) ||| byte.toUInt64) start).toNat
      = bs.foldl (fun value byte => 256 * value + byte.toNat) start.toNat := by
  induction bs generalizing start with
  | nil => rfl
  | cons byte bs ih =>
    have hbyte := byte.toNat_lt
    rw [List.length_cons, Nat.pow_succ, Nat.mul_comm _ 256, ← Nat.mul_assoc] at hroom
    have hpos : 0 < 256 ^ bs.length := Nat.pow_pos (by omega)
    have hshort : (start.toNat + 1) * 256 ≤ 2 ^ 64 := (Nat.le_mul_of_pos_right _ hpos).trans hroom
    have hnext : ((start <<< 8) ||| byte.toUInt64).toNat = 256 * start.toNat + byte.toNat := by
      rw [UInt64.toNat_or, UInt64.toNat_shiftLeft, UInt8.toNat_toUInt64]
      change start.toNat <<< 8 % 2 ^ 64 ||| byte.toNat = _
      rw [Nat.mod_eq_of_lt (by rw [Nat.shiftLeft_eq]; omega),
        ← Nat.shiftLeft_add_eq_or_of_lt hbyte, Nat.shiftLeft_eq]
      omega
    rw [List.foldl_cons, ih, hnext, List.foldl_cons]
    rw [hnext]
    exact (Nat.mul_le_mul_right _ (by omega)).trans hroom

theorem sha256Digest64_toNat (data : List UInt8) :
    (sha256Digest64 data).toNat = BigEndian.number ((sha256 data).take 8) := by
  have hlength : ((sha256 data).take 8).length ≤ 8 := by
    rw [List.length_take]
    exact Nat.min_le_left ..
  have hroom : 256 ^ ((sha256 data).take 8).length ≤ 256 ^ 8 :=
    Nat.pow_le_pow_right (by omega) hlength
  rw [sha256Digest64, foldl_shift_toNat]
  · rfl
  · change (0 + 1) * _ ≤ _
    omega

/-- The streaming hasher computes the digest of the standard: the message
padded to whole blocks, cut and compressed. The short digest is its first eight
bytes, read as a number. -/
theorem sha256_standard (data : List UInt8) :
    64 ∣ (Sha2.pad data).length
    ∧ (data.length < 2 ^ 61 → sha256 data = Sha2.digest data)
    ∧ (sha256Digest64 data).toNat = BigEndian.number ((sha256 data).take 8) :=
  ⟨Sha2.pad_whole data, sha256_eq_digest, sha256Digest64_toNat data⟩

/-- The digest of the letters a, b and c. -/
theorem digest_abc : Sha2.digest [97, 98, 99]
    = [0xba, 0x78, 0x16, 0xbf, 0x8f, 0x01, 0xcf, 0xea, 0x41, 0x41, 0x40, 0xde, 0x5d, 0xae, 0x22,
       0x23, 0xb0, 0x03, 0x61, 0xa3, 0x96, 0x17, 0x7a, 0x9c, 0xb4, 0x10, 0xff, 0x61, 0xf2, 0x00,
       0x15, 0xad] := by
  rw [← (sha256_standard [97, 98, 99]).2.1 (by decide)]
  decide +kernel

end EnsembleFabric

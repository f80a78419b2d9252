import Mathlib.Logic.Function.Iterate
import Mathlib.Tactic.Ring

/-!
# Checksums from a shift register

A cyclic redundancy check keeps a register of `w` bits. It moves down one
bit at a time; when the bit that falls out is set, the polynomial is added
(`shift`). A message is fed to it in chunks of `c` bits (`feed`).

The register is linear, and with a polynomial whose top bit is set it loses
nothing. So two messages that differ only within one register's width leave
it in different states (`burst_detected`), and of all chunks that may follow
a message only the complement of the register brings it to its last state
(`complement_iff`).

Hardware has no chunks: it compares one bit of the message after another
with the bit that falls out (`serial`). A chunk is its bits, the least
significant first (`feed_serial`).
-/

namespace ShiftRegister

variable {w c : Nat} (polynomial : BitVec w)

/-! ## One bit -/

def shift (value : BitVec w) : BitVec w :=
  if value.getLsbD 0 then (value >>> 1) ^^^ polynomial else value >>> 1

theorem shift_xor (a b : BitVec w) :
    shift polynomial (a ^^^ b) = shift polynomial a ^^^ shift polynomial b := by
  simp only [shift, BitVec.getLsbD_xor, BitVec.ushiftRight_xor_distrib]
  cases a.getLsbD 0 <;> cases b.getLsbD 0
  · rfl
  · exact BitVec.xor_assoc _ _ _
  · change (a >>> 1 ^^^ b >>> 1) ^^^ polynomial = (a >>> 1 ^^^ polynomial) ^^^ b >>> 1
    ac_rfl
  · -- the polynomial is added twice
    have hpair : (a >>> 1 ^^^ polynomial) ^^^ (b >>> 1 ^^^ polynomial)
        = (a >>> 1 ^^^ b >>> 1) ^^^ (polynomial ^^^ polynomial) := by ac_rfl
    change a >>> 1 ^^^ b >>> 1 = (a >>> 1 ^^^ polynomial) ^^^ (b >>> 1 ^^^ polynomial)
    rw [hpair, BitVec.xor_self, BitVec.xor_zero]

/-- Nothing but zero is moved to zero. -/
theorem eq_zero_of_shift {value : BitVec w} (htop : polynomial.getLsbD (w - 1) = true)
    (h : shift polynomial value = 0) : value = 0 := by
  have hbits : ∀ i, (shift polynomial value).getLsbD i = false := by
    intro i
    rw [h]
    exact BitVec.getLsbD_zero
  by_cases hlow : value.getLsbD 0 = true
  · have hlast := hbits (w - 1)
    rw [shift, if_pos hlow, BitVec.getLsbD_xor, BitVec.getLsbD_ushiftRight, htop,
      BitVec.getLsbD_of_ge _ _ (by omega)] at hlast
    cases hlast
  · apply BitVec.eq_of_getLsbD_eq
    intro i hi
    rw [show (0 : BitVec w).getLsbD i = false from BitVec.getLsbD_zero]
    cases i with
    | zero => exact Bool.eq_false_iff.mpr hlow
    | succ i =>
      have hbit := hbits i
      rw [shift, if_neg hlow, BitVec.getLsbD_ushiftRight, Nat.add_comm] at hbit
      exact hbit

theorem shift_injective (htop : polynomial.getLsbD (w - 1) = true) :
    (shift polynomial).Injective := by
  intro a b h
  have hzero : shift polynomial (a ^^^ b) = 0 := by
    rw [shift_xor, h]
    exact BitVec.xor_self
  exact BitVec.xor_eq_zero_iff.mp (eq_zero_of_shift polynomial htop hzero)

theorem iterate_xor (count : Nat) (a b : BitVec w) :
    (shift polynomial)^[count] (a ^^^ b)
      = (shift polynomial)^[count] a ^^^ (shift polynomial)^[count] b := by
  induction count generalizing a b with
  | zero => rfl
  | succ count ih =>
    rw [Function.iterate_succ_apply, Function.iterate_succ_apply, Function.iterate_succ_apply,
      shift_xor, ih]

/-- A value whose low bits are clear only moves down. -/
theorem iterate_clear (count : Nat) {value : BitVec w}
    (hclear : ∀ i < count, value.getLsbD i = false) :
    (shift polynomial)^[count] value = value >>> count := by
  induction count with
  | zero => exact (BitVec.ushiftRight_zero value).symm
  | succ count ih =>
    have hlow : (value >>> count).getLsbD 0 = false := by
      rw [BitVec.getLsbD_ushiftRight]
      exact hclear count (Nat.lt_succ_self count)
    rw [Function.iterate_succ_apply', ih fun i hi => hclear i (by omega), shift, hlow,
      if_neg Bool.false_ne_true, BitVec.shiftRight_add]

/-! ## Chunks -/

/-- A chunk is added at the low end and moved through. -/
def feed (value : BitVec w) (chunk : BitVec c) : BitVec w :=
  (shift polynomial)^[c] (value ^^^ chunk.setWidth w)

/-- The low chunk goes through a table, the rest of the register moves down. -/
theorem feed_table (value : BitVec w) (chunk : BitVec c) :
    feed polynomial value chunk
      = (shift polynomial)^[c] ((value ^^^ chunk.setWidth w) &&& BitVec.ofNat w (2 ^ c - 1))
        ^^^ (value >>> c) := by
  have hsplit : value ^^^ chunk.setWidth w
      = ((value ^^^ chunk.setWidth w) &&& BitVec.ofNat w (2 ^ c - 1))
        ^^^ ((value >>> c) <<< c) := by
    apply BitVec.eq_of_getLsbD_eq
    intro i hi
    simp only [BitVec.getLsbD_xor, BitVec.getLsbD_and, BitVec.getLsbD_ofNat,
      Nat.testBit_two_pow_sub_one, BitVec.getLsbD_shiftLeft, BitVec.getLsbD_ushiftRight]
    by_cases hlow : i < c
    · simp [hi, hlow]
    · have hclear : chunk.getLsbD i = false := BitVec.getLsbD_of_ge chunk i (by omega)
      have hplace : c + (i - c) = i := by omega
      simp [hi, hlow, hclear, hplace]
  have hdown : ((value >>> c) <<< c) >>> c = value >>> c := by
    apply BitVec.eq_of_getLsbD_eq
    intro i hi
    simp only [BitVec.getLsbD_ushiftRight, BitVec.getLsbD_shiftLeft, Nat.add_sub_cancel_left]
    by_cases hroom : c + i < w
    · simp [hroom]
    · simp [hroom, BitVec.getLsbD_of_ge value (c + i) (by omega)]
  have hclear : ∀ i < c, ((value >>> c) <<< c).getLsbD i = false := by
    intro i hi
    rw [BitVec.getLsbD_shiftLeft]
    simp [hi]
  rw [feed, hsplit, iterate_xor, iterate_clear polynomial c hclear, hdown, ← hsplit]

/-- The number in a list of chunks, the first of them least significant. -/
def number : List (BitVec c) → Nat
  | [] => 0
  | chunk :: rest => chunk.toNat + 2 ^ c * number rest

theorem number_lt (chunks : List (BitVec c)) : number chunks < 2 ^ (c * chunks.length) := by
  induction chunks with
  | nil => exact Nat.one_pos
  | cons chunk rest ih =>
    have hchunk := chunk.isLt
    calc number (chunk :: rest) < 2 ^ c + 2 ^ c * number rest := Nat.add_lt_add_right hchunk _
      _ = 2 ^ c * (number rest + 1) := by ring
      _ ≤ 2 ^ c * 2 ^ (c * rest.length) := Nat.mul_le_mul_left _ ih
      _ = 2 ^ (c * (chunk :: rest).length) := by rw [← pow_add, List.length_cons]; ring

theorem number_injective {chunks others : List (BitVec c)} (hlength : others.length = chunks.length)
    (h : number others = number chunks) : others = chunks := by
  induction chunks generalizing others with
  | nil => exact List.eq_nil_of_length_eq_zero hlength
  | cons chunk rest ih =>
    cases others with
    | nil => cases hlength
    | cons other others =>
      have hpos := Nat.two_pow_pos c
      rw [number, number] at h
      have hfirst : other.toNat = chunk.toNat := by
        have hmod := congrArg (· % 2 ^ c) h
        simpa only [Nat.add_mul_mod_self_left, Nat.mod_eq_of_lt other.isLt,
          Nat.mod_eq_of_lt chunk.isLt] using hmod
      rw [hfirst] at h
      rw [BitVec.eq_of_toNat_eq hfirst,
        ih (Nat.succ.inj hlength) (Nat.eq_of_mul_eq_mul_left hpos (Nat.add_left_cancel h))]

/-- The first chunk, and the others moved up behind it. -/
theorem ofNat_number_cons (chunk : BitVec c) (rest : List (BitVec c)) :
    BitVec.ofNat w (number (chunk :: rest))
      = chunk.setWidth w ^^^ (BitVec.ofNat w (number rest) <<< c) := by
  apply BitVec.eq_of_getLsbD_eq
  intro i hi
  rw [number, Nat.add_comm, BitVec.getLsbD_xor, BitVec.getLsbD_setWidth, BitVec.getLsbD_shiftLeft,
    BitVec.getLsbD_ofNat, BitVec.getLsbD_ofNat, Nat.testBit_two_pow_mul_add _ chunk.isLt]
  by_cases hlow : i < c
  · simp [hi, hlow, BitVec.testBit_toNat]
  · have hclear : chunk.getLsbD i = false := BitVec.getLsbD_of_ge _ _ (by omega)
    have hi' : i - c < w := by omega
    simp [hi, hlow, hclear, hi']

/-- Chunks moved up and through again. -/
theorem iterate_up {n : Nat} (h : n < 2 ^ (w - c)) (hc : c ≤ w) :
    (shift polynomial)^[c] (BitVec.ofNat w n <<< c) = BitVec.ofNat w n := by
  rw [iterate_clear polynomial c]
  · apply BitVec.eq_of_getLsbD_eq
    intro i hi
    rw [BitVec.getLsbD_ushiftRight, BitVec.getLsbD_shiftLeft, BitVec.getLsbD_ofNat,
      BitVec.getLsbD_ofNat]
    by_cases hroom : c + i < w
    · simp [hroom, hi]
    · have hclear : n.testBit i = false := Nat.testBit_lt_two_pow
        (h.trans_le (Nat.pow_le_pow_right Nat.two_pos (by omega)))
      simp [hclear]
  · intro i hi
    rw [BitVec.getLsbD_shiftLeft]
    simp [hi]

/-- As long as they fit into the register, chunks are fed like one. -/
theorem foldl_feed {chunks : List (BitVec c)} (hfits : c * chunks.length ≤ w) (value : BitVec w) :
    chunks.foldl (feed polynomial) value
      = (shift polynomial)^[c * chunks.length] (value ^^^ BitVec.ofNat w (number chunks)) := by
  induction chunks generalizing value with
  | nil => exact (BitVec.xor_zero).symm
  | cons chunk rest ih =>
    rw [List.length_cons, Nat.mul_succ] at hfits
    have hrest : number rest < 2 ^ (w - c) := (number_lt rest).trans_le
      (Nat.pow_le_pow_right Nat.two_pos (by omega))
    rw [List.foldl_cons, ih (by omega), feed, ofNat_number_cons, ← BitVec.xor_assoc,
      List.length_cons, Nat.mul_succ, Function.iterate_add_apply,
      iterate_xor polynomial c (value ^^^ chunk.setWidth w), iterate_up polynomial hrest (by omega)]

theorem feed_injective (htop : polynomial.getLsbD (w - 1) = true) (chunk : BitVec c) :
    (fun value => feed polynomial value chunk).Injective := by
  intro a b h
  have hsum := (shift_injective polynomial htop).iterate c h
  simpa using congrArg (· ^^^ chunk.setWidth w) hsum

theorem foldl_feed_injective (htop : polynomial.getLsbD (w - 1) = true) (chunks : List (BitVec c)) :
    (fun value => chunks.foldl (feed polynomial) value).Injective := by
  induction chunks with
  | nil => exact fun a b h => h
  | cons chunk rest ih => exact fun a b h => feed_injective polynomial htop chunk (ih h)

/-! ## Bit by bit -/

/-- One bit of the message is compared with the bit that falls out. -/
def serial (value : BitVec w) (bit : Bool) : BitVec w :=
  if value.getLsbD 0 != bit then (value >>> 1) ^^^ polynomial else value >>> 1

/-- The bits of a chunk, the least significant first. -/
def bits (chunk : BitVec c) : List Bool := (List.range c).map chunk.getLsbD

/-- The checksum of a message of bits: the register starts with `init`, and
`out` is added to what it ends with. -/
def crc (init out : BitVec w) (message : List Bool) : BitVec w :=
  message.foldl (serial polynomial) init ^^^ out

theorem feed_ofBool (hw : 0 < w) (value : BitVec w) (bit : Bool) :
    feed polynomial value (BitVec.ofBool bit) = serial polynomial value bit := by
  have hlow : (value ^^^ (BitVec.ofBool bit).setWidth w).getLsbD 0 = (value.getLsbD 0 != bit) := by
    rw [BitVec.getLsbD_xor, BitVec.getLsbD_setWidth]
    cases bit <;> simp [hw]
  have hrest : (value ^^^ (BitVec.ofBool bit).setWidth w) >>> 1 = value >>> 1 := by
    apply BitVec.eq_of_getLsbD_eq
    intro i hi
    have hclear : (BitVec.ofBool bit).getLsbD (1 + i) = false :=
      BitVec.getLsbD_of_ge _ _ (by omega)
    rw [BitVec.getLsbD_ushiftRight, BitVec.getLsbD_xor, BitVec.getLsbD_setWidth, hclear,
      Bool.and_false, Bool.xor_false, BitVec.getLsbD_ushiftRight]
  rw [feed, Function.iterate_one, shift, hlow, hrest, serial]

theorem number_bits (count n : Nat) :
    number ((List.range count).map fun i => BitVec.ofBool (n.testBit i)) = n % 2 ^ count := by
  induction count generalizing n with
  | zero => rw [pow_zero, Nat.mod_one]; rfl
  | succ count ih =>
    have hlow : (BitVec.ofBool (n.testBit 0)).toNat = n % 2 := by
      rw [Nat.testBit_zero]
      rcases Nat.mod_two_eq_zero_or_one n with hbit | hbit <;> rw [hbit] <;> rfl
    have hrest : (List.range count).map (fun i => BitVec.ofBool (n.testBit (i + 1)))
        = (List.range count).map fun i => BitVec.ofBool ((n / 2).testBit i) := by
      simp only [Nat.testBit_succ]
    rw [List.range_succ_eq_map, List.map_cons, List.map_map, number, hlow]
    change n % 2 + 2 ^ 1
      * number ((List.range count).map fun i => BitVec.ofBool (n.testBit (i + 1))) = _
    rw [hrest, ih, pow_one, pow_succ', Nat.mod_mul]

/-- A chunk that fits into the register is fed bit by bit. -/
theorem feed_serial (hc : c ≤ w) (value : BitVec w) (chunk : BitVec c) :
    feed polynomial value chunk = (bits chunk).foldl (serial polynomial) value := by
  cases c with
  | zero =>
    have hempty : chunk.setWidth w = 0#w := by
      rw [BitVec.eq_nil chunk]
      rfl
    rw [feed, hempty, BitVec.xor_zero]
    rfl
  | succ c =>
    have hw : 0 < w := by omega
    have hbits : (bits chunk).foldl (serial polynomial) value
        = ((bits chunk).map BitVec.ofBool).foldl (feed polynomial) value := by
      simp only [List.foldl_map, feed_ofBool polynomial hw]
    have hlength : ((bits chunk).map BitVec.ofBool).length = c + 1 := by simp [bits]
    have hnumber : number ((bits chunk).map BitVec.ofBool) = chunk.toNat := by
      rw [bits, List.map_map]
      exact (number_bits (c + 1) chunk.toNat).trans (Nat.mod_eq_of_lt chunk.isLt)
    rw [hbits, foldl_feed polynomial (by omega), hlength, hnumber, Nat.one_mul, feed,
      BitVec.ofNat_toNat]

/-- A message of chunks is fed bit by bit. -/
theorem foldl_feed_serial (hc : c ≤ w) (chunks : List (BitVec c)) (value : BitVec w) :
    chunks.foldl (feed polynomial) value
      = (chunks.flatMap bits).foldl (serial polynomial) value := by
  induction chunks generalizing value with
  | nil => rfl
  | cons chunk rest ih =>
    rw [List.foldl_cons, ih, List.flatMap_cons, List.foldl_append, feed_serial polynomial hc]

/-! ## Detection -/

/-- The number of a window that fits into the register is in it. -/
theorem window_detected (htop : polynomial.getLsbD (w - 1) = true)
    {window other : List (BitVec c)} (hlength : other.length = window.length)
    (hfits : c * window.length ≤ w) (value : BitVec w)
    (h : other.foldl (feed polynomial) value = window.foldl (feed polynomial) value) :
    other = window := by
  rw [foldl_feed polynomial hfits, foldl_feed polynomial (hlength ▸ hfits), hlength] at h
  have hsum := (shift_injective polynomial htop).iterate _ h
  have hnumber := congrArg BitVec.toNat ((BitVec.xor_right_inj value).mp hsum)
  have hroom := Nat.pow_le_pow_right Nat.two_pos hfits
  rw [BitVec.toNat_ofNat, BitVec.toNat_ofNat, Nat.mod_eq_of_lt ((number_lt window).trans_le hroom),
    Nat.mod_eq_of_lt ((number_lt other).trans_le (hlength ▸ hroom))] at hnumber
  exact number_injective hlength hnumber

/-- Messages that differ only in a window of the register's width leave the
register in different states. -/
theorem burst_detected (htop : polynomial.getLsbD (w - 1) = true)
    {before window other after : List (BitVec c)} (hlength : other.length = window.length)
    (hfits : c * window.length ≤ w) (hne : other ≠ window) (value : BitVec w) :
    (before ++ other ++ after).foldl (feed polynomial) value
      ≠ (before ++ window ++ after).foldl (feed polynomial) value := by
  intro h
  simp only [List.foldl_append] at h
  have hwindow := foldl_feed_injective polynomial htop after h
  exact hne (window_detected polynomial htop hlength hfits _ hwindow)

/-- Only the complement of the register fills it with ones. -/
theorem complement_iff (htop : polynomial.getLsbD (w - 1) = true) {chunks : List (BitVec c)}
    (hfits : c * chunks.length ≤ w) (value : BitVec w) :
    chunks.foldl (feed polynomial) value
        = (shift polynomial)^[c * chunks.length] (BitVec.allOnes w)
      ↔ BitVec.ofNat w (number chunks) = ~~~ value := by
  rw [foldl_feed polynomial hfits, ((shift_injective polynomial htop).iterate _).eq_iff]
  constructor
  · intro h
    rw [← BitVec.xor_allOnes, BitVec.xor_comm value, ← h, BitVec.xor_comm value, BitVec.xor_assoc,
      BitVec.xor_self, BitVec.xor_zero]
  · intro h
    rw [h, ← BitVec.xor_allOnes, ← BitVec.xor_assoc, BitVec.xor_self, BitVec.zero_xor]

end ShiftRegister

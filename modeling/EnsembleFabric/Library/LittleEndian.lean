import Mathlib.Data.List.Basic
import Mathlib.Tactic.Ring

/-!
# Little-endian words at fixed places of a buffer

A word of `width` bytes is written with its least significant byte
first. `slice` reads a region of a buffer and `overwrite` replaces one:
a buffer that was put together from consecutive regions gives each of
them back, and is the concatenation of what is read at their places.

Words and bytes are inverse in both directions. A number is read back as
its residue modulo the capacity of the width (`word_bytes`), so as itself
where it fits (`word_bytes_of_lt`); the bytes of a region are those of
the number in it (`bytes_word`), so two encodings of one width that are
read as the same number are the same bytes.

The lemmas about regions are what a fixed layout needs and no more: a
region at the front, behind it, and one that is written over between two
others.
-/

namespace LittleEndian

/-! ## Words -/

/-- The `width` bytes of a number. What does not fit is dropped. -/
def bytes : Nat → Nat → List UInt8
  | 0, _ => []
  | width + 1, value => UInt8.ofNat value :: bytes width (value / 256)

/-- The number in a list of bytes. -/
def word : List UInt8 → Nat
  | [] => 0
  | byte :: rest => byte.toNat + 256 * word rest

@[simp] theorem bytes_length (width value : Nat) : (bytes width value).length = width := by
  induction width generalizing value with
  | zero => rfl
  | succ width ih => rw [bytes, List.length_cons, ih]

theorem word_bytes (width value : Nat) : word (bytes width value) = value % 256 ^ width := by
  induction width generalizing value with
  | zero => rw [bytes, word, pow_zero, Nat.mod_one]
  | succ width ih =>
    have hbyte : (UInt8.ofNat value).toNat = value % 256 := UInt8.toNat_ofNat'
    rw [bytes, word, ih, hbyte, pow_succ', Nat.mod_mul]

theorem word_bytes_of_lt {width value : Nat} (h : value < 256 ^ width) :
    word (bytes width value) = value := by
  rw [word_bytes, Nat.mod_eq_of_lt h]

theorem word_lt (bs : List UInt8) : word bs < 256 ^ bs.length := by
  induction bs with
  | nil => exact Nat.one_pos
  | cons byte rest ih =>
    have hbyte : byte.toNat < 256 := byte.toNat_lt
    rw [word, List.length_cons, pow_succ]
    omega

theorem bytes_word (bs : List UInt8) : bytes bs.length (word bs) = bs := by
  induction bs with
  | nil => rfl
  | cons byte rest ih =>
    have hbyte : byte.toNat < 256 := byte.toNat_lt
    rw [List.length_cons, word, bytes]
    congr 1
    · apply UInt8.toNat_inj.mp
      rw [UInt8.toNat_ofNat']
      omega
    · rw [Nat.add_mul_div_left _ _ (by omega), Nat.div_eq_of_lt hbyte, Nat.zero_add, ih]

theorem bytes_word_of_length {width : Nat} {bs : List UInt8} (h : bs.length = width) :
    bytes width (word bs) = bs := by
  subst h
  exact bytes_word bs

/-! ## Regions of a buffer -/

variable {α : Type*}

/-- The region of `width` elements from `offset`. -/
def slice (buffer : List α) (offset width : Nat) : List α := (buffer.drop offset).take width

/-- The buffer with `patch` written at `offset`. -/
def overwrite (buffer : List α) (offset : Nat) (patch : List α) : List α :=
  buffer.take offset ++ patch ++ buffer.drop (offset + patch.length)

theorem slice_length {buffer : List α} {offset width : Nat} (h : offset + width ≤ buffer.length) :
    (slice buffer offset width).length = width := by
  rw [slice, List.length_take, List.length_drop]
  omega

/-- A region and what starts where it ends. -/
theorem slice_append_drop {buffer : List α} {offset width next : Nat} (h : offset + width = next) :
    slice buffer offset width ++ buffer.drop next = buffer.drop offset := by
  rw [slice, ← h, ← List.drop_drop, List.take_append_drop]

/-- A region that ends before the first part does is a region of the first part. -/
theorem slice_append_left {first second : List α} {offset width : Nat}
    (h : offset + width ≤ first.length) :
    slice (first ++ second) offset width = slice first offset width := by
  rw [slice, slice, List.drop_append_of_le_length (by omega), List.take_append_of_le_length]
  rw [List.length_drop]
  omega

/-- A region that starts after the first part is a region of the second. -/
theorem slice_append_right {first second : List α} {offset width : Nat}
    (h : first.length ≤ offset) :
    slice (first ++ second) offset width = slice second (offset - first.length) width := by
  rw [slice, slice, List.drop_append, List.drop_eq_nil_of_le h, List.nil_append]

theorem slice_whole {buffer : List α} {width : Nat} (h : buffer.length = width) :
    slice buffer 0 width = buffer := by
  rw [slice, List.drop_zero, List.take_of_length_le h.le]

/-- Writing the next region of a buffer that is blank from there on. -/
theorem overwrite_blank {written patch : List α} {offset blank : Nat} (a : α)
    (hoffset : written.length = offset) (hpatch : patch.length ≤ blank) :
    overwrite (written ++ List.replicate blank a) offset patch
      = written ++ patch ++ List.replicate (blank - patch.length) a := by
  subst hoffset
  rw [overwrite, List.take_left, List.drop_append, List.drop_eq_nil_of_le (by omega),
    List.nil_append, List.drop_replicate]
  congr 2
  omega

/-- Writing over a region between two others. -/
theorem overwrite_middle {first old last patch : List α} {offset : Nat}
    (hoffset : first.length = offset) (hpatch : patch.length = old.length) :
    overwrite (first ++ old ++ last) offset patch = first ++ patch ++ last := by
  subst hoffset
  rw [overwrite, List.append_assoc first old last, List.take_left, List.drop_append,
    List.drop_eq_nil_of_le (by omega), List.nil_append, Nat.add_sub_cancel_left, hpatch,
    List.drop_left]

end LittleEndian

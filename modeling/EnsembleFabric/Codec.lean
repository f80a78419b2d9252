import Mathlib.Data.List.Induction
import EnsembleFabric.Library.ExactReader
import EnsembleFabric.Outcome
import EnsembleFabric.Limits
import EnsembleFabric.Text

/-!
# The bounded codec

State files and messages are written by an `Encoder` and read by a
`Decoder` (`persistence.cpp`). The encoder keeps its buffer within the
configured size, so what is written past it is not what was to be written;
the decoder refuses what is truncated or larger than its caller allows. A
string is the list of its bytes.

An encoder is a list of writes, and `buffer` is what a new encoder holds
after them. Where a run of bytes does not fit, the source brings the buffer
to the configured size, cut or filled up with zeros, and goes on. So an
encoding is whole if everything fits (`buffer_eq`), and one that is not is
at least as long as the configured size (`buffer_eq_or_full`). These lemmas
say what can be concluded from the length of an encoding.

A decoder is a reader of `ExactReader`. For each thing it reads there is
one lemma that says it reads exactly what the encoder writes (`u8_exact`,
`word_exact`, `counted_exact`), and one that says it reads nothing else.
-/

namespace EnsembleFabric

open Write (flat)

/-! ## Encoder -/

namespace Encoder

def u8 (value : UInt8) : List Write := [.byte value]

def u16 (value : UInt16) : List Write := [.raw (LittleEndian.bytes 2 value.toNat)]

def u32 (value : UInt32) : List Write := [.raw (LittleEndian.bytes 4 value.toNat)]

def u64 (value : UInt64) : List Write := [.raw (LittleEndian.bytes 8 value.toNat)]

def boolean (value : Bool) : List Write := u8 (if value then 1 else 0)

def i64 (value : Int) : List Write := u64 (Int64.ofInt value).toUInt64

/-- A number that the source keeps in 32 bits. -/
def counter (value : Nat) : List Write := u32 (UInt32.ofNat value)

def f64 (value : Double) : List Write := u64 value.bits

def bytes (value : List UInt8) : List Write :=
  u32 (UInt32.ofNat value.length) ++ [.raw value]

def string (value : List UInt8) : List Write :=
  u32 (UInt32.ofNat value.length) ++ [.raw value]

/-- The elements of a list behind their count. -/
def list {α : Type} (put : α → List Write) (values : List α) : List Write :=
  u32 (UInt32.ofNat values.length) ++ values.flatMap put

/-- `std::vector::resize`: cut, or filled up with zeros. -/
def resize (buffer : List UInt8) (size : Nat) : List UInt8 :=
  buffer.take size ++ List.replicate (size - buffer.length) 0

/-- `require_capacity` -/
def requireCapacity (limits : Limits) (buffer : List UInt8) (additional : Nat) : List UInt8 :=
  let cap := limits.maxPersistenceBytes.toNat
  if cap < additional || cap - additional < buffer.length then resize buffer cap else buffer

/-- A byte is pushed without a look at the capacity; everything else goes
through `raw`. -/
def append (limits : Limits) (buffer : List UInt8) : Write → List UInt8
  | .byte value => buffer ++ [value]
  | .raw value => requireCapacity limits buffer value.length ++ value

/-- The buffer of a new encoder after some writes. Where a run of bytes does not
fit, the buffer in front of it is brought to the configured size first. -/
def buffer (limits : Limits) (writes : List Write) : List UInt8 :=
  writes.foldl (append limits) []

theorem append_of_fits {limits : Limits} {buffer : List UInt8} {w : Write}
    (h : (buffer ++ w.bytes).length ≤ limits.maxPersistenceBytes.toNat) :
    append limits buffer w = buffer ++ w.bytes := by
  cases w with
  | byte => rfl
  | raw value =>
    rw [List.length_append, Write.bytes] at h
    rw [append, requireCapacity, if_neg, Write.bytes]
    simp only [Bool.or_eq_true, decide_eq_true_eq, not_or]
    omega

/-- Within the configured size, everything that is written is in the buffer. -/
theorem buffer_eq {limits : Limits} {writes : List Write}
    (h : (flat writes).length ≤ limits.maxPersistenceBytes.toNat) :
    buffer limits writes = flat writes := by
  have happends : ∀ (start : List UInt8), (start ++ flat writes).length
      ≤ limits.maxPersistenceBytes.toNat →
      writes.foldl (append limits) start = start ++ flat writes := by
    clear h
    induction writes with
    | nil => exact fun start _ => (List.append_nil start).symm
    | cons w writes ih =>
      intro start hroom
      rw [Write.flat_cons, ← List.append_assoc] at hroom ⊢
      rw [List.foldl_cons, append_of_fits, ih _ hroom]
      rw [List.length_append] at hroom
      omega
  exact happends [] h

/-! ### What an encoder keeps -/

section Kept

variable {limits : Limits}

theorem buffer_append (writes : List Write) (w : Write) :
    buffer limits (writes ++ [w]) = append limits (buffer limits writes) w := by
  rw [buffer, List.foldl_append, List.foldl_cons, List.foldl_nil, buffer]

theorem resize_length (bytes : List UInt8) (size : Nat) : (resize bytes size).length = size := by
  rw [resize, List.length_append, List.length_take, List.length_replicate]
  omega

theorem resize_self (bytes : List UInt8) : resize bytes bytes.length = bytes := by
  rw [resize, List.take_length, Nat.sub_self, List.replicate_zero, List.append_nil]

/-- An encoder that has lost something is full. -/
theorem buffer_eq_or_full (writes : List Write) :
    buffer limits writes = flat writes
      ∨ limits.maxPersistenceBytes.toNat ≤ (buffer limits writes).length := by
  induction writes using List.reverseRecOn with
  | nil => exact .inl rfl
  | append_singleton writes w ih =>
    rw [buffer_append, Write.flat_append]
    cases w with
    | byte value =>
      rcases ih with heq | hfull
      · exact .inl (by rw [append, heq]; rfl)
      · right
        rw [append, List.length_append]
        omega
    | raw value =>
      rw [append, requireCapacity]
      split
      · right
        rw [List.length_append, resize_length]
        omega
      · rename_i hfits
        simp only [Bool.or_eq_true, decide_eq_true_eq, not_or] at hfits
        rcases ih with heq | hfull
        · exact .inl (by rw [heq, Write.flat_cons, Write.flat_nil, List.append_nil, Write.bytes])
        · right
          rw [List.length_append]
          omega

theorem buffer_eq_of_lt {writes : List Write}
    (h : (buffer limits writes).length < limits.maxPersistenceBytes.toNat) :
    buffer limits writes = flat writes :=
  (buffer_eq_or_full writes).resolve_right (Nat.not_le.mpr h)

/-- What ends with a run of bytes is kept if all of it fits, or if nothing
else is missing when the buffer is full. -/
theorem buffer_raw_eq {writes : List Write} {last : List UInt8} :
    buffer limits (writes ++ [.raw last]) = flat (writes ++ [.raw last])
      ↔ (flat writes).length + last.length ≤ limits.maxPersistenceBytes.toNat
        ∨ (flat writes).length = limits.maxPersistenceBytes.toNat := by
  have hflat : flat (writes ++ [.raw last]) = flat writes ++ last := by
    rw [Write.flat_append, Write.flat_cons, Write.flat_nil, List.append_nil, Write.bytes]
  rw [buffer_append, append, hflat, List.append_left_inj, requireCapacity]
  constructor
  · intro h
    split at h
    · right
      rw [← h, resize_length]
    · rename_i hfits
      simp only [Bool.or_eq_true, decide_eq_true_eq, not_or] at hfits
      rw [← h]
      omega
  · intro h
    have heq : buffer limits writes = flat writes := buffer_eq (by omega)
    rw [heq]
    split
    · rename_i hover
      simp only [Bool.or_eq_true, decide_eq_true_eq] at hover
      rw [show limits.maxPersistenceBytes.toNat = (flat writes).length by omega, resize_self]
    · rfl

/-- What ends with a run of bytes and is no longer than the configured size
has lost nothing. -/
theorem buffer_eq_of_le {writes : List Write} {last : List UInt8} (hlast : last ≠ [])
    (h : (buffer limits (writes ++ [.raw last])).length ≤ limits.maxPersistenceBytes.toNat) :
    buffer limits (writes ++ [.raw last]) = flat (writes ++ [.raw last]) := by
  have hpositive : 0 < last.length := List.length_pos_of_ne_nil hlast
  rw [buffer_append, append, List.length_append, requireCapacity] at h
  split at h
  · rw [resize_length] at h
    omega
  · have hfront : buffer limits writes = flat writes := buffer_eq_of_lt (by omega)
    rw [hfront] at h
    exact buffer_raw_eq.mpr (.inl h)

end Kept

end Encoder

/-! ## Decoder -/

/-- The state of a decoder is what it has not read yet. -/
abbrev Decoder := Reader Error

namespace Decoder

/-- The decoder fails with a typed error. -/
def failed {α : Type} (code : EnsembleError) (message : String) : Decoder α :=
  throw ⟨code, message⟩

def u8 : Decoder UInt8 := Reader.byte ⟨.malformedPersistence, "truncated: expected a byte"⟩

def u16 : Decoder UInt16 := do
  let value ← Reader.word 2 ⟨.malformedPersistence, "truncated: expected u16"⟩
  return UInt16.ofNat value

def u32 : Decoder UInt32 := do
  let value ← Reader.word 4 ⟨.malformedPersistence, "truncated: expected u32"⟩
  return UInt32.ofNat value

def u64 : Decoder UInt64 := do
  let value ← Reader.word 8 ⟨.malformedPersistence, "truncated: expected u64"⟩
  return UInt64.ofNat value

def boolean : Decoder Bool := do
  let value ← u8
  if 1 < value then
    failed .malformedPersistence "boolean field holds an invalid value"
  else
    return value == 1

def i64 : Decoder Int := do
  let value ← u64
  return value.toInt64.toInt

def counter : Decoder Nat := do
  let value ← u32
  return value.toNat

def f64 : Decoder Double := do
  let bits ← u64
  return ⟨bits⟩

def raw (count : Nat) : Decoder (List UInt8) :=
  Reader.take count
    ⟨.malformedPersistence, "truncated: declared length exceeds the remaining input"⟩

def bytes (maxBytes : UInt32) : Decoder (List UInt8) := do
  let length ← u32
  if maxBytes < length then
    failed .payloadTooLarge "declared byte string exceeds the configured bound"
  else
    raw length.toNat

def string (maxBytes : UInt32) : Decoder (List UInt8) := do
  let length ← u32
  if maxBytes < length then
    failed .payloadTooLarge "declared string exceeds the configured bound"
  else
    raw length.toNat

/-- A count within a bound, and so many elements. -/
def list {α : Type} (bound : UInt32) (message : String) (p : Decoder α) : Decoder (List α) := do
  let count ← u32
  if bound < count then
    failed .resourceLimitExceeded message
  else
    p.times count.toNat

/-- The errors of the reader name what was read. -/
def labelled {α : Type} (what : String) (p : Decoder α) : Decoder α :=
  p.relabel fun e => ⟨e.code, what ++ ": " ++ e.message⟩

/-! ### What the decoder reads is what the encoder writes -/

theorem u8_exact : Exact u8 (fun _ => True) Encoder.u8 := Exact.byte _

/-- A word of a machine type is read whatever its value. -/
theorem word_exact {α : Type} {width : Nat} {e : Error} {load : Nat → α} {store : α → Nat}
    (hlt : ∀ a, store a < 256 ^ width) (hload : ∀ a, load (store a) = a)
    (hstore : ∀ n, n < 256 ^ width → store (load n) = n) :
    Exact (do let value ← Reader.word width e; return load value : Decoder α) (fun _ => True)
      fun a => [.raw (LittleEndian.bytes width (store a))] := by
  refine .congr (.convert store (fun _ => True) (Exact.word width e) fun n hn => .known fun a => ?_)
    fun a => ?_
  · rw [and_true]
    constructor
    · rintro rfl
      exact (hload a).symm
    · rintro rfl
      exact hstore n hn
  · rw [and_true, iff_true]
    exact hlt a

theorem u16_exact : Exact u16 (fun _ => True) Encoder.u16 :=
  word_exact (fun a => a.toNat_lt) (fun _ => UInt16.ofNat_toNat)
    fun _ hn => UInt16.toNat_ofNat_of_lt' hn

theorem u32_exact : Exact u32 (fun _ => True) Encoder.u32 :=
  word_exact (fun a => a.toNat_lt) (fun _ => UInt32.ofNat_toNat)
    fun _ hn => UInt32.toNat_ofNat_of_lt' hn

theorem u64_exact : Exact u64 (fun _ => True) Encoder.u64 :=
  word_exact (fun a => a.toNat_lt) (fun _ => UInt64.ofNat_toNat)
    fun _ hn => UInt64.toNat_ofNat_of_lt' hn

theorem boolean_exact : Exact boolean (fun _ => True) Encoder.boolean := by
  refine .congr
    (.convert (fun b : Bool => if b then 1 else 0) (fun _ => True) u8_exact fun value _ => ?_)
    fun _ => and_self_iff
  split
  · rename_i hlarge
    refine .refused fun b hb => ?_
    subst hb
    revert hlarge
    cases b <;> decide
  · rename_i hsmall
    have hvalue : value = 0 ∨ value = 1 := by
      rw [UInt8.lt_iff_toNat_lt, show (1 : UInt8).toNat = 1 from rfl] at hsmall
      rw [← UInt8.toNat_inj, ← UInt8.toNat_inj]
      change value.toNat = 0 ∨ value.toNat = 1
      omega
    refine .known fun b => ?_
    rcases hvalue with rfl | rfl <;> cases b <;> decide

theorem i64_exact : Exact i64 (fun value => -2 ^ 63 ≤ value ∧ value < 2 ^ 63) Encoder.i64 := by
  refine .congr (.convert (fun value => (Int64.ofInt value).toUInt64)
    (fun value => -2 ^ 63 ≤ value ∧ value < 2 ^ 63) u64_exact fun word _ => .known fun value => ?_)
    fun _ => by rw [true_and]
  constructor
  · rintro ⟨rfl, hlow, hhigh⟩
    rw [Int64.toInt64_toUInt64]
    exact (Int64.toInt_ofInt_of_le hlow hhigh).symm
  · rintro rfl
    refine ⟨?_, Int64.le_toInt _, Int64.toInt_lt _⟩
    rw [Int64.ofInt_toInt, UInt64.toUInt64_toInt64]

theorem counter_exact : Exact counter (fun value => value < 2 ^ 32) Encoder.counter := by
  refine .congr (.convert UInt32.ofNat (fun value => value < 2 ^ 32) u32_exact fun word _ =>
    .known fun value => ?_) fun _ => by rw [true_and]
  constructor
  · rintro ⟨rfl, hlt⟩
    exact (UInt32.toNat_ofNat_of_lt' hlt).symm
  · rintro rfl
    exact ⟨UInt32.ofNat_toNat, word.toNat_lt⟩

theorem f64_exact : Exact f64 (fun _ => True) Encoder.f64 := by
  refine .congr
    (.convert Double.bits (fun _ => True) u64_exact fun bits _ => .known fun value => ?_)
    fun _ => and_self_iff
  rw [and_true]
  constructor
  · rintro rfl
    rfl
  · rintro rfl
    rfl

theorem length_toNat {α : Type} {value : List α} {maxBytes : UInt32}
    (h : value.length ≤ maxBytes.toNat) : (UInt32.ofNat value.length).toNat = value.length :=
  UInt32.toNat_ofNat_of_lt' (h.trans_lt maxBytes.toNat_lt)

/-- A counted run of items is read up to the bound of the reader. -/
theorem counted_exact {α : Type} {items : Nat → Decoder (List α)} {legal : List α → Prop}
    {put : List α → List Write} {bound : UInt32} {failure : Error}
    (hitems : ∀ count, Exact (items count) (fun as => as.length = count ∧ legal as) put) :
    Exact (do
        let length ← u32
        if bound < length then throw failure else items length.toNat : Decoder (List α))
      (fun as => as.length ≤ bound.toNat ∧ legal as)
      fun as => Encoder.u32 (UInt32.ofNat as.length) ++ put as := by
  have hfield : Exact (do
        let length ← u32
        if bound < length then throw failure else items length.toNat : Decoder (List α))
      (fun as => True ∧ as.length ≤ bound.toNat ∧ legal as)
      fun as => [Encoder.u32 (UInt32.ofNat as.length), put as].flatten := by
    refine ExactOn.field u32_exact fun length _ => ?_
    split
    · rename_i hlarge
      refine .refused fun as hcount hshort => ?_
      rw [← hcount.2, UInt32.lt_iff_toNat_lt, length_toNat hshort.1] at hlarge
      omega
    · rename_i hsmall
      rw [UInt32.not_lt, UInt32.le_iff_toNat_le] at hsmall
      simp only [List.flatten_cons, List.flatten_nil, List.append_nil]
      refine .of_exact (hitems _) fun as => ?_
      rw [true_and]
      constructor
      · rintro ⟨hlength, hlegal⟩
        rw [hlength]
        exact ⟨UInt32.ofNat_toNat, hsmall, hlegal⟩
      · rintro ⟨rfl, hshort, hlegal⟩
        exact ⟨(length_toNat hshort).symm, hlegal⟩
  simpa only [true_and, List.flatten_cons, List.flatten_nil, List.append_nil] using hfield

theorem raw_exact (count : Nat) :
    Exact (raw count) (fun bs => bs.length = count ∧ True) fun bs => [.raw bs] :=
  .congr (Exact.take _ _) fun _ => (and_true _).symm.to_iff

theorem bytes_exact (maxBytes : UInt32) :
    Exact (bytes maxBytes) (fun value => value.length ≤ maxBytes.toNat) Encoder.bytes :=
  .congr (counted_exact raw_exact) fun _ => by rw [and_true]

theorem string_exact (maxBytes : UInt32) :
    Exact (string maxBytes) (fun value => value.length ≤ maxBytes.toNat) Encoder.string :=
  .congr (counted_exact raw_exact) fun _ => by rw [and_true]

theorem list_exact {α : Type} {p : Decoder α} {legal : α → Prop} {put : α → List Write}
    (h : Exact p legal put) (bound : UInt32) (message : String) :
    Exact (list bound message p) (fun as => as.length ≤ bound.toNat ∧ ∀ a ∈ as, legal a)
      (Encoder.list put) :=
  counted_exact h.times

theorem list_readsAs {α : Type} {p : Decoder α} {legal : α → Prop} {put : α → List Write}
    {seen : α → α} (h : ReadsAs p legal put seen) (bound : UInt32) (message : String) :
    ReadsAs (list bound message p) (fun as => as.length ≤ bound.toNat ∧ ∀ a ∈ as, legal a)
      (Encoder.list put) (List.map seen) := by
  refine ⟨fun bytes as rest hread => ?_, fun as rest _ hlegal => ?_⟩
  · obtain ⟨count, middle, -, hrest⟩ := Reader.run_bind_eq_ok.mp hread
    split at hrest
    · cases hrest
    · rename_i hsmall
      obtain ⟨-, hlength, hall⟩ := (h.times count.toNat).1 _ _ _ hrest
      rw [UInt32.not_lt, UInt32.le_iff_toNat_le] at hsmall
      exact ⟨trivial, by omega, hall⟩
  · have hcount := length_toNat hlegal.1
    refine Reader.run_bind_eq_ok.mpr ⟨UInt32.ofNat as.length, flat (as.flatMap put) ++ rest, ?_, ?_⟩
    · refine (u32_exact _ _ _).mpr ⟨trivial, trivial, ?_⟩
      rw [Encoder.list, Write.flat_append, List.append_assoc]
    · rw [if_neg (by rw [UInt32.not_lt, UInt32.le_iff_toNat_le, hcount]; exact hlegal.1)]
      exact (h.times _).2 as rest trivial ⟨hcount.symm, hlegal.2⟩

/-! ### What else the decoder reads: nothing -/

/-- A counted run of items is read as the run itself. -/
theorem counted_readsOnly {α : Type} {items : Nat → Decoder α} {put : List Write}
    {bound : UInt32} {failure : Error} {length : Nat} {a : α} (hlength : length < 2 ^ 32)
    (hitems : ReadsOnly (2 ^ 32) (items length) (flat put) a) :
    ReadsOnly (2 ^ 32) (do
        let length ← u32
        if bound < length then throw failure else items length.toNat : Decoder α)
      (flat (Encoder.u32 (UInt32.ofNat length) ++ put)) a := by
  intro hsize rest b rest' hread
  rw [Write.flat_append] at hsize hread
  rw [List.length_append] at hsize
  rw [List.append_assoc] at hread
  obtain ⟨count, middle, hcount, hrest⟩ := Reader.run_bind_eq_ok.mp hread
  obtain ⟨rfl, rfl⟩ :=
    ReadsOnly.of_exact u32_exact trivial (by omega : _ < 2 ^ 32) _ _ _ hcount
  rw [UInt32.toNat_ofNat_of_lt' hlength] at hrest
  split at hrest
  · cases hrest
  · exact hitems (by omega) _ _ _ hrest

theorem run_readsOnly {bound : UInt32} {failure : Error} (value : List UInt8) :
    ReadsOnly (2 ^ 32) (do
        let length ← u32
        if bound < length then throw failure else raw length.toNat : Decoder (List UInt8))
      (flat (Encoder.bytes value)) value := by
  intro hsize
  refine counted_readsOnly ?_ (ReadsOnly.of_exact (raw_exact value.length) ⟨rfl, trivial⟩) hsize
  rw [Encoder.bytes, Write.flat_append, List.length_append, Write.flat_cons, Write.flat_nil,
    List.append_nil, Write.bytes] at hsize
  omega

theorem bytes_readsOnly (maxBytes : UInt32) (value : List UInt8) :
    ReadsOnly (2 ^ 32) (bytes maxBytes) (flat (Encoder.bytes value)) value :=
  run_readsOnly value

theorem string_readsOnly (maxBytes : UInt32) (value : List UInt8) :
    ReadsOnly (2 ^ 32) (string maxBytes) (flat (Encoder.string value)) value :=
  run_readsOnly value

/-- Every element is written in at least one byte. -/
theorem flat_flatMap_length {α : Type} {put : α → List Write} {as : List α}
    (hput : ∀ a, flat (put a) ≠ []) : as.length ≤ (flat (as.flatMap put)).length := by
  induction as with
  | nil => exact Nat.zero_le _
  | cons a as ih =>
    have hpositive := List.length_pos_of_ne_nil (hput a)
    rw [List.flatMap_cons, Write.flat_append, List.length_append, List.length_cons]
    omega

theorem list_readsOnly {α : Type} {p : Decoder α} {put : α → List Write} {seen : α → α}
    {as : List α} (h : ∀ a ∈ as, ReadsOnly (2 ^ 32) p (flat (put a)) (seen a))
    (hput : ∀ a, flat (put a) ≠ []) (bound : UInt32) (message : String) :
    ReadsOnly (2 ^ 32) (list bound message p) (flat (Encoder.list put as)) (as.map seen) := by
  intro hsize
  refine counted_readsOnly ?_ (ReadsOnly.times h) hsize
  have hlength : as.length ≤ (flat (as.flatMap put)).length := flat_flatMap_length hput
  rw [Encoder.list, Write.flat_append, List.length_append] at hsize
  omega

theorem labelled_exact {α : Type} {p : Decoder α} {legal : α → Prop} {put : α → List Write}
    (h : Exact p legal put) (what : String) : Exact (labelled what p) legal put :=
  h.relabel _

end Decoder

end EnsembleFabric

import EnsembleFabric.Ids
import EnsembleFabric.Library.Binary64

/-!
# Text and hashing

A `std::string` is modelled by the `String` whose characters are its
bytes, so literals read as in the source and `String.length` counts
bytes. `IsByteText` says that a string is such a text, and `textBytes`
and `bytesText` go to the bytes and back; on byte texts they are inverse
(`textBytes_bytesText`, `bytesText_textBytes`), which is what the codecs
of texts rest on. Text that comes from outside is bounded
(`isBoundedAscii`) or made safe to show (`sanitizeText`) before it is
kept.

Numbers are shown with six decimals, as `printf` rounds them: from the
exact value, ties to even. A double is first turned into the rational
it stands for, so the rendering does not round twice. NaN and the two
infinities have the texts of the C library.

The hash is FNV-1a over 64 bits. Words enter it byte by byte, least
significant first, so that the hash of a record does not depend on the
byte order of the machine.
-/

namespace EnsembleFabric

/-! ## Bounded text -/

/-- The byte a character of a modelled `std::string` stands for. -/
def charByte (c : Char) : UInt64 := UInt64.ofNat (c.toNat % 256)

/-- The bytes of a modelled `std::string`. -/
def textBytes (text : String) : List UInt8 := text.toList.map fun c => (charByte c).toUInt8

/-- The text of a run of bytes. -/
def bytesText (bytes : List UInt8) : String :=
  String.ofList (bytes.map fun b => Char.ofNat b.toNat)

/-- Every character stands for a byte, as in a `std::string`. -/
def IsByteText (text : String) : Prop := ∀ c ∈ text.toList, c.toNat < 256

instance (text : String) : Decidable (IsByteText text) :=
  List.decidableBAll (fun c : Char => c.toNat < 256) text.toList

@[simp] theorem textBytes_length (text : String) : (textBytes text).length = text.length := by
  rw [textBytes, List.length_map, String.length_toList]

theorem byteChar_toNat (b : UInt8) : (Char.ofNat b.toNat).toNat = b.toNat := by
  have hlt := b.toNat_lt
  have hvalid : b.toNat.isValidChar := .inl (by omega)
  rw [Char.ofNat, dif_pos hvalid]
  rfl

theorem charByte_toNat (c : Char) : (charByte c).toUInt8.toNat = c.toNat % 256 := by
  rw [charByte, UInt64.toNat_toUInt8, UInt64.toNat_ofNat']
  omega

theorem charByte_of_byte (b : UInt8) : (charByte (Char.ofNat b.toNat)).toUInt8 = b := by
  have hlt := b.toNat_lt
  rw [← UInt8.toNat_inj, charByte_toNat, byteChar_toNat]
  omega

theorem byteChar_of_charByte {c : Char} (h : c.toNat < 256) :
    Char.ofNat (charByte c).toUInt8.toNat = c := by
  rw [charByte_toNat, Nat.mod_eq_of_lt h, Char.ofNat_toNat]

@[simp] theorem textBytes_bytesText (bytes : List UInt8) : textBytes (bytesText bytes) = bytes := by
  rw [textBytes, bytesText, String.toList_ofList, List.map_map]
  exact (List.map_congr_left fun b _ => charByte_of_byte b).trans (List.map_id _)

theorem bytesText_textBytes {text : String} (h : IsByteText text) :
    bytesText (textBytes text) = text := by
  rw [textBytes, bytesText, List.map_map]
  refine (congrArg String.ofList ?_).trans String.ofList_toList
  exact (List.map_congr_left fun c hc => byteChar_of_charByte (h c hc)).trans (List.map_id _)

theorem bytesText_isByteText (bytes : List UInt8) : IsByteText (bytesText bytes) := by
  intro c hc
  rw [bytesText, String.toList_ofList] at hc
  obtain ⟨b, -, rfl⟩ := List.mem_map.mp hc
  rw [byteChar_toNat]
  exact b.toNat_lt

/-- Printable ASCII, tabs and newlines only, within the byte bound. -/
def isBoundedAscii (text : String) (maxBytes : UInt32) : Bool :=
  text.length ≤ maxBytes.toNat
    && text.toList.all fun c =>
        c = '\t' || c = '\n' || (decide (0x20 ≤ c.toNat) && decide (c.toNat ≤ 0x7E))

theorem isBoundedAscii_isByteText {text : String} {maxBytes : UInt32}
    (h : isBoundedAscii text maxBytes = true) : IsByteText text := by
  intro c hc
  rw [isBoundedAscii, Bool.and_eq_true, List.all_eq_true] at h
  have hchar := h.2 c hc
  rw [Bool.or_eq_true, Bool.or_eq_true, decide_eq_true_eq, decide_eq_true_eq, Bool.and_eq_true,
    decide_eq_true_eq, decide_eq_true_eq] at hchar
  rcases hchar with (rfl | rfl) | ⟨-, hle⟩
  · decide
  · decide
  · omega

theorem isBoundedAscii_length {text : String} {maxBytes : UInt32}
    (h : isBoundedAscii text maxBytes = true) : text.length ≤ maxBytes.toNat := by
  rw [isBoundedAscii, Bool.and_eq_true, decide_eq_true_eq] at h
  exact h.1

/-- One character of sanitized text: tabs become blanks, everything outside
printable ASCII becomes a question mark. -/
def sanitizeChar (c : Char) : Char :=
  if c = '\t' then ' '
  else if 0x20 ≤ c.toNat ∧ c.toNat ≤ 0x7E then c
  else '?'

def sanitizeText (text : String) (maxBytes : UInt32) : String :=
  String.ofList ((text.toList.take maxBytes.toNat).map sanitizeChar)

/-- `join(parts, separator)`. -/
def joinText (separator : String) (parts : List String) : String :=
  String.intercalate separator parts

/-! ## FNV-1a -/

def fnvOffset : UInt64 := 1469598103934665603

def fnvPrime : UInt64 := 1099511628211

def fnv1a64Byte (hash byte : UInt64) : UInt64 := (hash ^^^ byte) * fnvPrime

def fnv1a64Text (seed : UInt64) (text : String) : UInt64 :=
  text.toList.foldl (fun hash c => fnv1a64Byte hash (charByte c)) seed

/-- The eight bytes of a word, least significant first, so that the hash does not
depend on the byte order of the machine. -/
def fnv1a64Word (seed value : UInt64) : UInt64 :=
  (List.range 8).foldl
    (fun hash byte => fnv1a64Byte hash ((value >>> (UInt64.ofNat byte * 8)) &&& 0xFF)) seed

/-! ## Rendering numbers -/

/-- Six decimals of an exact value, ties to even. -/
def formatRat (q : Rat) : String :=
  let scaled := q.num.natAbs * 1000000
  let down := scaled / q.den
  let rest := scaled % q.den
  let rounded :=
    if 2 * rest < q.den then down
    else if q.den < 2 * rest then down + 1
    else if down % 2 = 0 then down else down + 1
  let digits := toString (rounded % 1000000)
  let padding := String.ofList (List.replicate (6 - digits.length) '0')
  (if q.num < 0 then "-" else "") ++ toString (rounded / 1000000) ++ "." ++ padding ++ digits

/-- `format_double`: `"%.6f"`. The buffer of the source holds the text of
magnitudes below 10^56 and cuts longer ones off; here the text is as long as
the number. -/
def formatDouble (d : Double) : String :=
  let sign := if d.bits >>> 63 = 1 then "-" else ""
  sign ++
    match d.unpack with
    | .notANumber => "nan"
    | .infinity _ => "inf"
    | .zero _ | .finite .. => formatRat |d.toRat|

end EnsembleFabric

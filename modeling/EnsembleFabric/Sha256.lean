import EnsembleFabric.Text

/-!
# SHA-256

The streaming hasher of the runtime (`detail/sha256.cpp`): bytes are
buffered until a block of 64 is full, `finish` pads the buffer and
appends the bit length. Payloads are fingerprinted by the first eight
digest bytes (`sha256Digest64`).

The compression function is written as the source writes it, on 32-bit
words that wrap: the 64 words of the schedule from those of the block,
then one round for each of them. The constants are those of the source,
as words.

The hasher takes its input in pieces of any length. That the digest
depends on their concatenation only, and is the one of the standard, is
`Digest`.
-/

namespace EnsembleFabric

def kRoundConstants : List UInt32 :=
  [0x428a2f98, 0x71374491, 0xb5c0fbcf, 0xe9b5dba5, 0x3956c25b, 0x59f111f1, 0x923f82a4,
   0xab1c5ed5, 0xd807aa98, 0x12835b01, 0x243185be, 0x550c7dc3, 0x72be5d74, 0x80deb1fe,
   0x9bdc06a7, 0xc19bf174, 0xe49b69c1, 0xefbe4786, 0x0fc19dc6, 0x240ca1cc, 0x2de92c6f,
   0x4a7484aa, 0x5cb0a9dc, 0x76f988da, 0x983e5152, 0xa831c66d, 0xb00327c8, 0xbf597fc7,
   0xc6e00bf3, 0xd5a79147, 0x06ca6351, 0x14292967, 0x27b70a85, 0x2e1b2138, 0x4d2c6dfc,
   0x53380d13, 0x650a7354, 0x766a0abb, 0x81c2c92e, 0x92722c85, 0xa2bfe8a1, 0xa81a664b,
   0xc24b8b70, 0xc76c51a3, 0xd192e819, 0xd6990624, 0xf40e3585, 0x106aa070, 0x19a4c116,
   0x1e376c08, 0x2748774c, 0x34b0bcb5, 0x391c0cb3, 0x4ed8aa4a, 0x5b9cca4f, 0x682e6ff3,
   0x748f82ee, 0x78a5636f, 0x84c87814, 0x8cc70208, 0x90befffa, 0xa4506ceb, 0xbef9a3f7,
   0xc67178f2]

def rotateRight (value count : UInt32) : UInt32 :=
  (value >>> count) ||| (value <<< (32 - count))

/-- The eight working words of the compression function. -/
structure Sha256Words where
  a : UInt32
  b : UInt32
  c : UInt32
  d : UInt32
  e : UInt32
  f : UInt32
  g : UInt32
  h : UInt32
deriving DecidableEq

namespace Sha256Words

def initial : Sha256Words :=
  ⟨0x6a09e667, 0xbb67ae85, 0x3c6ef372, 0xa54ff53a,
   0x510e527f, 0x9b05688c, 0x1f83d9ab, 0x5be0cd19⟩

def add (x y : Sha256Words) : Sha256Words :=
  ⟨x.a + y.a, x.b + y.b, x.c + y.c, x.d + y.d, x.e + y.e, x.f + y.f, x.g + y.g, x.h + y.h⟩

def toList (x : Sha256Words) : List UInt32 := [x.a, x.b, x.c, x.d, x.e, x.f, x.g, x.h]

/-- One round with its constant and schedule word. -/
def round (s : Sha256Words) (constant word : UInt32) : Sha256Words :=
  let sigma1 := rotateRight s.e 6 ^^^ rotateRight s.e 11 ^^^ rotateRight s.e 25
  let choose := (s.e &&& s.f) ^^^ (~~~s.e &&& s.g)
  let temp1 := s.h + sigma1 + choose + constant + word
  let sigma0 := rotateRight s.a 2 ^^^ rotateRight s.a 13 ^^^ rotateRight s.a 22
  let majority := (s.a &&& s.b) ^^^ (s.a &&& s.c) ^^^ (s.b &&& s.c)
  let temp2 := sigma0 + majority
  ⟨temp1 + temp2, s.a, s.b, s.c, s.d + temp1, s.e, s.f, s.g⟩

end Sha256Words

/-- The big-endian word at offset `4 * index` of a block. -/
def blockWord (block : List UInt8) (index : Nat) : UInt32 :=
  let byte := fun k => (block.getD (index * 4 + k) 0).toUInt32
  (byte 0 <<< 24) ||| (byte 1 <<< 16) ||| (byte 2 <<< 8) ||| byte 3

/-- Schedule word `schedule.length`, from the words before it. -/
def nextScheduleWord (schedule : List UInt32) : UInt32 :=
  let at' := fun back => schedule.getD (schedule.length - back) 0
  let s0 := rotateRight (at' 15) 7 ^^^ rotateRight (at' 15) 18 ^^^ (at' 15 >>> 3)
  let s1 := rotateRight (at' 2) 17 ^^^ rotateRight (at' 2) 19 ^^^ (at' 2 >>> 10)
  at' 16 + s0 + at' 7 + s1

/-- The 64 schedule words of a block. -/
def messageSchedule (block : List UInt8) : List UInt32 :=
  (List.range 48).foldl (fun schedule _ => schedule ++ [nextScheduleWord schedule])
    ((List.range 16).map (blockWord block))

def compress (state : Sha256Words) (block : List UInt8) : Sha256Words :=
  state.add ((kRoundConstants.zip (messageSchedule block)).foldl
    (fun s kw => s.round kw.1 kw.2) state)

/-- The hasher: `state_`, `buffer_` up to `buffer_length_`, `total_bytes_`. The
buffer is shorter than a block between two bytes. -/
structure Sha256 where
  state : Sha256Words := .initial
  buffer : List UInt8 := []
  totalBytes : UInt64 := 0
deriving DecidableEq

namespace Sha256

def push (s : Sha256) (byte : UInt8) : Sha256 :=
  let buffer := s.buffer ++ [byte]
  if buffer.length = 64 then
    { state := compress s.state buffer, buffer := [], totalBytes := s.totalBytes + 1 }
  else { s with buffer := buffer, totalBytes := s.totalBytes + 1 }

def update (s : Sha256) (data : List UInt8) : Sha256 := data.foldl push s

/-- The eight bytes of a length word, most significant first. -/
def lengthBytes (bitLength : UInt64) : List UInt8 :=
  (List.range 8).map fun index => (bitLength >>> UInt64.ofNat (56 - index * 8)).toUInt8

/-- The four bytes of a state word, most significant first. -/
def wordBytes (word : UInt32) : List UInt8 :=
  (List.range 4).map fun byte => (word >>> UInt32.ofNat (24 - byte * 8)).toUInt8

def padTo (length : Nat) (buffer : List UInt8) : List UInt8 :=
  buffer ++ List.replicate (length - buffer.length) 0

def finish (s : Sha256) : List UInt8 :=
  let bitLength := s.totalBytes * 8
  let padded := s.buffer ++ [0x80]
  let (state, buffer) :=
    if 56 < padded.length then (compress s.state (padTo 64 padded), [])
    else (s.state, padded)
  (compress state (padTo 56 buffer ++ lengthBytes bitLength)).toList.flatMap wordBytes

end Sha256

def sha256 (data : List UInt8) : List UInt8 := (({} : Sha256).update data).finish

/-- The first eight digest bytes, read big-endian. -/
def sha256Digest64 (data : List UInt8) : UInt64 :=
  ((sha256 data).take 8).foldl (fun value byte => (value <<< 8) ||| byte.toUInt64) 0

end EnsembleFabric

import Mathlib.Analysis.SpecialFunctions.Pow.NthRootLemmas
import Mathlib.Data.Nat.Nth
import Mathlib.Data.Nat.Prime.Basic
import EnsembleFabric.Library.BlockHash

/-!
# The secure hash algorithm with a digest of 256 bits

The function as its standard defines it, on a whole message of bytes: the
message is padded to blocks of 64 bytes (`pad`), and every block is compressed
into a hash value of eight words (`compress`). Words are numbers of 32 bits
and are written with the most significant byte first.

The constants are no table here. Those of the rounds are the first 32 bits
behind the point of the cube roots of the first 64 prime numbers, and the first
hash value those of the square roots of the first eight (`rootWord`). A root is
cut off and not rounded, so the word is a root of natural numbers: of the
prime, times a power of two. That the list of primes is the one it is said to
be follows from `prime_iff`.

Nothing here is about a program. A hasher is verified against `digest` with
the rules of `Library.BlockHash`, which are about any function that
compresses one block after the other.
-/

/-! ## Numbers in bytes -/

namespace BigEndian

/-- The number in a list of bytes, the first of them most significant. -/
def number (bs : List UInt8) : Nat := bs.foldl (fun value byte => 256 * value + byte.toNat) 0

/-- The low bytes of a number, the most significant first. -/
def bytes : Nat → Nat → List UInt8
  | 0, _ => []
  | width + 1, value => UInt8.ofNat (value / 256 ^ width) :: bytes width value

@[simp] theorem bytes_length (width value : Nat) : (bytes width value).length = width := by
  induction width with
  | zero => rfl
  | succ width ih => rw [bytes, List.length_cons, ih]

end BigEndian

namespace Sha2

open BlockHash (blocks)

abbrev Word := BitVec 32

/-! ## The functions on words -/

def ch (x y z : Word) : Word := (x &&& y) ^^^ (~~~x &&& z)

def maj (x y z : Word) : Word := (x &&& y) ^^^ (x &&& z) ^^^ (y &&& z)

def upperSigma0 (x : Word) : Word := x.rotateRight 2 ^^^ x.rotateRight 13 ^^^ x.rotateRight 22

def upperSigma1 (x : Word) : Word := x.rotateRight 6 ^^^ x.rotateRight 11 ^^^ x.rotateRight 25

def lowerSigma0 (x : Word) : Word := x.rotateRight 7 ^^^ x.rotateRight 18 ^^^ x >>> 3

def lowerSigma1 (x : Word) : Word := x.rotateRight 17 ^^^ x.rotateRight 19 ^^^ x >>> 10

/-! ## The constants -/

/-- The first 32 bits behind the point of a root: the whole part of the root is
cut off. -/
def rootWord (degree value : Nat) : Word :=
  BitVec.ofNat 32 (Nat.nthRoot degree (value * 2 ^ (32 * degree)))

noncomputable def roundConstant (t : Nat) : Word := rootWord 3 (Nat.nth Nat.Prime t)

noncomputable def initialWord (index : Nat) : Word := rootWord 2 (Nat.nth Nat.Prime index)

/-- The first 64 prime numbers. -/
def firstPrimes : List Nat :=
  [2, 3, 5, 7, 11, 13, 17, 19, 23, 29, 31, 37, 41, 43, 47, 53, 59, 61, 67, 71, 73, 79, 83, 89, 97,
   101, 103, 107, 109, 113, 127, 131, 137, 139, 149, 151, 157, 163, 167, 173, 179, 181, 191, 193,
   197, 199, 211, 223, 227, 229, 233, 239, 241, 251, 257, 263, 269, 271, 277, 281, 283, 293, 307,
   311]

/-- Divisors below `k` are enough for numbers below its square. -/
theorem prime_iff {k n : Nat} (hn : n < k * k) :
    n.Prime ↔ 2 ≤ n ∧ ∀ m < k, 2 ≤ m → m < n → ¬ m ∣ n := by
  constructor
  · intro hprime
    obtain ⟨htwo, hdiv⟩ := Nat.prime_def_lt'.mp hprime
    exact ⟨htwo, fun m _ hm hlt => hdiv m hm hlt⟩
  · rintro ⟨htwo, hdiv⟩
    refine Nat.prime_def_le_sqrt.mpr ⟨htwo, ?_⟩
    intro m hm hroot
    have hsquare : m * m ≤ n := Nat.le_sqrt.mp hroot
    refine hdiv m ?_ hm (hroot.trans_lt (Nat.sqrt_lt_self htwo))
    by_contra hlarge
    have hk := Nat.mul_self_le_mul_self (not_lt.mp hlarge)
    omega

theorem filter_range_eq_map_nth (p : Nat → Prop) [DecidablePred p] (n : Nat) :
    (List.range n).filter (fun m => decide (p m)) = (List.range (n.count p)).map (Nat.nth p) := by
  induction n with
  | zero => rfl
  | succ n ih =>
    rw [List.range_succ, List.filter_append, ih, Nat.count_succ]
    by_cases hn : p n
    · simp [hn, List.range_succ, Nat.nth_count hn]
    · simp [hn]

theorem map_nth_prime : (List.range 64).map (Nat.nth Nat.Prime) = firstPrimes := by
  have hsieve : (List.range 312).filter (fun n => decide n.Prime) = firstPrimes := by
    have htrial : (List.range 312).filter (fun n => decide n.Prime)
        = (List.range 312).filter fun n => decide (2 ≤ n ∧ ∀ m < 18, 2 ≤ m → m < n → ¬ m ∣ n) := by
      apply List.filter_congr
      intro n hn
      rw [List.mem_range] at hn
      exact decide_eq_decide.mpr (prime_iff (by omega))
    rw [htrial]
    decide +kernel
  have hcount := congrArg List.length (filter_range_eq_map_nth Nat.Prime 312)
  rw [hsieve, List.length_map, List.length_range] at hcount
  rw [← hsieve, filter_range_eq_map_nth, ← hcount]
  rfl

theorem map_roundConstant : (List.range 64).map roundConstant = firstPrimes.map (rootWord 3) := by
  rw [← map_nth_prime, List.map_map]
  rfl

theorem map_initialWord :
    (List.range 8).map initialWord = (firstPrimes.take 8).map (rootWord 2) := by
  rw [← map_nth_prime, ← List.map_take, List.take_range, List.map_map]
  rfl

/-! ## Compression -/

/-- Word `t` of a block. -/
def blockWord (block : List UInt8) (t : Nat) : Word :=
  BitVec.ofNat 32 (BigEndian.number ((block.drop (4 * t)).take 4))

/-- Word `t` of the message schedule. -/
def scheduleWord (block : List UInt8) (t : Nat) : Word :=
  if t < 16 then blockWord block t
  else lowerSigma1 (scheduleWord block (t - 2)) + scheduleWord block (t - 7)
    + lowerSigma0 (scheduleWord block (t - 15)) + scheduleWord block (t - 16)

/-- The eight words of a hash value, and the working variables of the rounds. -/
structure Words where
  a : Word
  b : Word
  c : Word
  d : Word
  e : Word
  f : Word
  g : Word
  h : Word
deriving DecidableEq

namespace Words

noncomputable def initial : Words :=
  ⟨initialWord 0, initialWord 1, initialWord 2, initialWord 3,
   initialWord 4, initialWord 5, initialWord 6, initialWord 7⟩

def add (x y : Words) : Words :=
  ⟨x.a + y.a, x.b + y.b, x.c + y.c, x.d + y.d, x.e + y.e, x.f + y.f, x.g + y.g, x.h + y.h⟩

def toList (x : Words) : List Word := [x.a, x.b, x.c, x.d, x.e, x.f, x.g, x.h]

def round (s : Words) (constant word : Word) : Words :=
  let t1 := s.h + upperSigma1 s.e + ch s.e s.f s.g + constant + word
  let t2 := upperSigma0 s.a + maj s.a s.b s.c
  ⟨t1 + t2, s.a, s.b, s.c, s.d + t1, s.e, s.f, s.g⟩

end Words

/-- The hash value after one more block. -/
noncomputable def compress (value : Words) (block : List UInt8) : Words :=
  value.add ((List.range 64).foldl
    (fun s t => s.round (roundConstant t) (scheduleWord block t)) value)

/-! ## The digest -/

/-- The message, a set bit, the fewest zeros and the length of the message in
bits, up to whole blocks. -/
def pad (data : List UInt8) : List UInt8 :=
  BlockHash.pad 64 0x80 0 (BigEndian.bytes 8 (8 * data.length)) data

theorem pad_whole (data : List UInt8) : 64 ∣ (pad data).length :=
  BlockHash.dvd_pad_length (by omega) _ _ _ _

noncomputable def digest (data : List UInt8) : List UInt8 :=
  ((blocks 64 (pad data)).foldl compress .initial).toList.flatMap
    fun word => BigEndian.bytes 4 word.toNat

end Sha2

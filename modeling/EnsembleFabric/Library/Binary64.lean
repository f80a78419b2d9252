import Mathlib.Algebra.Order.Ring.Rat

/-!
# IEEE-754 doubles

A double is its 64-bit pattern, so that what is stored and sent is exact, NaN
payloads included. Arithmetic is that of the standard: the operands are
unpacked, computed with and packed again by the model of binary64 in the core
library, and each operation is rounded on its own to the nearest double, ties
to even. An operation that has no number to give gives the canonical quiet NaN.

Every pattern that is no NaN has a `position`, an integer that grows with the
value, and the comparisons of the standard compare positions.

> `a < b` holds if and only if neither is a NaN and the position of `a` is
> below that of `b` (`less_iff`); so does `a == b` for equal positions
> (`equal_iff`).

So a comparison that is built from them is a linear one, up to ties, wherever
there is no NaN, and where there is one nothing is ordered.

A whole number is a double exactly below 2^53; beyond, it is rounded. Such a
number stays below every larger one, rounded or not (`ofNat_position_lt`).
-/

open Float.Model (UnpackedFloat Format)
open Float.Model.UnpackedFloat (Sign ExtendedMantissa packComponents unpackSign unpackExponent
  unpackMantissa)

/-- An IEEE-754 binary64 value, as its bit pattern. -/
structure Double where
  bits : UInt64 := 0
deriving DecidableEq

namespace Double

def zero : Double := ⟨0⟩

def half : Double := ⟨0x3FE0000000000000⟩

def one : Double := ⟨0x3FF0000000000000⟩

def two : Double := ⟨0x4000000000000000⟩

/-- Sign, significand and exponent of the pattern. -/
def unpack (d : Double) : UnpackedFloat := .unpack .binary64 d.bits.toBitVec

def pack (f : UnpackedFloat) : Double := ⟨UInt64.ofBitVec (f.pack .binary64)⟩

def isFinite (d : Double) : Bool := d.unpack.isFinite

def isNaN (d : Double) : Bool := d.unpack.isNaN

/-- The exact value of a finite pattern. -/
def toRat (d : Double) : Rat :=
  match d.unpack with
  | .finite s m e _ =>
      if 0 ≤ e then (s.apply (m * 2 ^ e.toNat) : Int) else mkRat (s.apply m) (2 ^ (-e).toNat)
  | _ => 0

/-! ## Arithmetic -/

def add (a b : Double) : Double := pack (.add .binary64 a.unpack b.unpack)

def mul (a b : Double) : Double := pack (.mul .binary64 a.unpack b.unpack)

def div (a b : Double) : Double := pack (.div .binary64 a.unpack b.unpack)

def ofNat (n : Nat) : Double := pack (.ofNat .binary64 n)

/-- `a < b`; not where one is a NaN. -/
def less (a b : Double) : Bool := a.unpack.lt b.unpack

/-- `a == b`: the zeros are equal, and a NaN equals nothing. -/
def equal (a b : Double) : Bool := a.unpack.beq b.unpack

/-- `a <= b`; not where one is a NaN. -/
def atMost (a b : Double) : Bool := a.unpack.le b.unpack

/-- `q < d`, infinities and NaN included. -/
def exceeds (d : Double) (q : Rat) : Bool :=
  match d.unpack with
  | .notANumber => false
  | .infinity sign => sign == .positive
  | .zero _ | .finite .. => decide (q < d.toRat)

/-- A tenth and two tenths exceed three tenths; four of five are 0.8; a product
may leave the range, and infinities have no difference. -/
example : less ⟨0x3FD3333333333333⟩ (add ⟨0x3FB999999999999A⟩ ⟨0x3FC999999999999A⟩) = true
    ∧ div (ofNat 4) (ofNat 5) = ⟨0x3FE999999999999A⟩
    ∧ mul ⟨0x7FEFFFFFFFFFFFFF⟩ two = ⟨0x7FF0000000000000⟩
    ∧ (add ⟨0x7FF0000000000000⟩ ⟨0xFFF0000000000000⟩).isNaN = true
    ∧ equal zero ⟨0x8000000000000000⟩ = true := by decide +kernel

end Double

/-! ## The order of unpacked numbers -/

namespace Binary64

/-- The unpacked form of a binary64: what unpacking gives. -/
def Canonical : UnpackedFloat → Prop
  | .finite _ m e _ => m < 2 ^ 53 ∧ -1074 ≤ e ∧ e ≤ 971
  | _ => True

def place : UnpackedFloat → Int
  | .finite s m e _ => s.apply ((e + 1075) * 2 ^ 53 + m)
  | .infinity s => s.apply (2 ^ 64)
  | .zero _ | .notANumber => 0

theorem unpack_canonical (b : BitVec 64) : Canonical (.unpack .binary64 b) := by
  have hexponent : (@unpackExponent .binary64 b).toNat < 2 ^ 11 :=
    (@unpackExponent .binary64 b).isLt
  have hmantissa : (@unpackMantissa .binary64 b).toNat < 2 ^ 52 :=
    (@unpackMantissa .binary64 b).isLt
  have hwhole : (1#1 ++ @unpackMantissa .binary64 b).toNat < 2 ^ 53 :=
    (1#1 ++ @unpackMantissa .binary64 b).isLt
  have hbias : ((Format.binary64.exponentBias : Nat) : Int) = 1023 := rfl
  have hbits : ((Format.binary64.mantissaBitsWithoutImplicit : Nat) : Int) = 52 := rfl
  unfold UnpackedFloat.unpack
  dsimp only
  by_cases hlast : @unpackExponent .binary64 b = -1#11
  · rw [if_pos hlast]
    by_cases hzero : @unpackMantissa .binary64 b = 0#52
    · rw [if_pos hzero]
      trivial
    · rw [if_neg hzero]
      trivial
  · have hlast' : (@unpackExponent .binary64 b).toNat ≠ 2047 :=
      fun h => hlast (BitVec.eq_of_toNat_eq h)
    rw [if_neg hlast]
    by_cases hzero : @unpackExponent .binary64 b = 0#11
    · have hzero' : (@unpackExponent .binary64 b).toNat = 0 := congrArg BitVec.toNat hzero
      rw [if_pos hzero]
      by_cases hnone : @unpackMantissa .binary64 b = 0#52
      · rw [dif_pos hnone]
        trivial
      · rw [dif_neg hnone]
        refine ⟨by omega, ?_, ?_⟩ <;> omega
    · have hzero' : (@unpackExponent .binary64 b).toNat ≠ 0 :=
        fun h => hzero (BitVec.eq_of_toNat_eq h)
      rw [if_neg hzero]
      refine ⟨hwhole, ?_, ?_⟩ <;> omega

theorem then_compare {e₁ e₂ : Int} {m₁ m₂ : Nat} (h₁ : m₁ < 2 ^ 53) (h₂ : m₂ < 2 ^ 53) :
    (compare e₁ e₂).then (compare m₁ m₂)
      = compare ((e₁ + 1075) * 2 ^ 53 + (m₁ : Int)) ((e₂ + 1075) * 2 ^ 53 + (m₂ : Int)) := by
  rcases lt_trichotomy e₁ e₂ with h | h | h
  · rw [compare_lt_iff_lt.mpr h, eq_comm]
    refine compare_lt_iff_lt.mpr ?_
    omega
  · subst h
    rw [compare_eq_iff_eq.mpr rfl]
    rcases lt_trichotomy m₁ m₂ with h | h | h
    · exact (compare_lt_iff_lt.mpr h).trans (compare_lt_iff_lt.mpr (by omega)).symm
    · subst h
      exact (compare_eq_iff_eq.mpr rfl).trans (compare_eq_iff_eq.mpr rfl).symm
    · exact (compare_gt_iff_gt.mpr h).trans (compare_gt_iff_gt.mpr (by omega)).symm
  · rw [compare_gt_iff_gt.mpr h, eq_comm]
    refine compare_gt_iff_gt.mpr ?_
    omega

theorem compare_swap {a b : Int} : (compare a b).swap = compare (-a) (-b) := by
  rcases lt_trichotomy a b with h | h | h
  · rw [compare_lt_iff_lt.mpr h, compare_gt_iff_gt.mpr (by omega)]
    rfl
  · subst h
    rw [compare_eq_iff_eq.mpr rfl, compare_eq_iff_eq.mpr rfl]
    rfl
  · rw [compare_gt_iff_gt.mpr h, compare_lt_iff_lt.mpr (by omega)]
    rfl

theorem compare_eq {f g : UnpackedFloat} (hf : Canonical f) (hg : Canonical g)
    (hf' : f.isNaN = false) (hg' : g.isNaN = false) :
    f.compare g = some (compare (place f) (place g)) := by
  cases f with
  | notANumber => cases hf'
  | infinity s =>
    cases g with
    | notANumber => cases hg'
    | infinity t => cases s <;> cases t <;> decide
    | zero t => cases s <;> rfl
    | finite t m e hm =>
      obtain ⟨hm', he, he'⟩ := hg
      cases s
      · refine congrArg some (compare_lt_iff_lt.mpr ?_).symm
        cases t <;> dsimp only [place, Sign.apply] <;> omega
      · refine congrArg some (compare_gt_iff_gt.mpr ?_).symm
        cases t <;> dsimp only [place, Sign.apply] <;> omega
  | zero s =>
    cases g with
    | notANumber => cases hg'
    | infinity t => cases t <;> rfl
    | zero t => rfl
    | finite t m e hm =>
      obtain ⟨hm', he, he'⟩ := hg
      cases t
      · refine congrArg some (compare_gt_iff_gt.mpr ?_).symm
        dsimp only [place, Sign.apply]
        omega
      · refine congrArg some (compare_lt_iff_lt.mpr ?_).symm
        dsimp only [place, Sign.apply]
        omega
  | finite s m e hm =>
    obtain ⟨hm', he, he'⟩ := hf
    cases g with
    | notANumber => cases hg'
    | infinity t =>
      cases t
      · refine Eq.trans ?_ (congrArg some (compare_gt_iff_gt.mpr ?_).symm)
        · cases s <;> rfl
        · cases s <;> dsimp only [place, Sign.apply] <;> omega
      · refine Eq.trans ?_ (congrArg some (compare_lt_iff_lt.mpr ?_).symm)
        · cases s <;> rfl
        · cases s <;> dsimp only [place, Sign.apply] <;> omega
    | zero t =>
      cases s
      · refine congrArg some (compare_lt_iff_lt.mpr ?_).symm
        dsimp only [place, Sign.apply]
        omega
      · refine congrArg some (compare_gt_iff_gt.mpr ?_).symm
        dsimp only [place, Sign.apply]
        omega
    | finite t n d hn =>
      obtain ⟨hn', hd, hd'⟩ := hg
      cases s <;> cases t
      · refine congrArg some ?_
        rw [then_compare hm' hn', compare_swap]
        rfl
      · refine congrArg some (compare_lt_iff_lt.mpr ?_).symm
        dsimp only [place, Sign.apply]
        omega
      · refine congrArg some (compare_gt_iff_gt.mpr ?_).symm
        dsimp only [place, Sign.apply]
        omega
      · exact congrArg some (then_compare hm' hn')

theorem unpackSign_packComponents {s : Sign} {x : BitVec 11} {m : BitVec 52} :
    @unpackSign .binary64 (packComponents .binary64 s x m) = s.toBitVec := by
  ext i hi
  obtain rfl : i = 0 := by omega
  have hsign : (s.toBitVec ++ x ++ m).getLsbD 63 = s.toBitVec[0] := by
    rw [BitVec.getLsbD_append, BitVec.getLsbD_append]
    rfl
  refine Eq.trans ?_ hsign
  unfold unpackSign packComponents
  simp only [BitVec.getElem_cast]
  rw [← BitVec.getLsbD_eq_getElem, BitVec.getLsbD_extractLsb]
  rfl

theorem unpack_infinity (s : Sign) :
    UnpackedFloat.unpack .binary64 (UnpackedFloat.pack .binary64 (.infinity s)) = .infinity s := by
  cases s <;> rfl

/-- A normal number is packed as it is; a large one becomes infinite. -/
theorem unpack_pack_normal {s : Sign} {m : Nat} {e : Int} {h : 0 < m} (hm : 2 ^ 52 ≤ m)
    (hm' : m < 2 ^ 53) (he : -1074 ≤ e) :
    UnpackedFloat.unpack .binary64 (UnpackedFloat.pack .binary64 (.finite s m e h))
      = if e ≤ 971 then .finite s m e h else .infinity s := by
  have hlog : m.log2 = 52 := (Nat.log2_eq_iff (by omega)).mpr ⟨hm, hm'⟩
  have hbiased : (e + ((Format.binary64.exponentBias : Nat) : Int)
      + ((Format.binary64.mantissaBitsWithoutImplicit : Nat) : Int)).toNat = (e + 1075).toNat := by
    have hbias : ((Format.binary64.exponentBias : Nat) : Int) = 1023 := rfl
    have hbits : ((Format.binary64.mantissaBitsWithoutImplicit : Nat) : Int) = 52 := rfl
    omega
  have hpack : UnpackedFloat.pack .binary64 (.finite s m e h)
      = if 2 ^ 11 ≤ (e + 1075).toNat + 1 then UnpackedFloat.packedInfinity .binary64 s
        else packComponents .binary64 s (BitVec.ofNat 11 (e + 1075).toNat) (BitVec.ofNat 52 m) := by
    unfold UnpackedFloat.pack
    dsimp only
    rw [hlog, hbiased]
    rfl
  rw [hpack]
  by_cases hlarge : e ≤ 971
  · rw [if_neg (by omega), if_pos hlarge]
    have hx : (BitVec.ofNat 11 (e + 1075).toNat).toNat = (e + 1075).toNat := by
      rw [BitVec.toNat_ofNat]
      omega
    have hmantissa : (1#1 ++ BitVec.ofNat 52 m).toNat = m := by
      rw [BitVec.toNat_append, BitVec.toNat_ofNat, BitVec.toNat_ofNat,
        ← Nat.shiftLeft_add_eq_or_of_lt (Nat.mod_lt _ (by decide)), Nat.shiftLeft_eq]
      omega
    have hlast : ¬ BitVec.ofNat 11 (e + 1075).toNat = -1#11 := by
      intro hx'
      have := congrArg BitVec.toNat hx'
      rw [hx] at this
      change _ = 2047 at this
      omega
    have hzero : ¬ BitVec.ofNat 11 (e + 1075).toNat = 0#11 := by
      intro hx'
      have := congrArg BitVec.toNat hx'
      rw [hx] at this
      change _ = 0 at this
      omega
    unfold UnpackedFloat.unpack
    dsimp only
    rw [if_neg (by rwa [UnpackedFloat.unpackExponent_packComponents]),
      if_neg (by rwa [UnpackedFloat.unpackExponent_packComponents]), UnpackedFloat.finite.injEq]
    refine ⟨?_, ?_, ?_⟩
    · rw [unpackSign_packComponents]
      cases s <;> rfl
    · rw [UnpackedFloat.unpackMantissa_packComponents]
      exact hmantissa
    · rw [UnpackedFloat.unpackExponent_packComponents, hx]
      have hbias : ((Format.binary64.exponentBias : Nat) : Int) = 1023 := rfl
      have hbits : ((Format.binary64.mantissaBitsWithoutImplicit : Nat) : Int) = 52 := rfl
      omega
  · rw [if_pos (by omega), if_neg hlarge]
    exact unpack_infinity s

/-! ### Whole numbers -/

theorem shift_mantissa (em : ExtendedMantissa) (k : Nat) :
    (em >>> k).mantissa = em.mantissa / 2 ^ k := by
  induction k with
  | zero => exact (Nat.div_one _).symm
  | succ k ih =>
    have hstep : em >>> (k + 1) = (em >>> k).shiftRightOne := rfl
    rw [hstep, Nat.pow_succ, ← Nat.div_div_eq_div_mul, ← ih]
    rfl

theorem roundedMantissa_bounds (em : ExtendedMantissa) :
    em.mantissa ≤ em.roundedMantissa ∧ em.roundedMantissa ≤ em.mantissa + 1 := by
  obtain ⟨m, round, sticky⟩ := em
  cases round <;> cases sticky <;>
    simp only [ExtendedMantissa.roundedMantissa, ExtendedMantissa.accuracy,
      UnpackedFloat.Accuracy.roundToNearestEven] <;>
    omega

theorem targetExponent_eq (m : Nat) (e : Int) :
    Format.binary64.targetExponent (Float.Model.totalExponent m e)
      = max ((m.log2 : Int) + e - 52) (-1074) := by
  have hmin : Format.binary64.minExponent = -1074 := rfl
  have hbits : (Format.binary64.mantissaBits : Int) = 53 := rfl
  rw [Format.targetExponent, Float.Model.totalExponent, hmin, hbits]
  omega

/-- A significand of 53 bits is in place. -/
theorem shift_normal {m : Nat} {e : Int} (hm : 2 ^ 52 ≤ m) (hm' : m < 2 ^ 53) (he : -1074 ≤ e) :
    UnpackedFloat.shiftToTargetExponent .binary64 m e .exact = (⟨m, false, false⟩, e) := by
  have hlog : m.log2 = 52 := (Nat.log2_eq_iff (by omega)).mpr ⟨hm, hm'⟩
  rw [UnpackedFloat.shiftToTargetExponent, targetExponent_eq, hlog, UnpackedFloat.shiftToExponent]
  have hstay : (max (((52 : Nat) : Int) + e - 52) (-1074) - e).toNat = 0 := by omega
  simp only [hstay]
  exact Prod.ext rfl (Int.add_zero e)

/-- One bit more moves it by one place. -/
theorem shift_carried {e : Int} (he : -1074 ≤ e) :
    UnpackedFloat.shiftToTargetExponent .binary64 (2 ^ 53) e .exact
      = (⟨2 ^ 52, false, false⟩, e + 1) := by
  have hlog : (2 ^ 53).log2 = 53 := by decide
  rw [UnpackedFloat.shiftToTargetExponent, targetExponent_eq, hlog, UnpackedFloat.shiftToExponent]
  have hone : (max (((53 : Nat) : Int) + e - 52) (-1074) - e).toNat = 1 := by omega
  simp only [hone]
  rfl

/-- Rounding keeps the first significand, unless it carries into one bit
more. -/
theorem roundWithAccuracy_eq {s : Sign} {n : Nat} {e e' : Int} {em : ExtendedMantissa}
    (hfirst : UnpackedFloat.shiftToTargetExponent .binary64 n e .exact = (em, e'))
    (he : -1074 ≤ e') (hlow : 2 ^ 52 ≤ em.roundedMantissa) (hhigh : em.roundedMantissa ≤ 2 ^ 53) :
    ∃ m d h, UnpackedFloat.roundWithAccuracy .binary64 s n e .exact = .finite s m d h
      ∧ 2 ^ 52 ≤ m ∧ m < 2 ^ 53 ∧ e' ≤ d
      ∧ (em.roundedMantissa < 2 ^ 53 → m = em.roundedMantissa ∧ d = e') := by
  unfold UnpackedFloat.roundWithAccuracy
  rw [hfirst]
  dsimp only
  have hsecond : ∃ m d, UnpackedFloat.shiftToTargetExponent .binary64 em.roundedMantissa e' .exact
        = (⟨m, false, false⟩, d) ∧ 2 ^ 52 ≤ m ∧ m < 2 ^ 53 ∧ e' ≤ d
        ∧ (em.roundedMantissa < 2 ^ 53 → m = em.roundedMantissa ∧ d = e') := by
    by_cases hcarry : em.roundedMantissa < 2 ^ 53
    · exact ⟨_, _, shift_normal hlow hcarry he, hlow, hcarry, le_rfl, fun _ => ⟨rfl, rfl⟩⟩
    · have hfull : em.roundedMantissa = 2 ^ 53 := by omega
      rw [hfull]
      exact ⟨_, _, shift_carried he, by decide, by decide, by omega, fun h => absurd h (by decide)⟩
  obtain ⟨m, d, hshift, hm⟩ := hsecond
  rw [hshift]
  exact ⟨m, d, by omega, dif_neg (show ¬ m = 0 by omega), hm⟩

/-- A whole number is packed from a significand of 53 bits. Below 2^53 it is
the number itself, shifted to the left; a larger one loses bits at the right. -/
theorem ofNat_normal {n : Nat} (hn : 0 < n) :
    ∃ m e h, UnpackedFloat.ofNat .binary64 n = .finite .positive m e h
      ∧ 2 ^ 52 ≤ m ∧ m < 2 ^ 53 ∧ -1074 ≤ e
      ∧ (n < 2 ^ 53 → m = n * 2 ^ (52 - n.log2) ∧ e = (n.log2 : Int) - 52)
      ∧ (2 ^ 53 ≤ n → 1 ≤ e) := by
  have hround : UnpackedFloat.ofNat .binary64 n = UnpackedFloat.round .binary64 .positive n 0 := by
    rw [UnpackedFloat.ofNat, UnpackedFloat.ofInt, UnpackedFloat.normalize,
      compare_gt_iff_gt.mpr (by omega)]
    rfl
  have hlow := Nat.log2_self_le hn.ne'
  have hhigh := @Nat.lt_log2_self n
  rw [hround, UnpackedFloat.round, targetExponent_eq, UnpackedFloat.decreaseExponent]
  by_cases hsmall : n < 2 ^ 53
  · have hlog : n.log2 ≤ 52 := by
      have := (Nat.log2_lt hn.ne').mpr hsmall
      omega
    have hsplit : 2 ^ n.log2 * 2 ^ (52 - n.log2) = 2 ^ 52 := by
      rw [← Nat.pow_add]
      congr 1
      omega
    have hwide : 2 ^ 52 ≤ n * 2 ^ (52 - n.log2) := hsplit ▸ Nat.mul_le_mul_right _ hlow
    have hwide' : n * 2 ^ (52 - n.log2) < 2 ^ 53 := by
      have hlt := Nat.mul_lt_mul_of_pos_right hhigh (Nat.two_pow_pos (52 - n.log2))
      rw [Nat.pow_succ, Nat.mul_right_comm, hsplit] at hlt
      exact hlt
    have hshift : (0 - max ((n.log2 : Int) + 0 - 52) (-1074)).toNat = 52 - n.log2 := by omega
    have hplace : (0 : Int) - ((52 - n.log2 : Nat) : Int) = (n.log2 : Int) - 52 := by omega
    have hplaced := shift_normal hwide hwide' (by omega : -1074 ≤ (n.log2 : Int) - 52)
    obtain ⟨m, d, h, hrounded, hm, hm', hd, hexact⟩ :=
      @roundWithAccuracy_eq .positive _ _ _ _ hplaced (by omega) hwide hwide'.le
    refine ⟨m, d, h, ?_, hm, hm', by omega, fun _ => hexact hwide', fun h => by omega⟩
    rw [hshift, Nat.shiftLeft_eq, hplace]
    exact hrounded
  · have hlog : 53 ≤ n.log2 := (Nat.le_log2 hn.ne').mpr (by omega)
    have hshift : (0 - max ((n.log2 : Int) + 0 - 52) (-1074)).toNat = 0 := by omega
    have hshift' : (max ((n.log2 : Int) + 0 - 52) (-1074) - 0).toNat = n.log2 - 52 := by omega
    have hquotient : 2 ^ 52 ≤ n / 2 ^ (n.log2 - 52) ∧ n / 2 ^ (n.log2 - 52) < 2 ^ 53 := by
      rw [Nat.le_div_iff_mul_le (Nat.two_pow_pos _), Nat.div_lt_iff_lt_mul (Nat.two_pow_pos _),
        ← Nat.pow_add, ← Nat.pow_add]
      have hexact : 52 + (n.log2 - 52) = n.log2 := by omega
      have hexact' : 53 + (n.log2 - 52) = n.log2 + 1 := by omega
      rw [hexact, hexact']
      exact ⟨hlow, hhigh⟩
    have hfirst : UnpackedFloat.shiftToTargetExponent .binary64 n 0 .exact
        = ((⟨n, false, false⟩ : ExtendedMantissa) >>> (n.log2 - 52),
          ((n.log2 - 52 : Nat) : Int)) := by
      rw [UnpackedFloat.shiftToTargetExponent, targetExponent_eq, UnpackedFloat.shiftToExponent]
      simp only [hshift']
      exact Prod.ext rfl (Int.zero_add _)
    obtain ⟨hdown, hup⟩ :=
      roundedMantissa_bounds ((⟨n, false, false⟩ : ExtendedMantissa) >>> (n.log2 - 52))
    rw [shift_mantissa] at hdown hup
    dsimp only at hdown hup
    obtain ⟨m, d, h, hrounded, hm, hm', hd, -⟩ := @roundWithAccuracy_eq .positive _ _ _ _ hfirst
      (by omega) (by omega) (by omega)
    refine ⟨m, d, h, ?_, hm, hm', by omega, fun h => absurd h hsmall, fun _ => by omega⟩
    rw [hshift, Nat.shiftLeft_zero]
    exact hrounded

theorem compare_nan {f g : UnpackedFloat} (h : f.isNaN = true ∨ g.isNaN = true) :
    f.compare g = none := by
  rcases h with h | h
  · cases f with
    | notANumber => rfl
    | _ => cases h
  · cases g with
    | notANumber => cases f <;> rfl
    | _ => cases h

end Binary64

/-! ## Positions -/

namespace Double

open Binary64

/-- The position among the doubles that are no NaN. -/
def position (d : Double) : Int := place d.unpack

theorem compare_position {a b : Double} (ha : a.isNaN = false) (hb : b.isNaN = false) :
    a.unpack.compare b.unpack = some (compare a.position b.position) :=
  compare_eq (unpack_canonical _) (unpack_canonical _) ha hb

/-- A comparison that asks for one outcome holds between numbers only. -/
theorem compare_iff {a b : Double} {outcome : Ordering} :
    (a.unpack.compare b.unpack == some outcome) = true
      ↔ a.isNaN = false ∧ b.isNaN = false ∧ compare a.position b.position = outcome := by
  by_cases hnan : a.isNaN = true ∨ b.isNaN = true
  · rw [compare_nan hnan]
    refine iff_of_false (by simp) fun h => ?_
    rcases hnan with hnan | hnan
    · rw [h.1] at hnan
      cases hnan
    · rw [h.2.1] at hnan
      cases hnan
  · simp only [not_or, Bool.not_eq_true] at hnan
    rw [compare_position hnan.1 hnan.2]
    simp [hnan]

theorem less_iff {a b : Double} :
    a.less b = true ↔ a.isNaN = false ∧ b.isNaN = false ∧ a.position < b.position := by
  exact compare_iff.trans (and_congr_right fun _ => and_congr_right fun _ => compare_lt_iff_lt)

theorem equal_iff {a b : Double} :
    a.equal b = true ↔ a.isNaN = false ∧ b.isNaN = false ∧ a.position = b.position := by
  exact compare_iff.trans (and_congr_right fun _ => and_congr_right fun _ => compare_eq_iff_eq)

/-! ## Whole numbers -/

/-- A positive whole number is a number of 53 bits, or infinite. -/
theorem ofNat_unpack {n : Nat} (hn : 0 < n) :
    ∃ m e h, (ofNat n).unpack = (if e ≤ 971 then .finite .positive m e h else .infinity .positive)
      ∧ m < 2 ^ 53 ∧ (n < 2 ^ 53 → m = n * 2 ^ (52 - n.log2) ∧ e = (n.log2 : Int) - 52)
      ∧ (2 ^ 53 ≤ n → 1 ≤ e) := by
  obtain ⟨m, e, h, hpacked, hm, hm', he, hexact⟩ := ofNat_normal hn
  refine ⟨m, e, h, ?_, hm', hexact⟩
  have hunpack : (ofNat n).unpack =
      .unpack .binary64 (UnpackedFloat.pack .binary64 (.ofNat .binary64 n)) := rfl
  rw [hunpack, hpacked, unpack_pack_normal hm hm' he]

@[simp] theorem ofNat_isNaN (n : Nat) : (ofNat n).isNaN = false := by
  rcases Nat.eq_zero_or_pos n with rfl | hn
  · decide
  · obtain ⟨m, e, h, hunpack, -⟩ := ofNat_unpack hn
    rw [isNaN, hunpack]
    by_cases hfits : e ≤ 971
    · rw [if_pos hfits]
      rfl
    · rw [if_neg hfits]
      rfl

theorem ofNat_position_zero : (ofNat 0).position = 0 := by decide

theorem ofNat_position_small {n : Nat} (hn : 0 < n) (hsmall : n < 2 ^ 53) :
    (ofNat n).position = ((n.log2 : Int) + 1023) * 2 ^ 53 + (n * 2 ^ (52 - n.log2) : Nat) := by
  obtain ⟨m, e, h, hunpack, -, hexact, -⟩ := ofNat_unpack hn
  obtain ⟨rfl, rfl⟩ := hexact hsmall
  have hlog : n.log2 < 53 := (Nat.log2_lt hn.ne').mpr hsmall
  rw [position, hunpack, if_pos (by omega)]
  dsimp only [place, Sign.apply]
  omega

theorem ofNat_position_large {n : Nat} (hlarge : 2 ^ 53 ≤ n) :
    1076 * 2 ^ 53 ≤ (ofNat n).position := by
  obtain ⟨m, e, h, hunpack, -, -, hlast⟩ := ofNat_unpack (by omega : 0 < n)
  have hone := hlast hlarge
  rw [position, hunpack]
  by_cases hfits : e ≤ 971
  · rw [if_pos hfits]
    dsimp only [place, Sign.apply]
    omega
  · rw [if_neg hfits]
    decide

/-- A whole number below 2^53 stays below every larger one. -/
theorem ofNat_position_lt {a b : Nat} (hlt : a < b) (hsmall : a < 2 ^ 53) :
    (ofNat a).position < (ofNat b).position := by
  rcases Nat.eq_zero_or_pos a with rfl | ha
  · rw [ofNat_position_zero]
    by_cases hb : b < 2 ^ 53
    · rw [ofNat_position_small hlt hb]
      omega
    · have hfar := ofNat_position_large (Nat.not_lt.mp hb)
      omega
  · have hlog : a.log2 < 53 := (Nat.log2_lt ha.ne').mpr hsmall
    have hwide : a * 2 ^ (52 - a.log2) < 2 ^ 53 := by
      have hsplit : 2 ^ (a.log2 + 1) * 2 ^ (52 - a.log2) = 2 ^ 53 := by
        rw [← Nat.pow_add]
        congr 1
        omega
      exact hsplit ▸ Nat.mul_lt_mul_of_pos_right Nat.lt_log2_self (Nat.two_pow_pos _)
    rw [ofNat_position_small ha hsmall]
    by_cases hb : b < 2 ^ 53
    · rw [ofNat_position_small (by omega) hb]
      have hle : a.log2 ≤ b.log2 :=
        (Nat.le_log2 (by omega)).mpr ((Nat.log2_self_le ha.ne').trans hlt.le)
      rcases hle.lt_or_eq with hless | heq
      · omega
      · rw [heq]
        have hmul := Nat.mul_lt_mul_of_pos_right hlt (Nat.two_pow_pos (52 - b.log2))
        omega
    · have hfar := ofNat_position_large (Nat.not_lt.mp hb)
      omega

end Double

import EnsembleFabric.Text

/-!
# The arithmetic of scores

The source computes with doubles: scores and weights are multiplied and
added in the order they arrived, counts become doubles and are divided, and
the results are compared. Every such computation is written once, for an
`Arithmetic`, and is used at two of them:

* the doubles (`Double`), with every operation rounded. The runtime computes
  with these;
* the rationals, without rounding: what the same computation gives when the
  scores and weights are taken as the exact numbers they stand for.

A value that is a number has a position in the order of the numbers, and
`less` and `equal` compare positions. Every rational is a number. A double
that is a NaN is none, and compares with nothing.
-/

namespace EnsembleFabric

/-- The numbers that scores are computed in. -/
class Arithmetic (ν : Type) where
  /-- The value of a double that is stored. -/
  read : Double → ν
  /-- The value of a counter. -/
  count : Nat → ν
  add : ν → ν → ν
  mul : ν → ν → ν
  div : ν → ν → ν
  less : ν → ν → Bool
  equal : ν → ν → Bool
  /-- Less than a double that a policy configures. -/
  below : ν → Double → Bool
  format : ν → String
  isNumber : ν → Bool
  position : ν → Rat
  less_iff : ∀ {a b : ν}, less a b = true
    ↔ isNumber a = true ∧ isNumber b = true ∧ position a < position b
  equal_iff : ∀ {a b : ν}, equal a b = true
    ↔ isNumber a = true ∧ isNumber b = true ∧ position a = position b

instance : Arithmetic Double where
  read := id
  count := Double.ofNat
  add := Double.add
  mul := Double.mul
  div := Double.div
  less := Double.less
  equal := Double.equal
  below := Double.less
  format := formatDouble
  isNumber d := !d.isNaN
  position d := d.position
  less_iff := by
    intro a b
    rw [Double.less_iff, Bool.not_eq_true', Bool.not_eq_true', Rat.intCast_lt_intCast]
  equal_iff := by
    intro a b
    rw [Double.equal_iff, Bool.not_eq_true', Bool.not_eq_true', Rat.intCast_inj]

instance : Arithmetic Rat where
  read := Double.toRat
  count n := n
  add := (· + ·)
  mul := (· * ·)
  div := (· / ·)
  less a b := decide (a < b)
  equal a b := decide (a = b)
  below q d := d.exceeds q
  format := formatRat
  isNumber _ := true
  position := id
  less_iff := by simp
  equal_iff := by simp

namespace Arithmetic

variable {ν : Type} [Arithmetic ν]

/-- The sum of a list, added up from the left. -/
def sum (values : List ν) : ν := values.foldl add (read .zero)

/-- `std::min(a, b)`. -/
def lesser (a b : ν) : ν := if less b a then b else a

/-- `std::max(a, b)`. -/
def greater (a b : ν) : ν := if less a b then b else a

/-! ### Comparisons -/

section Equal

variable {a a' : ν} (h : equal a a' = true)
include h

/-- Equal values compare alike with every other. -/
theorem equal_congr (b : ν) : equal a b = equal a' b := by
  obtain ⟨ha, ha', hsame⟩ := equal_iff.mp h
  rw [Bool.eq_iff_iff, equal_iff, equal_iff, ha, ha', hsame]

theorem less_congr (b : ν) : less a b = less a' b := by
  obtain ⟨ha, ha', hsame⟩ := equal_iff.mp h
  rw [Bool.eq_iff_iff, less_iff, less_iff, ha, ha', hsame]

theorem less_congr_right (b : ν) : less b a = less b a' := by
  obtain ⟨ha, ha', hsame⟩ := equal_iff.mp h
  rw [Bool.eq_iff_iff, less_iff, less_iff, ha, ha', hsame]

end Equal

theorem less_asymm {a b : ν} (h : less a b = true) : less b a = false := by
  rw [Bool.eq_false_iff]
  intro hback
  exact lt_asymm (less_iff.mp h).2.2 (less_iff.mp hback).2.2

theorem not_equal_of_less {a b : ν} (h : less a b = true) : equal a b = false := by
  rw [Bool.eq_false_iff]
  intro hsame
  exact (less_iff.mp h).2.2.ne (equal_iff.mp hsame).2.2

theorem equal_comm (a b : ν) : equal a b = equal b a := by
  rw [Bool.eq_iff_iff, equal_iff, equal_iff]
  exact ⟨fun ⟨ha, hb, hsame⟩ => ⟨hb, ha, hsame.symm⟩, fun ⟨hb, ha, hsame⟩ => ⟨ha, hb, hsame.symm⟩⟩

end Arithmetic

end EnsembleFabric

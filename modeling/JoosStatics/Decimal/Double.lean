/-
JoosStatics.Decimal.Double — decimals rounded to doubles, exactly.

A magnitude is counted in units of the least positive double, 2^-1074:
every finite double is a whole number of units, and `Double.limit` units
stand for infinity. All arithmetic is on natural numbers.

* `roundQuotient` — the nearest whole number, of two the even one;
  `roundQuotient_near` says that it is at most one half away.
* `Double.ofRatio`, `Double.ofDecimal`, `Double.mul` — rounded correctly.
-/

namespace JoosStatics

namespace Decimal

/-- A power of ten. -/
def power (exponent : Nat) : Nat := Nat.pow 10 exponent

/-- The whole number nearest to `num / den`; of two, the even one. -/
def roundQuotient (num den : Nat) : Nat :=
  let quotient := num / den
  let rest := num % den
  if 2 * rest < den || (2 * rest == den && quotient % 2 == 0) then quotient else quotient + 1

/-- Rounding moves a quotient by at most one half. -/
theorem roundQuotient_near (num : Nat) {den : Nat} (h : 0 < den) :
    2 * (roundQuotient num den * den) ≤ 2 * num + den ∧
      2 * num ≤ 2 * (roundQuotient num den * den) + den := by
  have hsplit : den * (num / den) + num % den = num := Nat.div_add_mod num den
  have hlt : num % den < den := Nat.mod_lt num h
  have hcomm : num / den * den = den * (num / den) := Nat.mul_comm ..
  unfold roundQuotient
  dsimp only
  split
  · rename_i hc
    simp only [Bool.or_eq_true, decide_eq_true_eq, Bool.and_eq_true, beq_iff_eq] at hc
    rw [hcomm]
    omega
  · rename_i hc
    simp only [Bool.or_eq_true, decide_eq_true_eq, Bool.and_eq_true, beq_iff_eq, not_or,
      not_and] at hc
    have hsucc : (num / den + 1) * den = den * (num / den) + den := by
      rw [Nat.add_mul, Nat.one_mul, hcomm]
    rw [hsucc]
    omega

end Decimal

/-- A double: its sign and its magnitude in units of 2^-1074. -/
structure Double where
  negative : Bool := false
  units : Nat
  deriving DecidableEq, Repr

namespace Double

open Decimal

instance : Inhabited Double := ⟨{ units := 0 }⟩

/-- The number of units in a given power of two. -/
def unitsOfPower (exponent : Nat) : Nat := 1 <<< (exponent + 1074)

/-- The magnitude that stands for infinity. -/
def limit : Nat := unitsOfPower 1024

/-- The infinite double. -/
def infinity : Double := { units := limit }

/-- Whether a double is infinite. -/
def isInfinite (x : Double) : Bool := limit ≤ x.units

/-- The number of low bits that a magnitude of this size cannot have, since a
double has 53 significant bits. -/
def gapBits (units : Nat) : Nat := units.log2 - 52

/-- The magnitude of a double that is nearest to `num / den` units. -/
def nearest (num den : Nat) : Nat :=
  let gap := gapBits (num / den)
  min (roundQuotient num (den <<< gap) <<< gap) limit

/-- The double nearest to `num / den`. -/
def ofRatio (num den : Nat) : Double := { units := nearest (num * unitsOfPower 0) den }

/-- The double nearest to `significand · 10^exponent`. Exponents out of
proportion to the significand are decided without computing the power. -/
def ofDecimal (significand : Nat) (exponent : Int) : Double :=
  if significand = 0 then { units := 0 }
  else match exponent with
    | .ofNat e => if 309 ≤ e then infinity else ofRatio (significand * power e) 1
    | .negSucc e =>
      if significand.log2 + 326 < e then { units := 0 } else ofRatio significand (power (e + 1))

/-- The product, rounded. -/
def mul (x y : Double) : Double :=
  { negative := x.negative != y.negative, units := nearest (x.units * y.units) (unitsOfPower 0) }

/-- The magnitude with its sign; both zeros are zero. -/
def signedUnits (x : Double) : Int :=
  if x.negative then -Int.ofNat x.units else Int.ofNat x.units

/-- Doubles are ordered as numbers. -/
instance : Ord Double := ⟨fun x y => compare x.signedUnits y.signedUnits⟩

end Double

end JoosStatics

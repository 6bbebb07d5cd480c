/-
  Decimal numbers, and the floating-point number nearest to one.

  * `Decimal`: digits and a power of ten, without a sign.
  * `roundQuotient`: the whole number nearest to a quotient, a half going to the even
    neighbour.
  * `Double.ofDecimal?`: the nearest floating-point number; none from the point where
    the nearest one would be infinity.  The two short cuts before the division keep
    huge exponents from building huge powers and change no result.
-/
import ScriptTree.Double.Basic

namespace ScriptTree

/-- The number `digits * 10 ^ exponent`. -/
structure Decimal where
  digits : Nat
  exponent : Int
  deriving DecidableEq, Repr

namespace Decimal

/-- The numerator of a decimal number as a fraction. -/
def num (d : Decimal) : Nat := d.digits * Nat.pow 10 d.exponent.toNat

/-- The denominator of a decimal number as a fraction. -/
def den (d : Decimal) : Nat := Nat.pow 10 (-d.exponent).toNat

/-- The same number without zeros at the end of its digits. -/
def strip (d : Decimal) : Decimal :=
  if d.digits ≠ 0 ∧ d.digits % 10 = 0 then strip ⟨d.digits / 10, d.exponent + 1⟩ else d
  termination_by d.digits
  decreasing_by omega

end Decimal

/-- The whole number nearest to `num / den`; a half goes to the even neighbour. -/
def roundQuotient (num den : Nat) : Nat :=
  if 2 * (num % den) < den ∨ (2 * (num % den) = den ∧ num / den % 2 = 0) then num / den
  else num / den + 1

theorem roundQuotient_mul {den : Nat} (h : 0 < den) (q : Nat) :
    roundQuotient (q * den) den = q := by
  simp [roundQuotient, Nat.mul_mod_left, h]

namespace Double

/-- The magnitude nearest to `num / den`, which may lie at infinity or beyond.  The
    quotient, in steps of the least positive number, is rounded in the step of the
    binade where it lies; a result at the upper end of the binade is the first of the
    next one. -/
def nearestMagnitude (num den : Nat) : Nat :=
  let scaled := num * Nat.pow 2 1074
  let step := (scaled / den).log2 - 52
  step * binade + roundQuotient scaled (den * Nat.pow 2 step)

/-- The finite number of a magnitude, if there is one. -/
def ofMagnitude? (negative : Bool) (magnitude : Nat) : Option Double :=
  if h : magnitude < infinityMagnitude.val then
    some ⟨negative, magnitude, Nat.lt_trans h infinityMagnitude.isLt⟩
  else none

/-- The floating-point number nearest to a decimal one, if it is finite. -/
def ofDecimal? (negative : Bool) (d : Decimal) : Option Double :=
  if d.digits = 0 then some ⟨negative, 0⟩
  else if 308 < d.exponent then none
  else if d.digits.log2 + 1076 < 3 * (-d.exponent).toNat then some ⟨negative, 0⟩
  else ofMagnitude? negative (nearestMagnitude d.num d.den)

theorem isFinite_of_ofMagnitude? {negative : Bool} {magnitude : Nat} {x : Double}
    (h : ofMagnitude? negative magnitude = some x) : x.isFinite = true := by
  unfold ofMagnitude? at h
  split at h
  · next hlt =>
    cases h
    simpa [isFinite, Fin.lt_def] using hlt
  · cases h

/-- Reading a decimal number never yields an infinity or a NaN. -/
theorem isFinite_of_ofDecimal? {negative : Bool} {d : Decimal} {x : Double}
    (h : ofDecimal? negative d = some x) : x.isFinite = true := by
  have hzero : ∀ s, (⟨s, 0⟩ : Double).isFinite = true := by decide
  unfold ofDecimal? at h
  split at h
  · cases h; exact hzero _
  split at h
  · cases h
  split at h
  · cases h; exact hzero _
  · exact isFinite_of_ofMagnitude? h

end Double

end ScriptTree

/-
  The shortest decimal number that reads back as a given floating-point number.

  * `Double.neighbours`: on the grid of decimal numbers with a given count of digits,
    the two neighbours of a number, the nearer one first.
  * `Double.shortest`: the first neighbour, from one digit to seventeen, that reads
    back (`readsBack_of_findShortest?`).
-/
import ScriptTree.Double.Decimal

namespace ScriptTree

/-- How many decimal digits a number has; zero has one. -/
def digitCount (n : Nat) : Nat :=
  if n < 10 then 1 else digitCount (n / 10) + 1
  termination_by n
  decreasing_by omega

/-- For a positive `num / den` the exponent `k` with
    `10 ^ (k - 1) ≤ num / den < 10 ^ k`. -/
def pointPosition (num den : Nat) : Int :=
  if den ≤ num then digitCount (num / den) else 1 - (digitCount ((den - 1) / num) : Int)

/-- The two multiples of `10 ^ exponent` around `num / den`: the nearer one first, and
    of two equally near the one with an even last digit first. -/
def decimalNeighbours (num den : Nat) (exponent : Int) : List Decimal :=
  let num := num * Nat.pow 10 (-exponent).toNat
  let den := den * Nat.pow 10 exponent.toNat
  let below := num / den
  if roundQuotient num den = below then [⟨below, exponent⟩, ⟨below + 1, exponent⟩]
  else [⟨below + 1, exponent⟩, ⟨below, exponent⟩]

namespace Double

/-- A decimal number reads back as `x` if it has the sign and is nearest to `x`. -/
def ReadsBack (x : Double) (d : Decimal) : Prop := ofDecimal? x.negative d = some x

instance (x : Double) (d : Decimal) : Decidable (x.ReadsBack d) :=
  inferInstanceAs (Decidable (_ = _))

/-- The neighbours of a number among the decimal numbers of `count` digits, without
    zeros at the end. -/
def neighbours (x : Double) (count : Nat) : List Decimal :=
  (decimalNeighbours x.units (Nat.pow 2 1074)
    (pointPosition x.units (Nat.pow 2 1074) - count)).map Decimal.strip

/-- The neighbour with the fewest digits that reads back, and of two such the nearer. -/
def findShortest? (x : Double) : Option Decimal :=
  (List.range' 1 17).findSome? fun count => (x.neighbours count).find? (x.ReadsBack ·)

/-- A finite number in full: a multiple of `2 ^ -1074` is one of `10 ^ -1074`. -/
def exactDecimal (x : Double) : Decimal := ⟨x.units * Nat.pow 5 1074, -1074⟩

/-- The shortest decimal number that reads back as a finite number. -/
def shortest (x : Double) : Decimal :=
  if x.magnitude = 0 then ⟨0, 0⟩ else x.findShortest?.getD x.exactDecimal

theorem readsBack_of_findShortest? {x : Double} {d : Decimal} (h : x.findShortest? = some d) :
    x.ReadsBack d := by
  obtain ⟨_, _, hfind⟩ := List.exists_of_findSome?_eq_some h
  simpa using List.find?_some hfind

end Double

end ScriptTree

/-
  Binary floating-point numbers of 64 bits, as the numbers of a script are.

  * `Double`: a sign and a magnitude.  The magnitude is the bit pattern below the
    sign bit, so magnitudes are ordered as the values they stand for; above the
    magnitude of infinity they stand for no value (NaN).
  * `Double.le`: the numeric order.  Zero equals minus zero (`zero_le_negZero`), and
    a NaN is not comparable, not even with itself (`le_self_iff`).
  * `Double.units`: a finite magnitude as a multiple of the least positive number.
  * `Double.wholePart`: the number without its fraction, as an unsigned 64-bit count.
-/

namespace ScriptTree

/-- There are magnitudes: the bound of sixty-three bits is positive. -/
instance neZero_magnitudes : @NeZero Nat .ofOfNat0 0x8000000000000000 := ⟨by decide⟩

/-- A floating-point number: the sign bit, and the 63 bits below it read as a number. -/
structure Double where
  /-- The sign bit, also of zero. -/
  negative : Bool
  /-- Eleven bits of exponent followed by fifty-two bits of fraction. -/
  magnitude : Fin 0x8000000000000000
  deriving DecidableEq, Repr, Inhabited

namespace Double

/-- One step of the exponent field. -/
def binade : Nat := Nat.pow 2 52

/-- The magnitude of infinity: the greatest exponent with no fraction. -/
def infinityMagnitude : Fin 0x8000000000000000 := 0x7FF0000000000000

/-- The number zero, its sign clear. -/
def zero : Double := ⟨false, 0⟩

/-- The number zero with its sign set. -/
def negZero : Double := ⟨true, 0⟩

/-- The number one. -/
def one : Double := ⟨false, 0x3FF0000000000000⟩

/-- More than any number. -/
def infinity : Double := ⟨false, infinityMagnitude⟩

/-- Less than any number. -/
def negInfinity : Double := ⟨true, infinityMagnitude⟩

/-- The NaN that a computation yields; every other one behaves alike. -/
def nan : Double := ⟨false, 0x7FF8000000000000⟩

/-- Neither a number nor an infinity. -/
def isNaN (d : Double) : Bool := infinityMagnitude < d.magnitude

/-- A number, and no infinity. -/
def isFinite (d : Double) : Bool := d.magnitude < infinityMagnitude

/-- The position of a number in the numeric order.  The two zeros share one. -/
def rank (d : Double) : Int :=
  if d.negative then -(d.magnitude.val : Int) else d.magnitude.val

/-- The numeric order, which holds for no NaN. -/
def le (a b : Double) : Bool := !a.isNaN && !b.isNaN && a.rank ≤ b.rank

theorem zero_le_negZero : zero.le negZero = true := by decide

theorem le_self_iff (d : Double) : d.le d = true ↔ d.isNaN = false := by
  simp [le]

theorem le_nan (d : Double) : d.le nan = false := by
  have : nan.isNaN = true := by decide
  simp [le, this]

/-- A finite magnitude counted in steps of the least positive number, `2 ^ -1074`.
    Below the first binade the fraction is the count; above it the fraction has an
    implied leading bit and every binade doubles the step. -/
def unitsOf (magnitude : Nat) : Nat :=
  if magnitude < binade then magnitude
  else (binade + magnitude % binade) * Nat.pow 2 (magnitude / binade - 1)

/-- The size of a finite number, counted in steps of `2 ^ -1074`. -/
def units (d : Double) : Nat := unitsOf d.magnitude

/-- The greatest count that fits 64 bits. -/
def countLimit : Nat := 0xFFFFFFFFFFFFFFFF

/-- The number without its fraction, as a count: nothing below zero, and no more than
    fits 64 bits. -/
def wholePart (d : Double) : Nat :=
  if d.negative || d.isNaN then 0
  else if d.isFinite then min countLimit (d.units / Nat.pow 2 1074)
  else countLimit

theorem wholePart_le (d : Double) : d.wholePart ≤ countLimit := by
  unfold wholePart
  split
  · exact Nat.zero_le _
  · split
    · exact Nat.min_le_left _ _
    · exact Nat.le_refl _

end Double

end ScriptTree

/-
  Numbers as text.

  * `NumberStyle`: where a format changes from positional notation to notation with an
    exponent, and whether whole numbers keep a fraction of zero.
  * `Decimal.positional`, `Decimal.scientific`: the two notations.
  * `Double.text`: a finite number from its shortest digits, in a given style.
-/
import ScriptTree.Double.Shortest

namespace ScriptTree

/-- The decisions of a number format. -/
structure NumberStyle where
  /-- The least exponent of a leading digit that is written positionally. -/
  least : Int
  /-- The greatest exponent of a leading digit that is written positionally. -/
  greatest : Int
  /-- Whether a whole number in positional notation ends in `.0`. -/
  pointZero : Bool

namespace Decimal

/-- The exponent of the leading digit. -/
def leading (d : Decimal) : Int := d.exponent + ((Nat.toDigits 10 d.digits).length - 1 : Nat)

/-- Digits with a point between them; zeros fill the places up to the point. -/
def positional (pointZero : Bool) (d : Decimal) : List Char :=
  let digits := Nat.toDigits 10 d.digits
  let places := (-d.exponent).toNat
  if places = 0 then
    digits ++ List.replicate d.exponent.toNat '0' ++ if pointZero then ['.', '0'] else []
  else if places < digits.length then
    digits.take (digits.length - places) ++ '.' :: digits.drop (digits.length - places)
  else '0' :: '.' :: (List.replicate (places - digits.length) '0' ++ digits)

/-- One digit, the others behind a point, and the exponent with its sign. -/
def scientific (d : Decimal) : List Char :=
  let exponent := (if d.leading < 0 then '-' else '+') :: Nat.toDigits 10 d.leading.natAbs
  match Nat.toDigits 10 d.digits with
  | [] => []
  | [digit] => digit :: 'e' :: exponent
  | digit :: digits => digit :: '.' :: digits ++ 'e' :: exponent

/-- A decimal number in a given style. -/
def text (style : NumberStyle) (d : Decimal) : List Char :=
  if style.least ≤ d.leading ∧ d.leading ≤ style.greatest then d.positional style.pointZero
  else d.scientific

end Decimal

/-- A finite number from its shortest digits, behind a minus if its sign is set. -/
def Double.text (style : NumberStyle) (x : Double) : List Char :=
  (if x.negative then ['-'] else []) ++ x.shortest.text style

end ScriptTree
